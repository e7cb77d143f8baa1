import Flowchart.Proofs.Chart.Block
import Flowchart.Proofs.Pseudocode.Grammar
/-! The statements of a program. What the grammar derives has no flaw, and each of its jumps lies in
a construct that it can refer to. -/
namespace Flowchart

inductive Statement.Fits : Scope → Statement → Prop
  | text {s content} : Fits s (.text content)
  | pass {s} : Fits s .pass
  | leave {s : Scope} : s.leave = true → Fits s (.jump .leave)
  | resume {s : Scope} : s.resume = true → Fits s (.jump .resume)
  | decision {s test yes no} : (∀ t ∈ yes, Fits s t) → (∀ t ∈ no, Fits s t) →
      Fits s (.decision test yes no)
  | whileLoop {s test body} : (∀ t ∈ body, Fits .inLoop t) → Fits s (.whileLoop test body)
  | doLoop {s body test} : (∀ t ∈ body, Fits .inLoop t) → Fits s (.doLoop body test)
  | switch {s : Scope} {subject cases} : (∀ b ∈ cases, ∀ t ∈ b.2, Fits s.inSwitch t) →
      Fits s (.switch subject cases)
  | tryBlock {s body handlers} : (∀ t ∈ body, Fits s t) →
      (∀ b ∈ handlers, ∀ t ∈ b.2, Fits s t) → Fits s (.tryBlock body handlers)

def Block.Fits (s : Scope) (block : Block) : Prop := ∀ t ∈ block, t.Fits s

def Branches.Fits (s : Scope) (branches : Branches) : Prop := ∀ b ∈ branches, Block.Fits s b.2

namespace Block
variable {s : Scope} {t : Statement} {rest block : Block}

theorem Fits.nil : Block.Fits s [] := nofun

theorem Fits.cons (ht : t.Fits s) (hrest : Block.Fits s rest) : Block.Fits s (t :: rest) := by
  intro u hu
  rcases List.mem_cons.mp hu with rfl | hmem
  · exact ht
  · exact hrest u hmem

theorem ofNodes_of_block {nodes : List Node} (h : Grammar .block s nodes) :
    ofNodes .chain nodes = ofNodes .none nodes ∧ alternative nodes = [] ∧
      ofNodes .handlers nodes = ofNodes .none nodes ∧ handlers nodes = [] := by
  cases h <;> refine ⟨?_, ?_, ?_, ?_⟩ <;>
    simp [ofNodes, alternative, handlers, Continuation.take?]

end Block

theorem Branches.Fits.nil {s : Scope} : Branches.Fits s [] := fun _ h => nomatch h

theorem Branches.Fits.cons {s : Scope} {label : String} {block : Block} {rest : Branches}
    (hblock : Block.Fits s block) (hrest : Branches.Fits s rest) :
    Branches.Fits s ((label, block) :: rest) := by
  intro b hb
  rcases List.mem_cons.mp hb with rfl | hmem
  · exact hblock
  · exact hrest b hmem

/-- What the siblings at a place give to the construct before them, and the statements after it. -/
def Place.Fits (s : Scope) (nodes : List Node) : Place → Prop
  | .block => Block.Fits s (Block.ofNodes .none nodes)
  | .chain => Block.Fits s (Block.alternative nodes) ∧ Block.Fits s (Block.ofNodes .chain nodes)
  | .closing =>
    (∃ test, Node.closing? nodes = some test) ∧ Block.Fits s (Block.ofNodes .closing nodes)
  | .firstCase | .cases => Branches.Fits s (Block.branches nodes)
  | .firstHandler | .handlers =>
    Branches.Fits s (Block.handlers nodes) ∧ Block.Fits s (Block.ofNodes .handlers nodes)

/-- What the grammar derives can be drawn. -/
theorem fits_of_grammar {place : Place} {s : Scope} {nodes : List Node}
    (h : Grammar place s nodes) : place.Fits s nodes := by
  induction h with
  | nil => unfold Place.Fits Block.ofNodes; exact .nil
  | text _ ih => unfold Place.Fits Block.ofNodes; exact .cons .text ih
  | pass _ ih => unfold Place.Fits Block.ofNodes; exact .cons .pass ih
  | breakJump hs _ ih => unfold Place.Fits Block.ofNodes; exact .cons (.leave hs) ih
  | continueJump hs _ ih => unfold Place.Fits Block.ofNodes; exact .cons (.resume hs) ih
  | ifTest _ _ ihb ihr =>
      unfold Place.Fits Block.ofNodes
      exact .cons (.decision ihb ihr.1) ihr.2
  | whileLoop _ _ ihb ihr => unfold Place.Fits Block.ofNodes; exact .cons (.whileLoop ihb) ihr
  | doLoop _ _ ihb ihr =>
      obtain ⟨⟨test, htest⟩, hrest⟩ := ihr
      unfold Place.Fits Block.ofNodes
      simp only [Continuation.take?, htest]
      exact .cons (.doLoop ihb) hrest
  | switch _ _ ihb ihr => unfold Place.Fits Block.ofNodes; exact .cons (.switch ihb) ihr
  | tryBlock _ _ ihb ihr =>
      unfold Place.Fits Block.ofNodes
      exact .cons (.tryBlock ihb ihr.1) ihr.2
  | elifTest _ _ ihb ihr =>
      refine ⟨?_, ?_⟩
      · unfold Block.alternative; exact .cons (.decision ihb ihr.1) .nil
      · unfold Block.ofNodes; exact ihr.2
  | elseBlock _ _ ihb ihr =>
      refine ⟨?_, ?_⟩
      · unfold Block.alternative; exact ihb
      · unfold Block.ofNodes; exact ihr
  | chainEnd hrest ih =>
      obtain ⟨hchain, halternative, -, -⟩ := Block.ofNodes_of_block hrest
      unfold Place.Fits
      rw [halternative, hchain]
      exact ⟨.nil, ih⟩
  | closing _ ih =>
      unfold Place.Fits Block.ofNodes
      exact ⟨⟨_, rfl⟩, ih⟩
  | firstCase _ _ ihb ihr => unfold Place.Fits Block.branches; exact .cons ihb ihr
  | nextCase _ ih => exact ih
  | lastCase => unfold Place.Fits Block.branches; exact .nil
  | except _ _ ihb ihr =>
      refine ⟨?_, ?_⟩
      · unfold Block.handlers; exact .cons ihb ihr.1
      · unfold Block.ofNodes; exact ihr.2
  | nextHandler _ ih => exact ih
  | lastHandler hrest ih =>
      obtain ⟨-, -, hafter, hhandlers⟩ := Block.ofNodes_of_block hrest
      unfold Place.Fits
      rw [hhandlers, hafter]
      exact ⟨.nil, ih⟩

end Flowchart
