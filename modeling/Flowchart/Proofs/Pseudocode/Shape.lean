import Flowchart.Proofs.Outcome
import Flowchart.Proofs.Pseudocode.Grammar
/-! The shape that building gives a tree, whatever the lines: a text has no block below it, and
neither has a `while` that closes a `do`. -/
namespace Flowchart.Tree

/-- Siblings, after a sibling of the given kind, of which texts and closing tests have no block. -/
inductive Tidy : Option NodeKind → List Node → Prop
  | nil {previous} : Tidy previous []
  | cons {previous kind line content children rest} : kind ≠ .program →
      (kind = .text → children = []) →
      (kind = .whileLoop → previous = some .doLoop → children = []) →
      Tidy none children → Tidy (some kind) rest →
      Tidy previous (⟨kind, line, content, children⟩ :: rest)

/-- The kind of the last sibling, or of the one before all of them. -/
def lastKind (previous : Option NodeKind) (nodes : List Node) : Option NodeKind :=
  (nodes.getLast?.map Node.kind).or previous

theorem lastKind_cons (previous : Option NodeKind) (node : Node) (rest : List Node) :
    lastKind previous (node :: rest) = lastKind (some node.kind) rest := by
  unfold lastKind
  cases rest with
  | nil => rfl
  | cons next rest => simp [List.getLast?_cons]

theorem Tidy.concat {previous : Option NodeKind} {nodes : List Node} (h : Tidy previous nodes)
    {node : Node} (kind : node.kind ≠ .program) (text : node.kind = .text → node.children = [])
    (closing : node.kind = .whileLoop → lastKind previous nodes = some .doLoop →
      node.children = [])
    (children : Tidy none node.children) : Tidy previous (nodes ++ [node]) := by
  obtain ⟨kind', line, content, below⟩ := node
  induction h with
  | nil =>
      exact .cons kind text closing children .nil
  | cons hkind htext hclosing hchildren hrest ihc ih =>
      exact .cons hkind htext hclosing hchildren (ih (by simpa only [lastKind_cons] using closing))

/-- The blocks that are open, innermost first: each was opened by the last line that it belongs to,
and the program is the outermost. -/
inductive Opened : List Node → Prop
  | program {children} : Tidy none children → Opened [⟨.program, 0, "", children⟩]
  | block {node parent outer} : node.kind ≠ .program → opensBlock node parent = true →
      Tidy none node.children → Opened (parent :: outer) → Opened (node :: parent :: outer)

theorem closesDo_iff {kind : NodeKind} {parent : Node} :
    closesDo kind parent = true ↔
      kind = .whileLoop ∧ lastKind none parent.children = some .doLoop := by
  simp [closesDo, lastKind]

theorem opened_push {node parent : Node} {outer : List Node} (kind : node.kind ≠ .program)
    (text : node.kind = .text → node.children = [])
    (closing : closesDo node.kind parent = true → node.children = [])
    (children : Tidy none node.children) (h : Opened (parent :: outer)) :
    Opened (parent.push node :: outer) := by
  have pushed (hp : Tidy none parent.children) : Tidy none (parent.push node).children :=
    hp.concat kind text (fun hw hd => closing (closesDo_iff.mpr ⟨hw, hd⟩)) children
  cases h with
  | program hp => exact .program (pushed hp)
  | block hkind hopens hp houter => exact .block hkind hopens (pushed hp) houter

theorem opened_closeBlocks (n : Nat) {stack : List Node} (h : Opened stack) :
    Opened (closeBlocks n stack) := by
  fun_induction closeBlocks n stack with
  | case1 n child parent outer ih =>
      cases h with
      | block hkind hopens hchild houter =>
          refine ih (opened_push hkind ?_ ?_ hchild houter)
          · intro ht
            simp [opensBlock, ht] at hopens
          · intro hc
            simp [opensBlock, hc] at hopens
  | case2 => exact h

theorem kind_nodeOf (l : Line) : (nodeOf l).kind ≠ .program ∧ (nodeOf l).children = [] := by
  unfold nodeOf
  dsimp only
  split
  · next kind h =>
      refine ⟨?_, rfl⟩
      rintro rfl
      have : NodeKind.program ∈ NodeKind.keywords := List.mem_of_find?_eq_some h
      simp [NodeKind.keywords] at this
  · exact ⟨by simp, rfl⟩

theorem opened_addLine {stack next : List Node} {l : Line} (h : Opened stack)
    (step : addLine stack l = .ok next) : Opened next := by
  unfold addLine at step
  split at step
  · cases step
  · have hclosed := opened_closeBlocks (stack.length - (l.depth + 1)) h
    split at step
    · next parent outer hstack =>
        rw [hstack] at hclosed
        obtain ⟨hkind, hchildren⟩ := kind_nodeOf l
        cases step
        have none_below : Tidy none (nodeOf l).children := hchildren ▸ .nil
        split
        · next hopens => exact .block hkind hopens none_below hclosed
        · exact opened_push hkind (fun _ => hchildren) (fun _ => hchildren) none_below hclosed
    · next hstack =>
        rw [hstack] at hclosed
        cases hclosed

theorem opened_foldlM {lines : List Line} {stack next : List Node} (h : Opened stack)
    (run : lines.foldlM addLine stack = .ok next) : Opened next := by
  induction lines generalizing stack with
  | nil =>
      cases run
      exact h
  | cons l rest ih =>
      rw [List.foldlM_cons] at run
      cases hstep : addLine stack l with
      | error e => rw [hstep] at run; cases run
      | ok mid =>
          rw [hstep] at run
          exact ih (opened_addLine h hstep) run

theorem closeBlocks_length (stack : List Node) (n : Nat) (h : stack.length ≤ n + 1) :
    (closeBlocks n stack).length ≤ 1 := by
  fun_induction closeBlocks n stack with
  | case1 n child parent outer ih => exact ih (by simp at h ⊢; omega)
  | case2 n stack hne =>
      match n, stack, hne, h with
      | _, [], _, _ => exact Nat.zero_le 1
      | _, [_], _, _ => exact Nat.le_refl 1
      | n + 1, child :: parent :: outer, hne, _ => exact absurd rfl (hne n child parent outer rfl)

/-- Whatever the lines are, a tree built from them is the tidy block of a program. -/
theorem tidy_of_build {lines : List Line} {program : Node} (h : build lines = .ok program) :
    ∃ statements, program = ⟨.program, 0, "", statements⟩ ∧ Tidy none statements := by
  obtain ⟨stack, hstack, hroot⟩ := exists_of_bind_eq_ok h
  have hopened := opened_closeBlocks stack.length (opened_foldlM (.program .nil) hstack)
  have hlength := closeBlocks_length stack stack.length (Nat.le_succ _)
  generalize closeBlocks stack.length stack = closed at hroot hopened hlength
  cases hopened with
  | program htidy =>
      cases hroot
      exact ⟨_, rfl, htidy⟩
  | block => simp at hlength

end Flowchart.Tree
