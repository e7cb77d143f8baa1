import Flowchart.Proofs.Chart.Arranged
import Flowchart.Proofs.Outcome
/-! Finished layouts as derivations. Every layout that ends without a fault is one, so a fact about
layouts is an induction on it with one case for each way in which a statement is drawn. -/
namespace Flowchart
variable {α : Type} [Scalar α]

/-- A piece of a program with the strand, or the fan of branches, before and after it. -/
inductive Stage (α : Type) where
  | statement (s : Statement) (before after : Strand α)
  | block (b : Block) (before after : Strand α)
  | branches (plan : FanPlan α) (index : Nat) (bs : Branches) (before after : Fan α)

/-- The pieces that are laid out as stated. A decision is drawn in one of four ways: with two jumps,
with one jump and the other block below it, or with a block below and one beside it. -/
inductive Context.Run (x : Context α) : Stage α → Prop
  | text {content c} : Run x (.statement (.text content) c (x.arrangeText content c))
  | pass {c} : Run x (.statement .pass c { c with reach := c.reach + x.config.stepY })
  | jump {j c c'} : x.arrangeJump j c = .ok c' → Run x (.statement (.jump j) c c')
  | twoJumps {test yes no c j d k e box opened} :
      c.soleJump yes = .ok (some (j, d)) → c.soleJump no = .ok (some (k, e)) → d ≠ e →
      x.openDecision test (.jump j d, .jump k e) c = .ok (box, opened) →
      Run x (.statement (.decision test yes no) c { opened with alive := false })
  | yesBelow {test yes no c k e box opened arm} :
      c.soleJump yes = .ok none → c.soleJump no = .ok (some (k, e)) →
      x.openDecision test (.south, .jump k e) c = .ok (box, opened) →
      Run x (.block yes (opened.armFrom box.bottom) arm) →
      Run x (.statement (.decision test yes no) c (closeBelow arm opened))
  | noBelow {test yes no c j d second box opened arm} :
      c.soleJump yes = .ok (some (j, d)) → c.soleJump no = .ok second →
      (∀ k e, second = some (k, e) → d = e) →
      x.openDecision test (.jump j d, .south) c = .ok (box, opened) →
      Run x (.block no (opened.armFrom box.bottom) arm) →
      Run x (.statement (.decision test yes no) c (closeBelow arm opened))
  | twoArms {test yes no c box opened south east} :
      c.soleJump yes = .ok none → c.soleJump no = .ok none →
      x.openDecision test (.south, .east) c = .ok (box, opened) →
      Run x (.block yes (opened.armFrom box.bottom) south) →
      Run x (.block no ((opened.share south).armFrom box.middle) east) →
      Run x (.statement (.decision test yes no) c
        (x.closeBeside box south east (closeBelow south opened)))
  | whileLoop {test body c inner back gathered} :
      Run x (.block body (x.openWhile test (x.enter c).2).2 inner) →
      x.gatherBack inner = .ok (back, gathered) →
      Run x (.statement (.whileLoop test body) c
        (x.closeWhile (x.enter c).1 (x.openWhile test (x.enter c).2).1 back gathered (x.enter c).2))
  | doLoop {body test c inner} :
      Run x (.block body ((x.enter c).2.loopBody .doWhile) inner) →
      Run x (.statement (.doLoop body test) c (x.closeDo test (x.enter c).1 inner (x.enter c).2))
  | switch {subject cases c box tap holder fan} :
      x.openSwitch subject c = (box, tap, holder) →
      Run x (.branches ⟨tap, some 0, true⟩ 0 cases (.start holder (box.width / 2.0)) fan) →
      Run x (.statement (.switch subject cases) c (x.closeSwitch tap fan c))
  | tryBlock {body handlers c top holder inner framed drawn tap opened fan} :
      x.openTry c = (top, holder, inner) →
      Run x (.block body inner framed) →
      x.closeFrame top framed holder = drawn →
      drawn.holder.takeLine drawn.holder.reach = (tap, opened) →
      Run x (.branches ⟨tap, none, false⟩ 0 handlers (.start opened drawn.right) fan) →
      Run x (.statement (.tryBlock body handlers) c (closeTry tap drawn fan c))
  | done {c} : Run x (.block [] c c)
  | dead {b c} : c.alive = false → Run x (.block b c c)
  | next {s rest c mid c'} : c.alive = true → Run x (.statement s c mid) →
      Run x (.block rest mid c') → Run x (.block (s :: rest) c c')
  | noBranch {plan index f} : Run x (.branches plan index [] f f)
  | branch {plan index label block rest f arm f'} :
      Run x (.block block (x.openBranch plan label f) arm) →
      Run x (.branches plan (index + 1) rest (x.closeBranch plan index arm f) f') →
      Run x (.branches plan index ((label, block) :: rest) f f')

namespace Context

theorem chosen_cases {yes no : Option (Jump × Direction)} {exits : Exit × Exit}
    (h : Exit.chosen yes no = .ok exits) :
    (∃ j d k e, yes = some (j, d) ∧ no = some (k, e) ∧ d ≠ e ∧ exits = (.jump j d, .jump k e)) ∨
    (∃ k e, yes = none ∧ no = some (k, e) ∧ exits = (.south, .jump k e)) ∨
    (∃ j d, yes = some (j, d) ∧ (∀ k e, no = some (k, e) → d = e) ∧ exits = (.jump j d, .south)) ∨
    (yes = none ∧ no = none ∧ exits = (.south, .east)) := by
  unfold Exit.chosen at h
  dsimp only at h
  split at h
  · cases h
  · cases h
    cases yes with
    | none =>
        cases no with
        | none => exact .inr (.inr (.inr ⟨rfl, rfl, rfl⟩))
        | some n => exact .inr (.inl ⟨n.1, n.2, rfl, rfl, rfl⟩)
    | some y =>
        obtain ⟨j, d⟩ := y
        cases no with
        | none => exact .inr (.inr (.inl ⟨j, d, rfl, (fun _ _ h => by cases h), rfl⟩))
        | some n =>
            obtain ⟨k, e⟩ := n
            by_cases hde : d = e
            · refine .inr (.inr (.inl ⟨j, d, rfl, ?_, ?_⟩))
              · rintro k' e' ⟨⟩
                exact hde
              · simp [Exit.choose, hde]
            · exact .inl ⟨j, d, k, e, rfl, rfl, hde, by simp [Exit.choose, hde]⟩

variable {x : Context α}

theorem openTry_parts {c : Strand α} {top : α} {holder inner : Strand α}
    (h : x.openTry c = (top, holder, inner)) :
    (x.openTry c).1 = top ∧ (x.openTry c).2.1 = holder ∧ (x.openTry c).2.2 = inner := by
  rw [h]
  exact ⟨rfl, rfl, rfl⟩

mutual

theorem run_of_arrange {s : Statement} {c c' : Strand α} (h : x.arrange s c = .ok c') :
    x.Run (.statement s c c') := by
  cases s with
  | text content => 
      cases h
      exact .text
  | pass => 
      cases h
      exact .pass
  | jump j => exact .jump h
  | flaw fault => cases h
  | decision test yes no =>
      unfold arrange arrangeTest at h
      obtain ⟨yesJump, hyes, h⟩ := exists_of_bind_eq_ok h
      obtain ⟨noJump, hno, h⟩ := exists_of_bind_eq_ok h
      obtain ⟨exits, hexits, h⟩ := exists_of_bind_eq_ok h
      obtain ⟨⟨box, opened⟩, hopen, h⟩ := exists_of_bind_eq_ok h
      dsimp only at h
      rcases chosen_cases hexits with ⟨j, d, k, e, rfl, rfl, hde, rfl⟩ | ⟨k, e, rfl, rfl, rfl⟩ |
        ⟨j, d, rfl, hsame, rfl⟩ | ⟨rfl, rfl, rfl⟩
      · cases h
        exact .twoJumps hyes hno hde hopen
      · obtain ⟨arm, harm, h⟩ := exists_of_bind_eq_ok h
        cases h
        exact .yesBelow hyes hno hopen (run_of_arrangeAll harm)
      · obtain ⟨arm, harm, h⟩ := exists_of_bind_eq_ok h
        cases h
        exact .noBelow hyes hno hsame hopen (run_of_arrangeAll harm)
      · obtain ⟨south, hsouth, h⟩ := exists_of_bind_eq_ok h
        obtain ⟨east, heast, h⟩ := exists_of_bind_eq_ok h
        cases h
        exact .twoArms hyes hno hopen (run_of_arrangeAll hsouth) (run_of_arrangeAll heast)
  | whileLoop test body =>
      unfold arrange arrangeWhile at h
      obtain ⟨inner, hbody, h⟩ := exists_of_bind_eq_ok h
      obtain ⟨⟨back, gathered⟩, hback, h⟩ := exists_of_bind_eq_ok h
      cases h
      exact .whileLoop (run_of_arrangeAll hbody) hback
  | doLoop body test =>
      unfold arrange arrangeDo at h
      obtain ⟨inner, hbody, h⟩ := exists_of_bind_eq_ok h
      cases h
      exact .doLoop (run_of_arrangeAll hbody)
  | switch subject cases =>
      unfold arrange arrangeSwitch at h
      obtain ⟨fan, hcases, h⟩ := exists_of_bind_eq_ok h
      cases h
      exact .switch rfl (run_of_arrangeBranches hcases)
  | tryBlock body handlers =>
      unfold arrange arrangeTry at h
      obtain ⟨inner, hbody, h⟩ := exists_of_bind_eq_ok h
      obtain ⟨fan, hhandlers, h⟩ := exists_of_bind_eq_ok h
      cases h
      exact .tryBlock rfl (run_of_arrangeAll hbody) rfl rfl (run_of_arrangeBranches hhandlers)

theorem run_of_arrangeAll {b : Block} {c c' : Strand α} (h : x.arrangeAll b c = .ok c') :
    x.Run (.block b c c') := by
  cases b with
  | nil =>
      cases h
      exact .done
  | cons s rest =>
      unfold arrangeAll at h
      split at h
      · next alive =>
          obtain ⟨mid, hs, h⟩ := exists_of_bind_eq_ok h
          exact .next alive (run_of_arrange hs) (run_of_arrangeAll h)
      · next dead =>
          cases h
          exact .dead (eq_false_of_ne_true dead)

theorem run_of_arrangeBranches {plan : FanPlan α} {index : Nat} {bs : Branches} {f f' : Fan α}
    (h : x.arrangeBranches index bs plan f = .ok f') : x.Run (.branches plan index bs f f') := by
  cases bs with
  | nil =>
      cases h
      exact .noBranch
  | cons branch rest =>
      obtain ⟨label, block⟩ := branch
      unfold arrangeBranches at h
      obtain ⟨arm, hblock, h⟩ := exists_of_bind_eq_ok h
      exact .branch (run_of_arrangeAll hblock) (run_of_arrangeBranches h)

end

end Context
end Flowchart
