import Flowchart.Pseudocode.Rules
import Flowchart.Proofs.Outcome
/-! The trail of a visit. What passes leaves the trail as it was, so that the verdict on a tree is a
recursion on the tree with the ancestors as an argument. -/
namespace Flowchart.Rules

theorem run_visit (trail : List NodeKind) (kind : NodeKind) (line : Nat) (content : String)
    (children : List Node) :
    (visit ⟨kind, line, content, children⟩).run trail = (do
      checkBlock ⟨kind, line, content, children⟩
      checkScope trail ⟨kind, line, content, children⟩
      checkPlaces kind none children
      let (_, after) ← (visitAll children).run (kind :: trail)
      .ok ((), after.tail)) := by
  simp only [visit, StateT.run_bind, StateT.run_monadLift, monadLift_self, bind_pure_comp,
    StateT.run_get, StateT.run_modify, pure_bind, bind_map_left]
  rfl

theorem run_visitAll_cons (trail : List NodeKind) (node : Node) (rest : List Node) :
    (visitAll (node :: rest)).run trail = (do
      let (_, after) ← (visit node).run trail
      (visitAll rest).run after) := by
  simp only [visitAll, StateT.run_bind]

mutual

theorem visit_trail {trail after : List NodeKind} : (node : Node) →
    (visit node).run trail = .ok ((), after) → after = trail
  | ⟨kind, line, content, children⟩, h => by
    rw [run_visit] at h
    obtain ⟨_, -, h⟩ := exists_of_bind_eq_ok h
    obtain ⟨_, -, h⟩ := exists_of_bind_eq_ok h
    obtain ⟨_, -, h⟩ := exists_of_bind_eq_ok h
    obtain ⟨⟨_, inside⟩, below, left⟩ := exists_of_bind_eq_ok h
    have kept := visitAll_trail children below
    cases left
    rw [kept, List.tail_cons]

theorem visitAll_trail {trail after : List NodeKind} : (nodes : List Node) →
    (visitAll nodes).run trail = .ok ((), after) → after = trail
  | [], h => by
    cases h
    rfl
  | node :: rest, h => by
    rw [run_visitAll_cons] at h
    obtain ⟨⟨_, between⟩, first, later⟩ := exists_of_bind_eq_ok h
    exact (visitAll_trail rest later).trans (visit_trail node first)

end

/-- A visit ends with the verdict, and a visit that passes with the trail that it began with. -/
theorem run_visit_eq (trail : List NodeKind) (node : Node) :
    (visit node).run trail = (check trail node).map fun _ => ((), trail) := by
  unfold check
  rw [StateT.run'_eq]
  cases h : (visit node).run trail with
  | error fault => rfl
  | ok passed =>
      obtain ⟨_, after⟩ := passed
      rw [visit_trail node h]
      rfl

theorem check_eq (ancestors : List NodeKind) (kind : NodeKind) (line : Nat) (content : String)
    (children : List Node) :
    check ancestors ⟨kind, line, content, children⟩ = (do
      checkBlock ⟨kind, line, content, children⟩
      checkScope ancestors ⟨kind, line, content, children⟩
      checkPlaces kind none children
      checkAll (kind :: ancestors) children) := by
  unfold check checkAll
  rw [StateT.run'_eq, StateT.run'_eq, run_visit]
  simp only [map_bind]
  rfl

theorem checkAll_eq (ancestors : List NodeKind) (node : Node) (rest : List Node) :
    checkAll ancestors (node :: rest) = (do
      check ancestors node
      checkAll ancestors rest) := by
  unfold checkAll
  rw [StateT.run'_eq, StateT.run'_eq, run_visitAll_cons, run_visit_eq]
  cases check ancestors node <;> rfl

end Flowchart.Rules
