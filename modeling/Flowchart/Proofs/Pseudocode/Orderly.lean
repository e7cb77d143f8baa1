import Flowchart.Proofs.Pseudocode.Shape
import Flowchart.Proofs.Pseudocode.Trail
/-! What the rules say of a node, and that a visit decides it. A tree passes exactly if every node in
it is orderly; otherwise the error names a rule and is at the line of a node that breaks it. -/
namespace Flowchart
namespace Rules

/-- What a child of a kind needs above it and right before and after it. -/
def Placed (parent : NodeKind) (before after : Option NodeKind) : NodeKind → Prop
  | .doLoop => after = some .whileLoop
  | .tryBlock => after = some .except
  | .except => before = some .tryBlock ∨ before = some .except
  | .elifTest | .elseBlock => before = some .ifTest ∨ before = some .elifTest
  | .case => parent = .switch
  | _ => True

/-- The rules for a node with its block, below some ancestors. -/
structure Orderly (above : List NodeKind) (node : Node) : Prop where
  implemented : node.kind ≠ .forLoop
  cases : node.kind = .switch → node.children ≠ [] ∧ ∀ child ∈ node.children, child.kind = .case
  single : node.kind ∈ [.breakJump, .continueJump, .pass] → node.children = []
  leaves : node.kind = .breakJump → ∃ k ∈ above, k ∈ [.whileLoop, .doLoop, .forLoop, .switch]
  resumes : node.kind = .continueJump → ∃ k ∈ above, k ∈ [.whileLoop, .doLoop, .forLoop]
  placed : ∀ before child after, node.children = before ++ child :: after →
    Placed node.kind (before.getLast?.map Node.kind) (after.head?.map Node.kind) child.kind

/-- The fault that says that a child of a kind is not placed as it needs. -/
def placeFault? : NodeKind → Option ParseFault
  | .doLoop => some .doWithoutWhile
  | .tryBlock => some .tryWithoutExcept
  | .except => some .exceptWithoutTry
  | .elifTest => some .danglingElif
  | .elseBlock => some .danglingElse
  | .case => some .caseOutsideSwitch
  | _ => none

/-- An error that is right about a node: the rule that it names is broken, at the line it names. -/
inductive Breach (above : List NodeKind) (node : Node) : ParseError → Prop
  | forLoop : node.kind = .forLoop → Breach above node ⟨node.line, .forLoop⟩
  | emptySwitch : node.kind = .switch → node.children = [] →
      Breach above node ⟨node.line, .emptySwitch⟩
  | stray {before stray after} : node.kind = .switch → node.children = before ++ stray :: after →
      (∀ child ∈ before, child.kind = .case) → stray.kind ≠ .case →
      Breach above node ⟨stray.line, .strayInSwitch⟩
  | block {child rest} : node.kind ∈ [.breakJump, .continueJump, .pass] →
      node.children = child :: rest → Breach above node ⟨child.line, .unexpectedIndent⟩
  | breakOutside : node.kind = .breakJump →
      (∀ k ∈ above, k ∉ [.whileLoop, .doLoop, .forLoop, .switch]) →
      Breach above node ⟨node.line, .breakOutside⟩
  | continueOutside : node.kind = .continueJump →
      (∀ k ∈ above, k ∉ [.whileLoop, .doLoop, .forLoop]) →
      Breach above node ⟨node.line, .continueOutside⟩
  | misplaced {before child after fault} : node.children = before ++ child :: after →
      ¬ Placed node.kind (before.getLast?.map Node.kind) (after.head?.map Node.kind) child.kind →
      placeFault? child.kind = some fault → Breach above node ⟨child.line, fault⟩

/-- A node stands in a tree. With the ancestors of the tree its own are known, the nearest first. -/
inductive Stands : List NodeKind → Node → List NodeKind → Node → Prop
  | top {ancestors node} : Stands ancestors node ancestors node
  | inside {ancestors root child above node} : child ∈ root.children →
      Stands (root.kind :: ancestors) child above node → Stands ancestors root above node

theorem forall_stands {ancestors : List NodeKind} {root : Node}
    {holds : List NodeKind → Node → Prop} :
    (∀ above node, Stands ancestors root above node → holds above node) ↔
      holds ancestors root ∧ ∀ child ∈ root.children, ∀ above node,
        Stands (root.kind :: ancestors) child above node → holds above node := by
  constructor
  · intro h
    exact ⟨h _ _ .top, fun child mem above node stands => h above node (.inside mem stands)⟩
  · rintro ⟨here, below⟩ above node stands
    cases stands with
    | top => exact here
    | inside mem stands => exact below _ mem above node stands

/-- A verdict is good exactly if a rule is kept, and otherwise the error is right. -/
structure Judges (verdict : Except ParseError Unit) (kept : Prop) (right : ParseError → Prop) :
    Prop where
  passes : verdict = .ok () ↔ kept
  reports : ∀ e, verdict = .error e → right e

namespace Judges
variable {verdict later : Except ParseError Unit} {kept kept' : Prop}
  {right right' : ParseError → Prop}

theorem ok (h : kept) : Judges (.ok ()) kept right where
  passes := by simp [h]
  reports := by simp

theorem error {e : ParseError} (h : ¬ kept) (he : right e) : Judges (.error e) kept right where
  passes := by simp [h]
  reports := by
    intro e' same
    cases same
    exact he

theorem ite {p : Prop} [Decidable p] {e : ParseError} (he : ¬ p → right e) :
    Judges (if p then .ok () else .error e) p right := by
  split
  · next h => exact .ok h
  · next h => exact .error h (he h)

theorem bind (first : Judges verdict kept right) (second : Judges later kept' right') :
    Judges (verdict >>= fun _ => later) (kept ∧ kept') fun e => right e ∨ right' e := by
  cases verdict with
  | error e => exact .error (fun h => nomatch first.passes.mpr h.1) (.inl (first.reports e rfl))
  | ok u =>
      have here := first.passes.mp rfl
      constructor
      · exact second.passes.trans (by simp [here])
      · exact fun e he => .inr (second.reports e he)

theorem congr (h : Judges verdict kept right) (same : kept ↔ kept')
    (weaker : ∀ e, right e → right' e) : Judges verdict kept' right' where
  passes := h.passes.trans same
  reports := fun e he => weaker e (h.reports e he)

end Judges

theorem isLoop_iff (k : NodeKind) : k.isLoop = true ↔ k ∈ [.whileLoop, .doLoop, .forLoop] := by
  cases k <;> decide

theorem checkBlock_judges (above : List NodeKind) (node : Node) :
    Judges (checkBlock node)
      (node.kind ≠ .forLoop ∧
        (node.kind = .switch → node.children ≠ [] ∧ ∀ child ∈ node.children, child.kind = .case) ∧
        (node.kind ∈ [.breakJump, .continueJump, .pass] → node.children = []))
      (Breach above node) := by
  obtain ⟨kind, line, content, children⟩ := node
  cases kind with
  | forLoop => exact .error (by simp) (.forLoop rfl)
  | breakJump | continueJump | pass =>
      cases children with
      | nil => exact .ok (by simp)
      | cons child rest => exact .error (by simp) (.block (by simp) rfl)
  | switch =>
      cases children with
      | nil => exact .error (by simp) (.emptySwitch rfl rfl)
      | cons child rest =>
          cases found : (child :: rest).find? (·.kind != .case) with
          | some stray =>
              obtain ⟨other, before, after, parts, earlier⟩ := List.find?_eq_some_iff_append.mp found
              have verdict : checkBlock ⟨.switch, line, content, child :: rest⟩ =
                  .error ⟨stray.line, .strayInSwitch⟩ := by simp [checkBlock, found]
              rw [verdict]
              have stray_mem : stray ∈ child :: rest := List.mem_of_find?_eq_some found
              have ne_case : stray.kind ≠ .case := by simpa using other
              refine .error ?_ (.stray rfl parts ?_ ne_case)
              · rintro ⟨-, all, -⟩
                exact ne_case ((all rfl).2 stray stray_mem)
              · intro first mem
                simpa using earlier first mem
          | none =>
              have verdict : checkBlock ⟨.switch, line, content, child :: rest⟩ = .ok () := by
                simp [checkBlock, found]
              rw [verdict]
              have all : ∀ node ∈ child :: rest, node.kind = .case := by
                intro node mem
                simpa using List.find?_eq_none.mp found node mem
              exact .ok ⟨nofun, fun _ => ⟨nofun, all⟩, by simp⟩
  | _ => exact .ok (by simp)

theorem checkScope_judges (above : List NodeKind) (node : Node) :
    Judges (checkScope above node)
      ((node.kind = .breakJump → ∃ k ∈ above, k ∈ [.whileLoop, .doLoop, .forLoop, .switch]) ∧
        (node.kind = .continueJump → ∃ k ∈ above, k ∈ [.whileLoop, .doLoop, .forLoop]))
      (Breach above node) := by
  obtain ⟨kind, line, content, children⟩ := node
  cases kind with
  | breakJump =>
      have scope : (above.any fun k => k.isLoop || k == .switch) = true ↔
          ∃ k ∈ above, k ∈ [.whileLoop, .doLoop, .forLoop, .switch] := by
        simp [isLoop_iff, or_assoc]
      refine (Judges.ite ?_).congr (scope.trans (by simp)) fun _ right => right
      intro none
      rw [scope] at none
      exact .breakOutside rfl (by simpa using none)
  | continueJump =>
      have scope : above.any NodeKind.isLoop = true ↔
          ∃ k ∈ above, k ∈ [.whileLoop, .doLoop, .forLoop] := by
        simp [isLoop_iff]
      refine (Judges.ite ?_).congr (scope.trans (by simp)) fun _ right => right
      intro none
      rw [scope] at none
      exact .continueOutside rfl (by simpa using none)
  | _ => exact .ok (by simp)

theorem checkPlace_judges (parent : NodeKind) (previous next : Option NodeKind) (child : Node) :
    Judges (checkPlace parent previous next child) (Placed parent previous next child.kind)
      fun e => ¬ Placed parent previous next child.kind ∧
        placeFault? child.kind = some e.fault ∧ e.line = child.line := by
  obtain ⟨kind, line, content, children⟩ := child
  cases kind with
  | doLoop | tryBlock | except | case => exact .ite fun unmet => ⟨unmet, rfl, rfl⟩
  | elifTest | elseBlock =>
      have test : followsTest previous = true ↔
          previous = some .ifTest ∨ previous = some .elifTest := by
        simp [followsTest]
      refine (Judges.ite fun unmet => ?_).congr test fun _ right => right
      exact ⟨fun met => unmet (test.mpr met), rfl, rfl⟩
  | _ => exact .ok trivial

theorem forall_parts {α : Type} {first : α} {rest : List α}
    {holds : List α → α → List α → Prop} :
    (∀ before here after, first :: rest = before ++ here :: after → holds before here after) ↔
      holds [] first rest ∧
        ∀ before here after, rest = before ++ here :: after → holds (first :: before) here after := by
  constructor
  · intro h
    exact ⟨h [] first rest rfl, fun before here after parts => h _ _ _ (by simp [parts])⟩
  · rintro ⟨atFirst, later⟩ before here after parts
    cases before with
    | nil =>
        cases parts
        exact atFirst
    | cons b before =>
        cases parts
        exact later before here after rfl

theorem checkPlaces_judges (parent : NodeKind) (previous : Option NodeKind) (nodes : List Node) :
    Judges (checkPlaces parent previous nodes)
      (∀ before child after, nodes = before ++ child :: after →
        Placed parent (Tree.lastKind previous before) (after.head?.map Node.kind) child.kind)
      fun e => ∃ before child after, nodes = before ++ child :: after ∧
        ¬ Placed parent (Tree.lastKind previous before) (after.head?.map Node.kind) child.kind ∧
        placeFault? child.kind = some e.fault ∧ e.line = child.line := by
  induction nodes generalizing previous with
  | nil => exact .ok (by simp)
  | cons child rest ih =>
      have both := (checkPlace_judges parent previous (rest.head?.map Node.kind) child).bind
        (ih (some child.kind))
      refine both.congr ?_ ?_
      · rw [forall_parts]
        simp only [Tree.lastKind_cons]
        rfl
      · rintro e (⟨unmet, right⟩ | ⟨before, node, after, rfl, unmet, right⟩)
        · exact ⟨[], child, rest, rfl, unmet, right⟩
        · rw [← Tree.lastKind_cons previous] at unmet
          exact ⟨child :: before, node, after, rfl, unmet, right⟩

theorem lastKind_none (nodes : List Node) :
    Tree.lastKind none nodes = nodes.getLast?.map Node.kind := by
  simp [Tree.lastKind]

/-- The rules of a node are those of its three checks. -/
theorem orderly_iff (above : List NodeKind) (node : Node) :
    Orderly above node ↔
      (node.kind ≠ .forLoop ∧
        (node.kind = .switch → node.children ≠ [] ∧ ∀ child ∈ node.children, child.kind = .case) ∧
        (node.kind ∈ [.breakJump, .continueJump, .pass] → node.children = [])) ∧
      ((node.kind = .breakJump → ∃ k ∈ above, k ∈ [.whileLoop, .doLoop, .forLoop, .switch]) ∧
        (node.kind = .continueJump → ∃ k ∈ above, k ∈ [.whileLoop, .doLoop, .forLoop])) ∧
      ∀ before child after, node.children = before ++ child :: after →
        Placed node.kind (Tree.lastKind none before) (after.head?.map Node.kind) child.kind := by
  simp only [lastKind_none]
  constructor
  · intro h
    exact ⟨⟨h.implemented, h.cases, h.single⟩, ⟨h.leaves, h.resumes⟩, h.placed⟩
  · rintro ⟨⟨implemented, cases, single⟩, ⟨leaves, resumes⟩, placed⟩
    exact ⟨implemented, cases, single, leaves, resumes, placed⟩

mutual

theorem check_judges (ancestors : List NodeKind) : (root : Node) →
    Judges (check ancestors root) (∀ above node, Stands ancestors root above node → Orderly above node)
      fun e => ∃ above node, Stands ancestors root above node ∧ Breach above node e
  | ⟨kind, line, content, children⟩ => by
    rw [check_eq]
    have own := (checkBlock_judges ancestors ⟨kind, line, content, children⟩).bind
      ((checkScope_judges ancestors ⟨kind, line, content, children⟩).bind
        ((checkPlaces_judges kind none children).bind
          (checkAll_judges (kind :: ancestors) children)))
    refine own.congr ?_ ?_
    · rw [forall_stands, orderly_iff]
      simp only [and_assoc]
    · rintro e (right | right | ⟨before, child, after, parts, unmet, fault_eq, at_line⟩ |
        ⟨child, mem, above, node, stands, right⟩)
      · exact ⟨_, _, .top, right⟩
      · exact ⟨_, _, .top, right⟩
      · obtain ⟨at_e, fault⟩ := e
        cases at_line
        rw [lastKind_none] at unmet
        exact ⟨_, _, .top, .misplaced parts unmet fault_eq⟩
      · exact ⟨above, node, .inside mem stands, right⟩

theorem checkAll_judges (ancestors : List NodeKind) : (nodes : List Node) →
    Judges (checkAll ancestors nodes)
      (∀ root ∈ nodes, ∀ above node, Stands ancestors root above node → Orderly above node)
      fun e => ∃ root ∈ nodes, ∃ above node, Stands ancestors root above node ∧ Breach above node e
  | [] => .ok (by simp)
  | root :: rest => by
    rw [checkAll_eq]
    refine ((check_judges ancestors root).bind (checkAll_judges ancestors rest)).congr ?_ ?_
    · rw [List.forall_mem_cons]
    · rintro e (right | ⟨root, mem, right⟩)
      · exact ⟨root, List.mem_cons_self, right⟩
      · exact ⟨root, List.mem_cons_of_mem _ mem, right⟩

end

end Rules

/-- A visit decides the rules and keeps its trail. It passes exactly if every node that stands in the
tree is orderly, and then the trail is what it was; an error is right about a node in the tree. -/
theorem visit_judges_tree (ancestors : List NodeKind) (root : Node) :
    (∀ after, (Rules.visit root).run ancestors = .ok ((), after) ↔
      after = ancestors ∧
        ∀ above node, Rules.Stands ancestors root above node → Rules.Orderly above node) ∧
    ∀ e, (Rules.visit root).run ancestors = .error e →
      ∃ above node, Rules.Stands ancestors root above node ∧ Rules.Breach above node e := by
  have judged := Rules.check_judges ancestors root
  rw [Rules.run_visit_eq]
  constructor
  · intro after
    rw [← judged.passes]
    cases Rules.check ancestors root with
    | error e => simp [Except.map]
    | ok u => simp [Except.map, eq_comm]
  · intro e failed
    apply judged.reports
    cases verdict : Rules.check ancestors root with
    | error fault =>
        rw [verdict] at failed
        cases failed
        rfl
    | ok u =>
        rw [verdict] at failed
        cases failed

namespace Sample

def jumpTree : Node := ⟨.switch, 1, "key", [⟨.case, 2, "x", [⟨.continueJump, 3, "", []⟩]⟩]⟩

end Sample

/-- Below a loop the tree passes; below nothing the jump has no loop to go on with. -/
theorem visit_judges_jumpTree :
    (Rules.visit Sample.jumpTree).run [.whileLoop] = .ok ((), [.whileLoop]) ∧
    (∀ above node, Rules.Stands [.whileLoop] Sample.jumpTree above node →
      Rules.Orderly above node) ∧
    (Rules.visit Sample.jumpTree).run [] = .error ⟨3, .continueOutside⟩ ∧
    ∃ above node, Rules.Stands [] Sample.jumpTree above node ∧
      Rules.Breach above node ⟨3, .continueOutside⟩ := by
  have passed : (Rules.visit Sample.jumpTree).run [.whileLoop] = .ok ((), [.whileLoop]) := rfl
  have failed : (Rules.visit Sample.jumpTree).run [] = .error ⟨3, .continueOutside⟩ := rfl
  refine ⟨passed, ?_, failed, ?_⟩
  · exact (((visit_judges_tree [.whileLoop] Sample.jumpTree).1 [.whileLoop]).mp passed).2
  · exact (visit_judges_tree [] Sample.jumpTree).2 _ failed

end Flowchart
