import Flowchart.Proofs.Pseudocode.Levels
import Flowchart.Proofs.Pseudocode.Outline
/-! Line numbers are only carried along. Lines under other numbers are nested, built and checked as they
were; the numbers come out in the tree or in the error, and nothing else changes. -/
namespace Flowchart

namespace LogicalLine

def relocate (f : Nat → Nat) (l : LogicalLine) : LogicalLine := { l with number := f l.number }

end LogicalLine

namespace Line

def relocate (f : Nat → Nat) (l : Line) : Line := { l with number := f l.number }

end Line

namespace Node

mutual

def relocate (f : Nat → Nat) : Node → Node
  | ⟨kind, line, content, children⟩ => ⟨kind, f line, content, relocateAll f children⟩

def relocateAll (f : Nat → Nat) : List Node → List Node
  | [] => []
  | node :: rest => relocate f node :: relocateAll f rest

end

variable (f : Nat → Nat)

theorem relocateAll_eq (nodes : List Node) : relocateAll f nodes = nodes.map (relocate f) := by
  induction nodes with
  | nil => rfl
  | cons node rest ih => rw [relocateAll, ih, List.map_cons]

@[simp] theorem kind_relocate (node : Node) : (node.relocate f).kind = node.kind := by
  cases node
  rfl

@[simp] theorem line_relocate (node : Node) : (node.relocate f).line = f node.line := by
  cases node
  rfl

@[simp] theorem children_relocate (node : Node) :
    (node.relocate f).children = node.children.map (relocate f) := by
  cases node
  exact relocateAll_eq f _

theorem relocate_push (parent child : Node) :
    (parent.push child).relocate f = (parent.relocate f).push (child.relocate f) := by
  cases parent
  simp [push, relocate, relocateAll_eq]

end Node

/-- An outcome with other line numbers: another one in the error, and others in the result. -/
def relocated {α : Type} (f : Nat → Nat) (result : α → α) : Except ParseError α → Except ParseError α
  | .error e => .error { e with line := f e.line }
  | .ok a => .ok (result a)

section Carry
variable {α β : Type} {f : Nat → Nat}

theorem relocated_bind {first : α → α} {second : β → β} {step : Except ParseError α}
    {next next' : α → Except ParseError β}
    (carried : ∀ a, next' (first a) = relocated f second (next a)) :
    relocated f first step >>= next' = relocated f second (step >>= next) := by
  cases step with
  | error e => rfl
  | ok a => exact carried a

theorem relocated_ite {result : α → α} {p : Prop} [Decidable p] {a : α} {line : Nat}
    {fault : ParseFault} :
    relocated f result (if p then .ok a else .error ⟨line, fault⟩) =
      if p then .ok (result a) else .error ⟨f line, fault⟩ := by
  split <;> rfl

end Carry

variable (f : Nat → Nat)

namespace Lexis
variable {x : Lexis}

theorem filter_relocate (lines : List LogicalLine) :
    (lines.map (LogicalLine.relocate f)).filter x.isKept =
      (lines.filter x.isKept).map (LogicalLine.relocate f) :=
  List.filter_map

/-- Physical lines that are counted from further on gather to the same lines, each further on. -/
theorem Gathers.relocate {f : Nat → Nat} {number distance : Nat} {physical : List (List Char)}
    {lines : List LogicalLine} {unfinished : Option Nat}
    (h : x.Gathers number physical lines unfinished) (moves : ∀ m, number ≤ m → f m = m + distance) :
    x.Gathers (f number) physical (lines.map (LogicalLine.relocate f)) (unfinished.map f) := by
  induction h with
  | done => exact .done
  | @line number raw more text rest lines unfinished goesOn ended _ ih =>
      have onward := ih fun m le => moves m (by omega)
      have next : f (number + 1 + more.length) = f number + 1 + more.length := by
        rw [moves _ (by omega), moves number (Nat.le_refl _)]
        omega
      rw [next] at onward
      exact .line goesOn ended onward
  | unfinished goesOn ends => exact .unfinished goesOn ends

theorem nestLines_relocate (previous : List String) (logical : List LogicalLine) :
    x.nestLines previous (logical.map (LogicalLine.relocate f)) =
      relocated f (List.map (Line.relocate f)) (x.nestLines previous logical) := by
  induction logical generalizing previous with
  | nil => rfl
  | cons l rest ih =>
      have same : x.indentation (l.relocate f) = x.indentation l := rfl
      rw [List.map_cons]
      cases found : nest? previous (x.indentation l) with
      | none =>
          rw [nestLines_of_none _ found, nestLines_of_none _ (same ▸ found)]
          rfl
      | some nesting =>
          rw [nestLines_of_some _ found, nestLines_of_some _ (same ▸ found), ih]
          cases x.nestLines nesting rest <;> rfl

theorem dropCommonLevel_relocate (lines : List Line) :
    dropCommonLevel (lines.map (Line.relocate f)) =
      (dropCommonLevel lines).map (Line.relocate f) := by
  have heads (level : String) : (∀ l ∈ lines.map (Line.relocate f), l.nesting.head? = some level) ↔
      ∀ l ∈ lines, l.nesting.head? = some level := List.forall_mem_map
  by_cases shared : ∃ level, ∀ l ∈ lines, l.nesting.head? = some level
  · obtain ⟨level, all⟩ := shared
    rw [dropCommonLevel_of_shared all, dropCommonLevel_of_shared ((heads level).mpr all),
      List.map_map, List.map_map]
    rfl
  · rw [dropCommonLevel_of_apart shared, dropCommonLevel_of_apart]
    simpa only [heads] using shared

/-- Sources that say the same on other lines have the same program lines, under other numbers. -/
theorem lines_relocate {source other : String}
    (kept : (x.logicalLines 1 none (Text.lines other.toList)).1.filter x.isKept =
      ((x.logicalLines 1 none (Text.lines source.toList)).1.filter x.isKept).map
        (LogicalLine.relocate f))
    (unfinished : (x.logicalLines 1 none (Text.lines other.toList)).2 =
      (x.logicalLines 1 none (Text.lines source.toList)).2.map f) :
    x.lines other = relocated f (List.map (Line.relocate f)) (x.lines source) := by
  unfold Lexis.lines
  dsimp only
  rw [kept, unfinished, nestLines_relocate]
  apply relocated_bind
  intro nested
  cases (x.logicalLines 1 none (Text.lines source.toList)).2 with
  | some number => rfl
  | none => exact congrArg Except.ok (dropCommonLevel_relocate f nested)

end Lexis

namespace Tree

theorem nodeOf_relocate (l : Line) : nodeOf (l.relocate f) = (nodeOf l).relocate f := by
  rw [nodeOf_eq, nodeOf_eq]
  rfl

theorem opensBlock_relocate (node parent : Node) :
    opensBlock (node.relocate f) (parent.relocate f) = opensBlock node parent := by
  have last : (parent.relocate f).children.getLast?.map Node.kind =
      parent.children.getLast?.map Node.kind := by
    rw [Node.children_relocate, List.getLast?_map, Option.map_map]
    congr 1
    ext node
    exact Node.kind_relocate f node
  rw [opensBlock, opensBlock, closesDo, closesDo, last, Node.kind_relocate]

theorem closeBlocks_relocate (n : Nat) (stack : List Node) :
    closeBlocks n (stack.map (Node.relocate f)) = (closeBlocks n stack).map (Node.relocate f) := by
  induction n generalizing stack with
  | zero => rfl
  | succ n ih =>
      cases stack with
      | nil => rfl
      | cons child rest =>
          cases rest with
          | nil => rfl
          | cons parent outer =>
              have step := ih (parent.push child :: outer)
              rwa [List.map_cons, Node.relocate_push] at step

theorem addLine_relocate (stack : List Node) (l : Line) :
    addLine (stack.map (Node.relocate f)) (l.relocate f) =
      relocated f (List.map (Node.relocate f)) (addLine stack l) := by
  have depth : (l.relocate f).depth = l.depth := rfl
  unfold addLine
  rw [List.length_map, depth, closeBlocks_relocate, nodeOf_relocate]
  split
  · rfl
  · cases closeBlocks (stack.length - (l.depth + 1)) stack with
    | nil => rfl
    | cons parent outer =>
        simp only [List.map_cons, opensBlock_relocate]
        split
        · rfl
        · simp [addLeaf, relocated, Node.relocate_push]

theorem foldlM_relocate (stack : List Node) (lines : List Line) :
    (lines.map (Line.relocate f)).foldlM addLine (stack.map (Node.relocate f)) =
      relocated f (List.map (Node.relocate f)) (lines.foldlM addLine stack) := by
  induction lines generalizing stack with
  | nil => rfl
  | cons l rest ih =>
      rw [List.map_cons, List.foldlM_cons, List.foldlM_cons, addLine_relocate]
      exact relocated_bind ih

theorem build_relocate (root : f 0 = 0) (lines : List Line) :
    build (lines.map (Line.relocate f)) = relocated f (Node.relocate f) (build lines) := by
  have start : [Node.root] = [Node.root].map (Node.relocate f) := by
    simp [Node.root, Node.relocate, Node.relocateAll, root]
  unfold build
  conv_lhs => rw [start, foldlM_relocate]
  apply relocated_bind
  intro stack
  rw [List.length_map, closeBlocks_relocate]
  cases closeBlocks stack.length stack with
  | nil => exact congrArg Except.ok (List.singleton_inj.mp start)
  | cons program outer => rfl

end Tree

namespace Rules

theorem checkBlock_relocate (node : Node) :
    checkBlock (node.relocate f) = relocated f id (checkBlock node) := by
  obtain ⟨kind, line, content, children⟩ := node
  unfold checkBlock
  simp only [Node.kind_relocate, Node.line_relocate, Node.children_relocate, List.isEmpty_map,
    List.find?_map]
  cases kind with
  | switch =>
      have kinds : (fun node : Node => node.kind != .case) ∘ Node.relocate f =
          fun node => node.kind != .case := by
        ext node
        simp
      dsimp only
      rw [kinds]
      split
      · rfl
      · cases children.find? (·.kind != .case) with
        | none => rfl
        | some stray => simp [relocated]
  | breakJump | continueJump | pass => cases children <;> simp [relocated]
  | _ => rfl

theorem checkScope_relocate (ancestors : List NodeKind) (node : Node) :
    checkScope ancestors (node.relocate f) = relocated f id (checkScope ancestors node) := by
  unfold checkScope
  rw [Node.kind_relocate, Node.line_relocate]
  cases node.kind with
  | breakJump | continueJump =>
      dsimp only
      rw [relocated_ite, id]
  | _ => rfl

theorem checkPlace_relocate (parent : NodeKind) (previous next : Option NodeKind) (child : Node) :
    checkPlace parent previous next (child.relocate f) =
      relocated f id (checkPlace parent previous next child) := by
  unfold checkPlace
  rw [Node.kind_relocate, Node.line_relocate]
  cases child.kind with
  | doLoop | tryBlock | except | elifTest | elseBlock | case =>
      dsimp only
      rw [relocated_ite, id]
  | _ => rfl

theorem checkPlaces_relocate (parent : NodeKind) (previous : Option NodeKind) (nodes : List Node) :
    checkPlaces parent previous (nodes.map (Node.relocate f)) =
      relocated f id (checkPlaces parent previous nodes) := by
  induction nodes generalizing previous with
  | nil => rfl
  | cons child rest ih =>
      have next : (rest.map (Node.relocate f)).head?.map Node.kind = rest.head?.map Node.kind := by
        cases rest <;> simp
      rw [List.map_cons, checkPlaces, checkPlaces, next, checkPlace_relocate, Node.kind_relocate]
      exact relocated_bind fun _ => ih _

mutual

theorem check_relocate (ancestors : List NodeKind) : (node : Node) →
    check ancestors (node.relocate f) = relocated f id (check ancestors node)
  | ⟨kind, line, content, children⟩ => by
    have block := checkBlock_relocate f ⟨kind, line, content, children⟩
    have scope := checkScope_relocate f ancestors ⟨kind, line, content, children⟩
    rw [Node.relocate, Node.relocateAll_eq] at block scope ⊢
    rw [check_eq, check_eq, block, scope, checkPlaces_relocate]
    exact relocated_bind fun _ => relocated_bind fun _ => relocated_bind fun _ =>
      checkAll_relocate (kind :: ancestors) children

theorem checkAll_relocate (ancestors : List NodeKind) : (nodes : List Node) →
    checkAll ancestors (nodes.map (Node.relocate f)) = relocated f id (checkAll ancestors nodes)
  | [] => rfl
  | node :: rest => by
    rw [List.map_cons, checkAll_eq, checkAll_eq, check_relocate ancestors node]
    exact relocated_bind fun _ => checkAll_relocate ancestors rest

end

end Rules

/-- What is read from lines is read from the lines under other numbers, with these numbers in it. -/
theorem Lexis.parse_relocate (x : Lexis) (root : f 0 = 0) {source other : String}
    (read : x.lines other = relocated f (List.map (Line.relocate f)) (x.lines source)) :
    x.parse other = relocated f (Node.relocate f) (x.parse source) := by
  unfold Lexis.parse
  rw [read]
  apply relocated_bind
  intro lines
  rw [Tree.build_relocate f root]
  apply relocated_bind
  intro program
  rw [Rules.check_relocate]
  exact relocated_bind fun _ => rfl

end Flowchart
