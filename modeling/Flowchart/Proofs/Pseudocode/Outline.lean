import Flowchart.Proofs.Pseudocode.RoundTrip
/-! Building a tree is reading an outline. Which lines may follow which, and which of them open a
block, is said of the lines alone; building fails at the first line that is too deep, and otherwise
the tree holds the lines, in order and each at its depth. -/
namespace Flowchart

namespace Line

def keyword? (l : Line) : Option NodeKind :=
  NodeKind.ofKeyword? (.ofList (Text.splitWord l.content.toList).1)

def kind (l : Line) : NodeKind := l.keyword?.getD .text

/-- What a line says: what follows its keyword, or the whole of it, trimmed. -/
def caption (l : Line) : String :=
  .ofList (if l.keyword?.isSome then (Text.splitWord l.content.toList).2
    else Text.trim l.content.toList)

/-- The nearest of the lines before a line of the given depth that has the same parent: the latest
one that is no deeper, unless that is the parent. -/
def sibling? (before : List Line) (depth : Nat) : Option Line :=
  (before.reverse.find? (·.depth ≤ depth)).filter (·.depth = depth)

/-- A line with a keyword opens a block, unless it is a `while` right after a `do`. -/
def opens (before : List Line) (l : Line) : Bool :=
  l.keyword?.isSome &&
    !(l.keyword? == some .whileLoop && (sibling? before l.depth).bind keyword? == some .doLoop)

/-- How deep the line after the given ones may be. -/
def room (before : List Line) : Nat :=
  match before.getLast? with
  | none => 0
  | some last => if opens before.dropLast last then last.depth + 1 else last.depth

/-- No line is too deep after the lines before it. -/
def Nested (lines : List Line) : Prop :=
  ∀ before l after, lines = before ++ l :: after → l.depth ≤ room before

theorem nested_nil : Nested [] := fun before l after h => by simp at h

theorem room_concat (before : List Line) (l : Line) :
    room (before ++ [l]) = if opens before l then l.depth + 1 else l.depth := by
  simp [room]

theorem nested_concat {before : List Line} {l : Line} :
    Nested (before ++ [l]) ↔ Nested before ∧ l.depth ≤ room before := by
  constructor
  · intro h
    refine ⟨fun first m after eq => ?_, h before l [] rfl⟩
    exact h first m (after ++ [l]) (by simp [eq])
  · rintro ⟨h, fits⟩ first m after eq
    rcases List.eq_nil_or_concat after with rfl | ⟨after, last, rfl⟩
    · obtain ⟨rfl, rfl⟩ := List.append_inj' eq rfl |>.imp_right List.singleton_inj.mp
      exact fits
    · rw [List.concat_eq_append, ← List.cons_append, ← List.append_assoc] at eq
      exact h first m after (List.append_inj' eq rfl).1

theorem sibling?_concat_of_lt (before : List Line) {l : Line} {depth : Nat}
    (h : depth < l.depth) : sibling? (before ++ [l]) depth = sibling? before depth := by
  simp [sibling?, Nat.not_le.mpr h]

theorem sibling?_concat_self (before : List Line) (l : Line) :
    sibling? (before ++ [l]) l.depth = some l := by
  simp [sibling?]

theorem sibling?_concat_of_gt (before : List Line) {l : Line} {depth : Nat}
    (h : l.depth < depth) : sibling? (before ++ [l]) depth = none := by
  simp [sibling?, h.le, h.ne]

/-- The kinds of the siblings that lines less deep than `n` would have, the deepest first. -/
def siblingKinds (before : List Line) : Nat → List (Option NodeKind)
  | 0 => []
  | n + 1 => (sibling? before n).map kind :: siblingKinds before n

theorem siblingKinds_drop (before : List Line) (m n : Nat) :
    (siblingKinds before (m + n)).drop m = siblingKinds before n := by
  induction m with
  | zero => rw [Nat.zero_add, List.drop_zero]
  | succ m ih => rw [Nat.succ_add, siblingKinds, List.drop_succ_cons, ih]

theorem siblingKinds_concat (before : List Line) {l : Line} {n : Nat} (h : n ≤ l.depth) :
    siblingKinds (before ++ [l]) n = siblingKinds before n := by
  induction n with
  | zero => rfl
  | succ n ih =>
      rw [siblingKinds, siblingKinds, ih (Nat.le_of_succ_le h), sibling?_concat_of_lt before h]

theorem keyword?_ne_text (l : Line) : l.keyword? ≠ some .text := by
  intro h
  unfold keyword? NodeKind.ofKeyword? at h
  exact absurd (List.mem_of_find?_eq_some h) (by decide)

theorem kind_eq_text {l : Line} : l.kind = .text ↔ l.keyword? = none := by
  unfold kind
  cases h : l.keyword? with
  | none => simp
  | some k =>
      have ne : k ≠ .text := fun eq => l.keyword?_ne_text (eq ▸ h)
      simp [ne]

theorem kind_eq_keyword {l : Line} {k : NodeKind} (hk : k ≠ .text) :
    l.kind = k ↔ l.keyword? = some k := by
  unfold kind
  cases l.keyword? with
  | none => simp [hk.symm]
  | some j => simp

end Line

namespace Tree
open Line

theorem nodeOf_eq (l : Line) : nodeOf l = ⟨l.kind, l.number, l.caption, []⟩ := by
  unfold nodeOf Line.kind Line.caption Line.keyword?
  dsimp only
  cases NodeKind.ofKeyword? (.ofList (Text.splitWord l.content.toList).1) <;> rfl

theorem opensBlock_nodeOf {before : List Line} {l : Line} {parent : Node}
    (h : parent.children.getLast?.map Node.kind = (sibling? before l.depth).map Line.kind) :
    opensBlock (nodeOf l) parent = opens before l := by
  have texts : (l.kind != .text) = l.keyword?.isSome := by
    rw [Bool.eq_iff_iff, bne_iff_ne, ne_eq, kind_eq_text, Option.isSome_iff_ne_none]
  have tests : (l.kind == .whileLoop) = (l.keyword? == some .whileLoop) := by
    rw [Bool.eq_iff_iff, beq_iff_eq, beq_iff_eq, kind_eq_keyword (by decide)]
  have loops : ((sibling? before l.depth).map Line.kind == some .doLoop)
      = ((sibling? before l.depth).bind keyword? == some .doLoop) := by
    rw [Bool.eq_iff_iff, beq_iff_eq, beq_iff_eq]
    cases sibling? before l.depth with
    | none => simp
    | some s => simpa using kind_eq_keyword (l := s) (k := .doLoop) (by decide)
  rw [nodeOf_eq, opensBlock, closesDo, h, texts, tests, loops, opens]

/-- One line of an outline: its depth, and the node that stands there. -/
structure Entry where
  depth : Nat
  number : Nat
  kind : NodeKind
  content : String
deriving DecidableEq, Repr

end Tree

/-- The entry that a line stands for; the program itself has depth zero. -/
def Line.entry (l : Line) : Tree.Entry := ⟨l.depth + 1, l.number, l.kind, l.caption⟩

mutual

/-- The entries of a tree, each node before its children. -/
def Node.outline (depth : Nat) : Node → List Tree.Entry
  | ⟨kind, line, content, children⟩ =>
    ⟨depth, line, kind, content⟩ :: outlineAll (depth + 1) children

def Node.outlineAll (depth : Nat) : List Node → List Tree.Entry
  | [] => []
  | node :: rest => outline depth node ++ outlineAll depth rest

end

namespace Tree
open Line

theorem outlineAll_concat (depth : Nat) (nodes : List Node) (node : Node) :
    Node.outlineAll depth (nodes ++ [node]) =
      Node.outlineAll depth nodes ++ node.outline depth := by
  induction nodes with
  | nil => simp [Node.outlineAll]
  | cons first rest ih => simp [Node.outlineAll, ih]

/-- The entries of the open blocks, the outermost first, each with what it holds so far. -/
def outlineOpen : List Node → List Entry
  | [] => []
  | node :: outer => outlineOpen outer ++ node.outline outer.length

theorem outline_push (parent child : Node) (depth : Nat) :
    (parent.push child).outline depth = parent.outline depth ++ child.outline (depth + 1) := by
  obtain ⟨kind, line, content, children⟩ := parent
  simp [Node.push, Node.outline, outlineAll_concat]

theorem outlineOpen_closeBlocks (n : Nat) (stack : List Node) :
    outlineOpen (closeBlocks n stack) = outlineOpen stack := by
  fun_induction closeBlocks n stack with
  | case1 n child parent outer ih =>
      rw [ih]
      simp [outlineOpen, outline_push]
  | case2 => rfl

/-- For each open block, innermost first, the kind of the last child that it has once the blocks in
it are closed. -/
def lastKinds : List Node → List (Option NodeKind)
  | [] => []
  | top :: outer =>
    top.children.getLast?.map Node.kind :: ((top :: outer).dropLast.map fun n => some n.kind)

theorem lastKinds_push (parent child : Node) (outer : List Node) :
    lastKinds (parent.push child :: outer) =
      some child.kind :: (lastKinds (parent :: outer)).tail := by
  cases outer <;> simp [lastKinds, Node.push]

theorem lastKinds_open (child parent : Node) (outer : List Node) :
    lastKinds (child :: parent :: outer) =
      child.children.getLast?.map Node.kind :: lastKinds (parent.push child :: outer) := by
  rw [lastKinds_push]
  simp [lastKinds]

/-- Closing stops early only where no block is left to close into. -/
theorem eq_zero_of_stuck {n : Nat} {stack : List Node} (h : n < stack.length)
    (stuck : ∀ k child parent outer, n = k + 1 → stack = child :: parent :: outer → False) :
    n = 0 := by
  cases n with
  | zero => rfl
  | succ k =>
      cases stack with
      | nil => cases h
      | cons child rest =>
          cases rest with
          | nil => exact absurd h (by simp)
          | cons parent outer => exact (stuck k child parent outer rfl rfl).elim

theorem lastKinds_closeBlocks {n : Nat} {stack : List Node} (h : n < stack.length) :
    lastKinds (closeBlocks n stack) = (lastKinds stack).drop n := by
  fun_induction closeBlocks n stack with
  | case1 n child parent outer ih =>
      rw [ih (by simpa using h), lastKinds_open, List.drop_succ_cons]
  | case2 n stack stuck =>
      cases eq_zero_of_stuck h stuck
      rfl

theorem length_closeBlocks {n : Nat} {stack : List Node} (h : n < stack.length) :
    (closeBlocks n stack).length = stack.length - n := by
  fun_induction closeBlocks n stack with
  | case1 n child parent outer ih =>
      rw [ih (by simpa using h)]
      simp
  | case2 n stack stuck =>
      cases eq_zero_of_stuck h stuck
      rfl

/-- The open blocks after some lines list these lines, and the last children they have are the
siblings of lines to come. -/
structure Holds (before : List Line) (stack : List Node) : Prop where
  listed : outlineOpen stack = ⟨0, 0, .program, ""⟩ :: before.map Line.entry
  kinds : lastKinds stack = siblingKinds before stack.length

theorem holds_root : Holds [] [.root] := ⟨rfl, rfl⟩

theorem Holds.closeBlocks {before : List Line} {stack : List Node} (h : Holds before stack) {n : Nat}
    (inside : n < stack.length) : Holds before (closeBlocks n stack) where
  listed := (outlineOpen_closeBlocks n stack).trans h.listed
  kinds := by
    have total : stack.length = n + (stack.length - n) := by omega
    rw [lastKinds_closeBlocks inside, length_closeBlocks inside, h.kinds]
    conv_lhs => rw [total]
    exact siblingKinds_drop before n _

theorem Holds.push {before : List Line} {parent : Node} {outer : List Node}
    (h : Holds before (parent :: outer)) {l : Line} (depth : outer.length = l.depth) :
    Holds (before ++ [l]) (parent.push (nodeOf l) :: outer) where
  listed := by
    have listed := h.listed
    rw [outlineOpen] at listed ⊢
    rw [outline_push, ← List.append_assoc, listed, nodeOf_eq]
    simp [Node.outline, Node.outlineAll, Line.entry, depth]
  kinds := by
    rw [lastKinds_push, h.kinds, nodeOf_eq, List.length_cons, List.length_cons, depth, siblingKinds,
      siblingKinds, List.tail_cons, sibling?_concat_self, siblingKinds_concat before (Nat.le_refl _)]
    rfl

theorem Holds.open {before : List Line} {parent : Node} {outer : List Node}
    (h : Holds before (parent :: outer)) {l : Line} (depth : outer.length = l.depth) :
    Holds (before ++ [l]) (nodeOf l :: parent :: outer) where
  listed := by
    have listed := (h.push depth).listed
    rw [outlineOpen, outline_push] at listed
    rw [outlineOpen, outlineOpen, List.append_assoc]
    exact listed
  kinds := by
    have kinds := (h.push depth).kinds
    rw [List.length_cons, depth] at kinds
    have none_yet := sibling?_concat_of_gt before (Nat.lt_succ_self l.depth)
    rw [lastKinds_open, kinds, nodeOf_eq, List.length_cons, List.length_cons, depth]
    change _ = (sibling? (before ++ [l]) (l.depth + 1)).map Line.kind :: _
    rw [none_yet]
    rfl

theorem addLine_holds {before : List Line} {stack : List Node} (h : Holds before stack)
    (length : stack.length = room before + 1) {l : Line} (fits : l.depth ≤ room before) :
    ∃ next, addLine stack l = .ok next ∧ Holds (before ++ [l]) next ∧
      next.length = room (before ++ [l]) + 1 := by
  have inside : stack.length - (l.depth + 1) < stack.length := by omega
  have closed := h.closeBlocks inside
  have closedLength := length_closeBlocks inside
  generalize blocks : Tree.closeBlocks (stack.length - (l.depth + 1)) stack = found
    at closed closedLength
  cases found with
  | nil =>
      rw [List.length_nil] at closedLength
      omega
  | cons parent outer =>
      have depth : outer.length = l.depth := by
        rw [List.length_cons] at closedLength
        omega
      have innermost : Innermost stack parent outer := ⟨by omega, by rw [depth]; exact blocks⟩
      have lastKind := (List.cons.inj closed.kinds).1
      rw [depth] at lastKind
      refine ⟨_, addLine_innermost innermost depth.symm, ?_⟩
      rw [opensBlock_nodeOf lastKind, room_concat]
      split
      · exact ⟨closed.open depth, by simp [depth]⟩
      · exact ⟨closed.push depth, by simp [depth]⟩

theorem addLine_refused {before : List Line} {stack : List Node}
    (length : stack.length = room before + 1) {l : Line} (deep : room before < l.depth) :
    addLine stack l = .error ⟨l.number, .unexpectedIndent⟩ := by
  unfold addLine
  rw [if_pos (by omega)]

theorem foldlM_holds {lines : List Line} (h : Line.Nested lines) :
    ∃ stack, lines.foldlM addLine [.root] = .ok stack ∧ Holds lines stack ∧
      stack.length = room lines + 1 := by
  induction lines using List.reverseRecOn with
  | nil => exact ⟨[.root], rfl, holds_root, rfl⟩
  | append_singleton before l ih =>
      obtain ⟨nested, fits⟩ := nested_concat.mp h
      obtain ⟨stack, run, holds, length⟩ := ih nested
      obtain ⟨next, step, result⟩ := addLine_holds holds length fits
      refine ⟨next, ?_, result⟩
      rw [List.foldlM_append]
      refine bind_eq_ok run (bind_eq_ok step rfl)

/-- Nested lines build a tree that lists them. -/
theorem build_of_nested {lines : List Line} (h : Line.Nested lines) :
    ∃ program, build lines = .ok program ∧
      program.outline 0 = ⟨0, 0, .program, ""⟩ :: lines.map Line.entry := by
  obtain ⟨stack, run, holds, length⟩ := foldlM_holds h
  have inside : stack.length - 1 < stack.length := by omega
  have closed := holds.closeBlocks inside
  have alone := length_closeBlocks inside
  have all : Tree.closeBlocks stack.length stack =
      Tree.closeBlocks 1 (Tree.closeBlocks (stack.length - 1) stack) := by
    rw [← closeBlocks_add]
    congr 1
    omega
  have single : stack.length - (stack.length - 1) = 1 := by omega
  rw [single] at alone
  obtain ⟨root, root_eq⟩ := List.length_eq_one_iff.mp alone
  rw [root_eq] at all closed
  refine ⟨root, bind_eq_ok run ?_, closed.listed⟩
  rw [all]
  rfl

/-- Lines up to a first one that is too deep build nothing, and that line is blamed. -/
theorem build_refused {before after : List Line} {l : Line} (nested : Line.Nested before)
    (deep : room before < l.depth) :
    build (before ++ l :: after) = .error ⟨l.number, .unexpectedIndent⟩ := by
  obtain ⟨stack, run, -, length⟩ := foldlM_holds nested
  have stopped : (before ++ l :: after).foldlM addLine [.root] =
      .error ⟨l.number, .unexpectedIndent⟩ := by
    rw [List.foldlM_append, run]
    change (addLine stack l >>= fun next => after.foldlM addLine next) = _
    rw [addLine_refused length deep]
    rfl
  rw [build, stopped]
  rfl

end Tree

namespace Line

theorem nested_or_deep (lines : List Line) :
    Nested lines ∨ ∃ before l after, lines = before ++ l :: after ∧ Nested before ∧
      room before < l.depth := by
  induction lines using List.reverseRecOn with
  | nil => exact .inl nested_nil
  | append_singleton before l ih =>
      rcases ih with nested | ⟨first, m, after, rfl, nested, deep⟩
      · rcases Nat.lt_or_ge (room before) l.depth with deep | fits
        · exact .inr ⟨before, l, [], rfl, nested, deep⟩
        · exact .inl (nested_concat.mpr ⟨nested, fits⟩)
      · exact .inr ⟨first, m, after ++ [l], by simp, nested, deep⟩

theorem Nested.not_deep {before after : List Line} {l : Line} (h : Nested (before ++ l :: after)) :
    ¬ room before < l.depth :=
  Nat.not_lt.mpr (h before l after rfl)

end Line

/-- Building is reading an outline. It succeeds exactly if no line is deeper than the line before it
leaves room for; the error is that of the first line that is; and the tree lists the program and then
the lines, each with its number, kind and caption, one deeper than it is indented. -/
theorem build_reads_outline (lines : List Line) :
    ((∃ program, Tree.build lines = .ok program) ↔ Line.Nested lines) ∧
    (∀ e, Tree.build lines = .error e ↔ ∃ before l after, lines = before ++ l :: after ∧
      Line.Nested before ∧ Line.room before < l.depth ∧ e = ⟨l.number, .unexpectedIndent⟩) ∧
    ∀ program, Tree.build lines = .ok program →
      program.outline 0 = ⟨0, 0, .program, ""⟩ :: lines.map Line.entry := by
  rcases Line.nested_or_deep lines with nested | ⟨before, l, after, rfl, nested, deep⟩
  · obtain ⟨program, built, listed⟩ := Tree.build_of_nested nested
    refine ⟨⟨fun _ => nested, fun _ => ⟨program, built⟩⟩, fun e => ⟨fun failed => ?_, ?_⟩, ?_⟩
    · rw [built] at failed
      cases failed
    · rintro ⟨before, l, after, rfl, -, deep, -⟩
      exact absurd deep nested.not_deep
    · intro other same
      rw [built] at same
      cases same
      exact listed
  · have refused : Tree.build (before ++ l :: after) = .error ⟨l.number, .unexpectedIndent⟩ :=
      Tree.build_refused nested deep
    refine ⟨⟨?_, fun h => absurd deep h.not_deep⟩, fun e => ⟨fun failed => ?_, ?_⟩, ?_⟩
    · rintro ⟨program, built⟩
      rw [refused] at built
      cases built
    · rw [refused] at failed
      cases failed
      exact ⟨before, l, after, rfl, nested, deep, rfl⟩
    · rintro ⟨first, m, rest, same, firstNested, firstDeep, rfl⟩
      rw [same, Tree.build_refused firstNested firstDeep]
    · intro program built
      rw [refused] at built
      cases built

namespace Sample

def loopLines (last : Line) : List Line :=
  [⟨1, [], "do"⟩, ⟨2, ["  "], "a"⟩, ⟨3, [], "while  b"⟩, last]

end Sample

/-- A `while` that closes a `do` leaves no room for a line below it. -/
theorem build_reads_outline_closing :
    (∃ program, Tree.build (Sample.loopLines ⟨4, [], "c"⟩) = .ok program ∧
      program.outline 0 = [⟨0, 0, .program, ""⟩, ⟨1, 1, .doLoop, ""⟩, ⟨2, 2, .text, "a"⟩,
        ⟨1, 3, .whileLoop, "b"⟩, ⟨1, 4, .text, "c"⟩]) ∧
    ¬ Line.Nested (Sample.loopLines ⟨4, ["  "], "c"⟩) ∧
    Tree.build (Sample.loopLines ⟨4, ["  "], "c"⟩) = .error ⟨4, .unexpectedIndent⟩ := by
  have refused : Tree.build (Sample.loopLines ⟨4, ["  "], "c"⟩) = .error ⟨4, .unexpectedIndent⟩ := rfl
  refine ⟨⟨_, rfl, ?_⟩, fun nested => ?_, refused⟩
  · exact (build_reads_outline (Sample.loopLines ⟨4, [], "c"⟩)).2.2 _ rfl
  · obtain ⟨program, built⟩ := (build_reads_outline _).1.mpr nested
    rw [refused] at built
    cases built

end Flowchart
