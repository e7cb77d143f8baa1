import Flowchart.Output.Markdown
import Flowchart.Proofs.Text.Trim
/-! Fenced blocks in a document. A fence of three marks or more opens a block, and exactly three marks close
it: the blocks of a document are found as they were written if, and only if, three marks close each of
them. -/
namespace Flowchart.Markdown
open Text

/-- A line that opens a block: trimmed, it is a number of marks, at least three, and a text whose first
word is a tag. -/
def Opens (f : Fence) (marks : Nat) (line : List Char) : Prop :=
  3 ≤ marks ∧ ∃ info, trim line = List.replicate marks f.mark ++ info ∧ (splitWord info).1 ∈ tags

/-- A block as it is written: a line that opens it, lines of which none begins like a fence, and a line
of marks alone. -/
structure Block where
  fence : Fence
  opening : Nat
  closing : Nat
  first : List Char
  body : List (List Char)
  last : List Char
  opens : Opens fence opening first
  plain : ∀ line ∈ body, ¬ List.replicate 3 fence.mark <+: trim line
  enough : 3 ≤ closing
  closes : trim last = List.replicate closing fence.mark

inductive Piece where
  | prose (line : List Char) (silent : ∀ f marks, ¬ Opens f marks line)
  | block (b : Block)

namespace Piece

def lines : Piece → List (List Char)
  | .prose line _ => [line]
  | .block b => b.first :: (b.body ++ [b.last])

def block? : Piece → Option Block
  | .prose _ _ => none
  | .block b => some b

end Piece

def Block.text (b : Block) : String := .ofList (['\n'].intercalate b.body)

def linesOf (document : List Piece) : List (List Char) := document.flatMap Piece.lines

def blocksOf (document : List Piece) : List Block := document.filterMap Piece.block?

variable {f g : Fence} {marks more : Nat} {line info : List Char}

theorem visible_mark (f : Fence) : isBlank f.mark = false := by cases f <;> decide

theorem mark_ne_of_tagged (tagged : (splitWord info).1 ∈ tags) : info.head? ≠ some f.mark := by
  intro head
  obtain ⟨rest, rfl⟩ := List.head?_eq_some_iff.mp head
  have word : (splitWord (f.mark :: rest)).1 = f.mark :: (trimEnd rest).takeWhile (!isBlank ·) := by
    have start : trimStart (f.mark :: rest) = f.mark :: rest :=
      trimStart_eq_self.mpr (by simp [visible_mark])
    have whole : trim (f.mark :: rest) = f.mark :: trimEnd rest := by
      rw [trim, start]
      exact trimEnd_append_cons (visible_mark f) [] rest
    simp [splitWord, whole, visible_mark]
  rw [word] at tagged
  cases f <;> simp [tags, Fence.mark] at tagged

theorem opensWith_iff : opensWith (trim line) f = true ↔ ∃ marks, Opens f marks line := by
  constructor
  · intro opens
    unfold opensWith at opens
    split at opens
    · next rest dropped =>
        have marked : ∀ c ∈ rest.takeWhile (· == f.mark), c = f.mark := by
          intro c mem
          simpa using List.mem_takeWhile_imp mem
        refine ⟨3 + (rest.takeWhile (· == f.mark)).length, by omega,
          rest.dropWhile (· == f.mark), ?_, by simpa using opens⟩
        rw [List.replicate_add, ← List.eq_replicate_of_mem marked, List.append_assoc,
          List.takeWhile_append_dropWhile]
        exact dropStart?_eq_some_iff.mp dropped
    · cases opens
  · rintro ⟨marks, three, info, eq, tagged⟩
    obtain ⟨more, rfl⟩ := Nat.exists_eq_add_of_le three
    have dropped : dropStart? f.text (trim line) = some (List.replicate more f.mark ++ info) := by
      rw [dropStart?_eq_some_iff, eq, List.replicate_add, List.append_assoc]
      rfl
    have left : (List.replicate more f.mark ++ info).dropWhile (· == f.mark) = info := by
      rw [List.dropWhile_append_of_pos (by simp)]
      have head := mark_ne_of_tagged (f := f) tagged
      cases info with
      | nil => rfl
      | cons c rest => exact List.dropWhile_cons_of_neg (by simpa using head)
    unfold opensWith
    rw [dropped]
    dsimp only
    rw [left]
    simpa using tagged

theorem Opens.fence_unique (hf : Opens f marks line) (hg : Opens g more line) : f = g := by
  obtain ⟨three, info, eq, -⟩ := hf
  obtain ⟨three', info', eq', -⟩ := hg
  obtain ⟨n, rfl⟩ := Nat.exists_eq_add_of_le' three
  obtain ⟨n', rfl⟩ := Nat.exists_eq_add_of_le' three'
  have heads := congrArg List.head? (eq.symm.trans eq')
  cases f <;> cases g <;> first | rfl | simp [List.replicate_succ, Fence.mark] at heads

theorem opening?_eq_some_iff : opening? (trim line) = some f ↔ ∃ marks, Opens f marks line := by
  rw [← opensWith_iff, opening?]
  constructor
  · exact fun found => List.find?_some found
  · intro opens
    cases f with
    | backticks => exact List.find?_cons_of_pos opens
    | tildes =>
        have other : ¬ opensWith (trim line) .backticks = true := by
          intro both
          obtain ⟨marks, hf⟩ := opensWith_iff.mp opens
          obtain ⟨more, hg⟩ := opensWith_iff.mp both
          cases hf.fence_unique hg
        rw [List.find?_cons_of_neg other]
        exact List.find?_cons_of_pos opens

theorem opening?_eq_none_iff :
    opening? (trim line) = none ↔ ∀ f marks, ¬ Opens f marks line := by
  rw [Option.eq_none_iff_forall_ne_some]
  simp only [ne_eq, opening?_eq_some_iff, not_exists]

variable {held body rest : List (List Char)}

theorem bodies_held (plain : ∀ line ∈ body, ¬ List.replicate 3 f.mark <+: trim line) :
    bodies (some ⟨f, held⟩) (body ++ rest) = bodies (some ⟨f, held ++ body⟩) rest := by
  induction body generalizing held with
  | nil => rw [List.nil_append, List.append_nil]
  | cons line body ih =>
      rw [List.forall_mem_cons] at plain
      have goes_on : closes (trim line) f = false := by
        rw [closes, beq_eq_false_iff_ne]
        intro eq
        exact plain.1 (eq ▸ List.prefix_rfl)
      rw [List.cons_append, bodies]
      dsimp only
      rw [goes_on, if_neg Bool.false_ne_true, ih plain.2, List.append_assoc]
      rfl

theorem bodies_block (b : Block) :
    bodies none ((Piece.block b).lines ++ rest) =
      bodies (some ⟨b.fence, b.body⟩) (b.last :: rest) := by
  have opened : opening? (trim b.first) = some b.fence := opening?_eq_some_iff.mpr ⟨_, b.opens⟩
  rw [Piece.lines, List.cons_append, bodies, opened, List.append_assoc]
  exact bodies_held b.plain

theorem bodies_closed (b : Block) (three : b.closing = 3) :
    bodies none ((Piece.block b).lines ++ rest) = b.text :: bodies none rest := by
  have closed : closes (trim b.last) b.fence = true := by
    rw [b.closes, three]
    exact beq_self_eq_true _
  rw [bodies_block, bodies]
  dsimp only
  rw [closed, if_pos rfl]
  rfl

/-- More than three marks do not close a block; their line becomes a part of it. -/
theorem bodies_unclosed (b : Block) (more : b.closing ≠ 3) :
    bodies none ((Piece.block b).lines ++ rest) =
      bodies (some ⟨b.fence, b.body ++ [b.last]⟩) rest := by
  have goes_on : closes (trim b.last) b.fence = false := by
    rw [closes, beq_eq_false_iff_ne, b.closes]
    intro eq
    exact more (by simpa [Fence.text] using congrArg List.length eq)
  rw [bodies_block, bodies]
  dsimp only
  rw [goes_on, if_neg Bool.false_ne_true]

theorem bodies_some (b : Open) (rest : List (List Char)) :
    bodies (some b) rest = [] ∨
      ∃ added others, bodies (some b) rest = joinLines (b.lines ++ added) :: others := by
  induction rest generalizing b with
  | nil => exact .inl rfl
  | cons line rest ih =>
      rw [bodies]
      split
      · exact .inr ⟨[], bodies none rest, by rw [List.append_nil]⟩
      · obtain none | ⟨added, others, eq⟩ := ih { b with lines := b.lines ++ [line] }
        · exact .inl none
        · exact .inr ⟨line :: added, others, by rw [eq, List.append_assoc]; rfl⟩

theorem length_intercalate_lt (h : line ≠ []) :
    (['\n'].intercalate body).length < (['\n'].intercalate (body ++ line :: rest)).length := by
  induction body with
  | nil =>
      cases rest with
      | nil => simpa [List.intercalate] using List.length_pos_of_ne_nil h
      | cons next rest =>
          simp only [List.intercalate, List.intersperse_nil, List.flatten_nil, List.length_nil,
            List.nil_append, List.intersperse_cons_cons, List.flatten_cons, List.length_append,
            List.length_cons]
          omega
  | cons first body ih =>
      cases body with
      | nil => simp [List.intercalate]
      | cons next body => simpa [List.intercalate] using ih

/-- A text that holds the line of marks after a block is not the text of the block. -/
theorem text_ne_joinLines (b : Block) (added : List (List Char)) :
    b.text ≠ joinLines (b.body ++ [b.last] ++ added) := by
  intro eq
  have filled : b.last ≠ [] := by
    intro none
    have ends := congrArg List.length b.closes
    rw [none] at ends
    have three := b.enough
    simp [trim, trimEnd, trimStart, dropEndWhile] at ends
    omega
  have lengths := congrArg (·.toList.length) eq
  simp only [Block.text, joinLines, String.toList_ofList, List.append_assoc,
    List.singleton_append] at lengths
  exact absurd lengths (length_intercalate_lt filled).ne

variable {text : String} {document : List Piece}

theorem bodies_document (document : List Piece) :
    bodies none (linesOf document) = (blocksOf document).map Block.text ↔
      ∀ b ∈ blocksOf document, b.closing = 3 := by
  induction document with
  | nil => simp [linesOf, blocksOf, bodies]
  | cons piece document ih =>
      have lines : linesOf (piece :: document) = piece.lines ++ linesOf document := rfl
      rw [lines]
      cases piece with
      | prose line silent =>
          have passed : opening? (trim line) = none := opening?_eq_none_iff.mpr silent
          rw [Piece.lines, List.singleton_append, bodies, passed]
          exact ih
      | block b =>
          have blocks : blocksOf (.block b :: document) = b :: blocksOf document := rfl
          rw [blocks, List.map_cons, List.forall_mem_cons]
          by_cases three : b.closing = 3
          · rw [bodies_closed b three, List.cons_inj_right, ih]
            exact (and_iff_right three).symm
          · rw [bodies_unclosed b three]
            refine iff_of_false (fun eq => ?_) fun all => three all.1
            obtain none | ⟨added, others, some⟩ :=
              bodies_some ⟨b.fence, b.body ++ [b.last]⟩ (linesOf document)
            · cases none.symm.trans eq
            · exact text_ne_joinLines b added (List.cons.inj (some.symm.trans eq)).1.symm

/-- The blocks of a document are found whole, one by one and in order, if exactly three marks close each
of them, however many opened it. If more marks close a block, something else is found. -/
theorem blocks_whole_iff (written : lines text.toList = linesOf document) :
    blocks text = (blocksOf document).map Block.text ↔ ∀ b ∈ blocksOf document, b.closing = 3 := by
  rw [blocks, written]
  exact bodies_document document

def loopBlock : Block where
  fence := .tildes
  opening := 5
  closing := 3
  first := "~~~~~ flow chart".toList
  body := ["  while a".toList, "    b".toList]
  last := "~~~".toList
  opens := ⟨by decide, " flow chart".toList, by decide, by decide⟩
  plain := by decide
  enough := by decide
  closes := by decide

def loopDocument : List Piece :=
  [.prose "```rust".toList (opening?_eq_none_iff.mp (by decide)),
    .prose "```".toList (opening?_eq_none_iff.mp (by decide)), .block loopBlock]

theorem blocks_whole_iff_loop :
    lines "```rust\n```\r\n~~~~~ flow chart\n  while a\n    b\n~~~".toList = linesOf loopDocument ∧
      blocks "```rust\n```\r\n~~~~~ flow chart\n  while a\n    b\n~~~" = ["  while a\n    b"] := by
  have written : lines "```rust\n```\r\n~~~~~ flow chart\n  while a\n    b\n~~~".toList =
      linesOf loopDocument := by decide
  have three : ∀ b ∈ blocksOf loopDocument, b.closing = 3 := List.forall_mem_singleton.mpr rfl
  refine ⟨written, ((blocks_whole_iff written).mpr three).trans ?_⟩
  decide

def longBlock : Block where
  fence := .backticks
  opening := 4
  closing := 4
  first := "````pseudo".toList
  body := ["a".toList]
  last := "````".toList
  opens := ⟨by decide, "pseudo".toList, by decide, by decide⟩
  plain := by decide
  enough := by decide
  closes := by decide

/-- A block between fences of one length is lost if they are longer than three marks. -/
theorem blocks_lose_longBlock :
    lines "````pseudo\na\n````\n".toList = linesOf [.block longBlock] ∧
      (∀ b ∈ blocksOf [.block longBlock], b.closing = b.opening) ∧
      (blocksOf [.block longBlock]).map Block.text = ["a"] ∧
      blocks "````pseudo\na\n````\n" = [] := by
  refine ⟨by decide, List.forall_mem_singleton.mpr rfl, by decide, by decide⟩

end Flowchart.Markdown
