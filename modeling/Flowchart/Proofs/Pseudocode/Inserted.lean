import Flowchart.Proofs.Pseudocode.Carried
import Flowchart.Proofs.Pseudocode.Indented
/-! A source with one more line that says nothing. Between two lines that are not continued it is a
logical line of its own, which is dropped; the lines after it are read as before, one further down. -/
namespace Flowchart
namespace Lexis
variable {x : Lexis}

/-- What stands at the end of a physical line after its last visible character is never read. -/
theorem logicalLines_trimmed (number : Nat) (pending : Option (Nat × List Char))
    (physical : List (List Char)) :
    x.logicalLines number pending (physical.map Text.trimEnd) =
      x.logicalLines number pending physical := by
  induction physical generalizing number pending with
  | nil => rfl
  | cons raw rest ih =>
      cases pending with
      | none =>
          rw [List.map_cons, logicalLines_cons, logicalLines_cons, Text.trimEnd_trimEnd]
          simp only [resume, ih]
      | some stub =>
          rw [List.map_cons, logicalLines_pending, logicalLines_pending, Text.trimEnd_dropWhile]
          simp only [resume, ih]

theorem logicalLines_congr {physical other : List (List Char)}
    (alike : physical.map Text.trimEnd = other.map Text.trimEnd) (number : Nat) :
    x.logicalLines number none physical = x.logicalLines number none other := by
  rw [← logicalLines_trimmed, alike, logicalLines_trimmed]

/-- The number of a line once another line is put in after the first ones. -/
def shiftAfter (before number : Nat) : Nat := if number ≤ before then number else number + 1

/-- A line that says nothing, after lines that are all finished, moves the later ones and does no
more. -/
theorem logicalLines_inserted {first : List (List Char)} {line : List Char}
    {logical : List LogicalLine} (gathered : x.Gathers 1 first logical none)
    (h : x.SaysNothing line) (later : List (List Char)) :
    (x.logicalLines 1 none (first ++ line :: later)).1.filter x.isKept =
        ((x.logicalLines 1 none (first ++ later)).1.filter x.isKept).map
          (LogicalLine.relocate (shiftAfter first.length)) ∧
      (x.logicalLines 1 none (first ++ line :: later)).2 =
        (x.logicalLines 1 none (first ++ later)).2.map (shiftAfter first.length) := by
  have below := x.logicalLines_gathers (1 + first.length) later
  have moved := below.relocate (f := shiftAfter first.length) fun m after => if_neg (by omega)
  have next : shiftAfter first.length (1 + first.length) = 1 + first.length + 1 :=
    if_neg (by omega)
  rw [next] at moved
  have unmoved : logical.map (LogicalLine.relocate (shiftAfter first.length)) = logical := by
    refine (List.map_congr_left fun l mem => ?_).trans (List.map_id logical)
    have within := (gathered.increasing.1 l mem).2
    unfold LogicalLine.relocate shiftAfter
    rw [if_pos (by omega)]
    rfl
  rw [(gathered.append rfl below).logicalLines_eq,
    (gathered.append rfl (h.gathers moved)).logicalLines_eq]
  constructor
  · rw [List.filter_append, List.filter_cons, h.dropped, filter_relocate, List.filter_append,
      List.map_append, ← filter_relocate _ logical, unmoved]
    rfl
  · rfl

theorem parse_insertLine {source : String} {line : List Char} {before : Nat}
    {logical : List LogicalLine} (inside : before ≤ (Text.lines source.toList).length)
    (gathered : x.Gathers 1 ((Text.lines source.toList).take before) logical none)
    (oneLine : '\n' ∉ line) (h : x.SaysNothing line) :
    x.parse (.ofList (Text.insertLine line before source.toList)) =
      relocated (shiftAfter before) (Node.relocate (shiftAfter before)) (x.parse source) := by
  obtain ⟨kept, unfinished⟩ :=
    logicalLines_inserted gathered h ((Text.lines source.toList).drop before)
  rw [List.length_take_of_le inside, List.take_append_drop] at kept unfinished
  have read := logicalLines_congr (x := x)
    (Text.lines_insertLine oneLine before source.toList inside) 1
  apply parse_relocate
  · rfl
  · apply lines_relocate
    · rw [String.toList_ofList, read, kept]
    · rw [String.toList_ofList, read, unfinished]

end Lexis

theorem saysNothing_comment {indent rest : List Char} (blanks : ∀ c ∈ indent, c = ' ' ∨ c = '\t')
    (ended : (Text.trimEnd (indent ++ '#' :: rest)).getLast? ≠ some '\\') :
    Lexis.classic.SaysNothing (indent ++ '#' :: rest) := by
  have indents : ∀ c ∈ indent, Lexis.classic.indents c = true :=
    fun c mem => (indents_classic c).mpr (blanks c mem)
  have flush : Lexis.classic.indents '#' = false := by decide
  refine ⟨ended, fun number => ?_⟩
  have content : Lexis.classic.content ⟨number, Text.trimEnd (indent ++ '#' :: rest)⟩ =
      '#' :: Text.trimEnd rest := by
    rw [Text.trimEnd_append_cons (by decide), Lexis.content, List.dropWhile_append_of_pos indents,
      List.dropWhile_cons_of_neg]
    simp [flush]
  have comment : Lexis.classic.comment = ['#'] := rfl
  simp [Lexis.isKept, Lexis.isComment, content, comment]

/-- Blank lines and comments are invisible. Put in between two lines of a source, the first of which is
not continued, such a line leaves the program or the error as it was, but for the numbers of later
lines. -/
theorem parse_inserted_line (source line : String) (before : Nat)
    (inside : before ≤ (Text.lines source.toList).length)
    (between : ∃ logical,
      Lexis.classic.Gathers 1 ((Text.lines source.toList).take before) logical none)
    (oneLine : '\n' ∉ line.toList)
    (invisible : (∀ c ∈ line.toList, Text.isBlank c = true) ∨
      ∃ indent rest, line.toList = indent ++ '#' :: rest ∧ (∀ c ∈ indent, c = ' ' ∨ c = '\t') ∧
        (Text.trimEnd line.toList).getLast? ≠ some '\\') :
    Lexis.classic.parse (.ofList (Text.insertLine line.toList before source.toList)) =
      relocated (Lexis.shiftAfter before) (Node.relocate (Lexis.shiftAfter before))
        (Lexis.classic.parse source) := by
  obtain ⟨logical, gathered⟩ := between
  apply Lexis.parse_insertLine inside gathered oneLine
  rcases invisible with blank | ⟨indent, rest, parts, blanks, ended⟩
  · exact .blank blank
  · rw [parts] at ended ⊢
    exact saysNothing_comment blanks ended

/-- A comment below the test moves its block, and the error of a source where nothing fits. -/
theorem parse_inserted_note :
    Lexis.classic.parse Sample.testSource = .ok (Sample.testTree 2) ∧
    Lexis.classic.parse (.ofList (Text.insertLine "\t# note".toList 1 Sample.testSource.toList)) =
      .ok (Sample.testTree 3) ∧
    Lexis.classic.parse "if a\n  b\n c" = .error ⟨3, .unmatchedIndent⟩ ∧
    Lexis.classic.parse (.ofList (Text.insertLine "\t# note".toList 1 "if a\n  b\n c".toList)) =
      .error ⟨4, .unmatchedIndent⟩ := by
  have note : "\t# note".toList = ['\t'] ++ '#' :: " note".toList := rfl
  have invisible : (∀ c ∈ "\t# note".toList, Text.isBlank c = true) ∨
      ∃ indent rest, "\t# note".toList = indent ++ '#' :: rest ∧
        (∀ c ∈ indent, c = ' ' ∨ c = '\t') ∧
        (Text.trimEnd "\t# note".toList).getLast? ≠ some '\\' :=
    .inr ⟨_, _, note, fun _ mem => .inr (List.mem_singleton.mp mem), by decide⟩
  have fails : Lexis.classic.parse "if a\n  b\n c" = .error ⟨3, .unmatchedIndent⟩ := rfl
  have passes_still := parse_inserted_line Sample.testSource "\t# note" 1 (by decide)
    ⟨_, Lexis.gathers_iff.mpr rfl⟩ (by decide) invisible
  have fails_still := parse_inserted_line "if a\n  b\n c" "\t# note" 1 (by decide)
    ⟨_, Lexis.gathers_iff.mpr rfl⟩ (by decide) invisible
  rw [Sample.parse_testSource] at passes_still
  rw [fails] at fails_still
  exact ⟨Sample.parse_testSource, passes_still, fails, fails_still⟩

end Flowchart
