import Flowchart.Pseudocode.Line
import Flowchart.Proofs.Text.Trim
import Flowchart.Proofs.Outcome
/-! Reading back lines that were written out with the levels of their nesting in front of them. -/
namespace Flowchart

namespace Line

def indent (l : Line) : List Char := l.nesting.flatMap String.toList

def written (l : Line) : List Char := l.indent ++ l.content.toList

end Line

namespace Lexis
variable {x : Lexis}

/-- A run of characters that indent, and at least one of them. -/
def IsLevel (x : Lexis) (level : String) : Prop :=
  level.toList ≠ [] ∧ ∀ c ∈ level.toList, x.indents c = true

/-- A line that no rule of the lexer drops, joins or cuts. -/
structure Plain (x : Lexis) (s : List Char) : Prop where
  ne_nil : s ≠ []
  trimmed : Text.trim s = s
  oneLine : '\n' ∉ s
  ended : s.getLast? ≠ some '\\'
  noComment : x.comment = [] ∨ ¬ x.comment <+: s

/-- The levels of a line below a line with the levels `previous`: some of these, or all and one
more. -/
inductive Nests (x : Lexis) (previous : List String) : List String → Prop
  | close {nesting} : nesting <+: previous → Nests x previous nesting
  | under {level} : IsLevel x level → Nests x previous (previous ++ [level])

/-- Plain lines, numbered on, each nested below the one before it. -/
inductive Laid (x : Lexis) : Nat → List String → List Line → Prop
  | nil {number previous} : Laid x number previous []
  | cons {number previous nesting content rest} : Nests x previous nesting →
      Plain x content.toList → Laid x (number + 1) nesting rest →
      Laid x number previous (⟨number, nesting, content⟩ :: rest)

theorem Nests.levels {previous nesting : List String} (h : Nests x previous nesting)
    (hp : ∀ level ∈ previous, IsLevel x level) : ∀ level ∈ nesting, IsLevel x level := by
  intro level hmem
  cases h with
  | close hpre => exact hp level (hpre.subset hmem)
  | under hlevel =>
      rcases List.mem_append.mp hmem with hold | hnew
      · exact hp level hold
      · exact List.mem_singleton.mp hnew ▸ hlevel

theorem matchLevels_append (levels more : List String) (rest : List Char) :
    matchLevels (levels ++ more) (levels.flatMap String.toList ++ rest) =
      (levels ++ (matchLevels more rest).1, (matchLevels more rest).2) := by
  induction levels with
  | nil => rfl
  | cons level levels ih =>
      have htake : Text.dropStart? level.toList
          ((level :: levels).flatMap String.toList ++ rest) =
            some (levels.flatMap String.toList ++ rest) :=
        Text.dropStart?_eq_some_iff.mpr (by simp)
      rw [List.cons_append, matchLevels, htake]
      simp only [ih, List.cons_append]

/-- The levels of a line are read back from its indentation. -/
theorem nest?_flatMap {previous nesting : List String} (h : Nests x previous nesting)
    (hp : ∀ level ∈ previous, IsLevel x level) :
    nest? previous (nesting.flatMap String.toList) = some nesting := by
  cases h with
  | close hpre =>
      obtain ⟨more, rfl⟩ := hpre
      have hstop : matchLevels more [] = ([], []) := by
        cases more with
        | nil => rfl
        | cons level more =>
            have hne := (hp level (by simp)).1
            cases hl : level.toList with
            | nil => exact absurd hl hne
            | cons c cs => rw [matchLevels, hl]; rfl
      have hmatch := matchLevels_append nesting more []
      rw [List.append_nil, hstop, List.append_nil] at hmatch
      simp [nest?, hmatch]
  | @under level hlevel =>
      have hmatch := matchLevels_append previous [] level.toList
      rw [List.append_nil] at hmatch
      simp [nest?, hmatch, matchLevels, hlevel.1]

theorem indents_indent {nesting : List String} (h : ∀ level ∈ nesting, IsLevel x level) :
    ∀ c ∈ nesting.flatMap String.toList, x.indents c = true := by
  intro c hc
  obtain ⟨level, hlevel, hmem⟩ := List.mem_flatMap.mp hc
  exact (h level hlevel).2 c hmem

theorem logicalLines_written {number : Nat} {previous : List String} {lines : List Line}
    (h : Laid x number previous lines) :
    x.logicalLines number none (lines.map Line.written) =
      (lines.map fun l => ⟨l.number, l.written⟩, none) := by
  induction h with
  | nil => rfl
  | @cons number previous nesting content rest _ hplain _ ih =>
      have htrim : Text.trimEnd (Line.written ⟨number, nesting, content⟩) =
          Line.written ⟨number, nesting, content⟩ :=
        Text.trimEnd_append hplain.trimmed hplain.ne_nil
      have hended : (Line.written ⟨number, nesting, content⟩).getLast? ≠ some '\\' := by
        rw [Line.written, List.getLast?_append_of_ne_nil _ hplain.ne_nil]
        exact hplain.ended
      rw [List.map_cons, logicalLines]
      simp only [htrim, if_neg hended, ih, List.map_cons]

theorem laid_lines {number : Nat} {previous : List String} {lines : List Line}
    (h : Laid x number previous lines) (hp : ∀ level ∈ previous, IsLevel x level) :
    ∀ l ∈ lines, (∀ level ∈ l.nesting, IsLevel x level) ∧ Plain x l.content.toList := by
  induction h with
  | nil => nofun
  | cons hnests hplain _ ih =>
      intro l hmem
      rcases List.mem_cons.mp hmem with rfl | hrest
      · exact ⟨hnests.levels hp, hplain⟩
      · exact ih (hnests.levels hp) l hrest

section Blank
variable (hx : ∀ c, x.indents c = true → Text.isBlank c = true)
include hx

theorem head_plain {s : List Char} (hs : Plain x s) :
    ∃ c rest, s = c :: rest ∧ x.indents c = false ∧ Text.isBlank c = false := by
  cases s with
  | nil => exact absurd rfl hs.ne_nil
  | cons c rest =>
      have hc : Text.isBlank c = false := (Text.trim_eq_self.mp hs.trimmed).1 c rfl
      refine ⟨c, rest, rfl, ?_, hc⟩
      cases hi : x.indents c with
      | false => rfl
      | true => exact absurd (hx c hi) (by simp [hc])

theorem written_parts {l : Line} (hl : ∀ level ∈ l.nesting, IsLevel x level)
    (hs : Plain x l.content.toList) :
    x.indentation ⟨l.number, l.written⟩ = l.indent ∧
      x.content ⟨l.number, l.written⟩ = l.content.toList := by
  have hindent : ∀ c ∈ l.indent, x.indents c = true := indents_indent hl
  obtain ⟨c, rest, hcontent, hc, -⟩ := head_plain hx hs
  unfold indentation content Line.written
  rw [List.takeWhile_append_of_pos hindent, List.dropWhile_append_of_pos hindent, hcontent]
  simp [hc]

theorem isKept_written {l : Line} (hl : ∀ level ∈ l.nesting, IsLevel x level)
    (hs : Plain x l.content.toList) : x.isKept ⟨l.number, l.written⟩ = true := by
  obtain ⟨c, rest, hcontent, -, hc⟩ := head_plain hx hs
  have hcomment : (!x.comment.isEmpty && x.comment.isPrefixOf l.content.toList) = false := by
    rcases hs.noComment with h | h
    · simp [h]
    · rw [Bool.and_eq_false_iff]
      exact .inr (Bool.eq_false_iff.mpr fun hp => h (List.isPrefixOf_iff_prefix.mp hp))
  unfold isKept isBlankLine isComment
  rw [(written_parts hx hl hs).2, hcomment, hcontent]
  simp [hc]

theorem nestLines_written {number : Nat} {previous : List String} {lines : List Line}
    (h : Laid x number previous lines) (hp : ∀ level ∈ previous, IsLevel x level) :
    x.nestLines previous (lines.map fun l => ⟨l.number, l.written⟩) = .ok lines := by
  induction h with
  | nil => rfl
  | @cons number previous nesting content rest hnests hplain _ ih =>
      have hlevels := hnests.levels hp
      obtain ⟨hindent, hcontent⟩ :=
        written_parts hx (l := ⟨number, nesting, content⟩) hlevels hplain
      have htrim : Text.trimEnd content.toList = content.toList :=
        Text.dropEndWhile_eq_self.mpr (Text.trim_eq_self.mp hplain.trimmed).2
      rw [List.map_cons, nestLines, hindent, hcontent, htrim, Line.indent, nest?_flatMap hnests hp,
        String.ofList_toList]
      exact bind_eq_ok (ih hlevels) rfl

theorem lines_written {lines : List Line} (hfeed : x.indents '\n' = false)
    (h : Laid x 1 [] lines) (hfirst : ∀ l ∈ lines.head?, l.nesting = []) :
    x.lines (.ofList (lines.flatMap fun l => l.written ++ ['\n'])) = .ok lines := by
  have hmem := laid_lines h (by simp)
  have hsafe : ∀ s ∈ lines.map Line.written, '\n' ∉ s ∧ s.getLast? ≠ some '\r' := by
    intro s hs
    obtain ⟨l, hl, rfl⟩ := List.mem_map.mp hs
    obtain ⟨hlevels, hplain⟩ := hmem l hl
    refine ⟨fun hn => ?_, ?_⟩
    · rcases List.mem_append.mp hn with hindent | hcontent
      · rw [indents_indent hlevels _ hindent] at hfeed
        cases hfeed
      · exact hplain.oneLine hcontent
    · rw [Line.written, List.getLast?_append_of_ne_nil _ hplain.ne_nil]
      intro hr
      exact absurd ((Text.trim_eq_self.mp hplain.trimmed).2 _ hr) (by decide)
  have htext := Text.lines_flatMap hsafe
  rw [List.flatMap_map] at htext
  have hkept : (lines.map fun l => (⟨l.number, l.written⟩ : LogicalLine)).filter x.isKept =
      lines.map fun l => ⟨l.number, l.written⟩ := by
    refine List.filter_eq_self.mpr fun logical hlog => ?_
    obtain ⟨l, hl, rfl⟩ := List.mem_map.mp hlog
    exact isKept_written hx (hmem l hl).1 (hmem l hl).2
  have hcommon : dropCommonLevel lines = lines := by
    cases lines with
    | nil => rfl
    | cons l rest => simp [dropCommonLevel, hfirst l rfl]
  unfold Lexis.lines
  rw [String.toList_ofList, htext, logicalLines_written h]
  dsimp only
  rw [hkept]
  refine bind_eq_ok (nestLines_written hx h (by simp)) ?_
  rw [hcommon]

end Blank
end Lexis
end Flowchart
