import Flowchart.Proofs.Pseudocode.Levels
import Flowchart.Proofs.Pseudocode.Outline
import Flowchart.Proofs.Text.Edit
/-! A source with one more indentation in front of all its lines. Where the lines begin with what the
first of them begins with, this part is one level that all share, and it does not matter what it is.
Where some line does not, no program is read, with the new indentation or without it. -/
namespace Flowchart

namespace LogicalLine

def indent (start : List Char) (l : LogicalLine) : LogicalLine := { l with text := start ++ l.text }

end LogicalLine

namespace Lexis
variable {x : Lexis} {start : List Char}

section Logical
variable (indents : ∀ c ∈ start, x.indents c = true)
include indents

theorem content_indent (l : LogicalLine) : x.content (l.indent start) = x.content l :=
  List.dropWhile_append_of_pos indents

theorem indentation_indent (l : LogicalLine) :
    x.indentation (l.indent start) = start ++ x.indentation l :=
  List.takeWhile_append_of_pos indents

theorem isKept_indent (l : LogicalLine) : x.isKept (l.indent start) = x.isKept l := by
  simp only [isKept, isBlankLine, isComment, content_indent indents]

theorem Continues.indent {text final : List Char} {more : List (List Char)}
    (h : x.Continues text more final) :
    x.Continues (start ++ text) (more.map (start ++ ·)) (start ++ final) := by
  induction h with
  | done => exact .done
  | next _ ih =>
      rw [← List.append_assoc] at ih ⊢
      refine .next ?_
      rwa [List.dropWhile_append_of_pos indents]

theorem Continues.indent_trimmed {raw text : List Char} {more : List (List Char)}
    (said : Text.trimEnd raw ≠ []) (h : x.Continues (Text.trimEnd raw) more text) :
    x.Continues (Text.trimEnd (start ++ raw)) (more.map (start ++ ·)) (start ++ text) := by
  rw [Text.trimEnd_append_eq, if_neg said]
  exact h.indent indents

/-- With blanks that indent in front of all lines, the lines that are kept have them in front. -/
theorem Gathers.indent (blank : ∀ c ∈ start, Text.isBlank c = true) {number : Nat}
    {physical : List (List Char)} {lines : List LogicalLine} {unfinished : Option Nat}
    (h : x.Gathers number physical lines unfinished) :
    ∃ indented, x.Gathers number (physical.map (start ++ ·)) indented unfinished ∧
      indented.filter x.isKept = (lines.filter x.isKept).map (LogicalLine.indent start) := by
  induction h with
  | done => exact ⟨[], .done, rfl⟩
  | @line number raw more text rest lines unfinished goesOn ended _ ih =>
      obtain ⟨indented, later, kept⟩ := ih
      rw [List.map_cons, List.map_append]
      by_cases silent : Text.trimEnd raw = []
      · -- A blank line is blank with more blanks in front, and is not kept.
        have ends : (Text.trimEnd raw).getLast? ≠ some '\\' := by simp [silent]
        obtain ⟨rfl, rfl⟩ := goesOn.eq_of_ended ends
        have raw_blank : ∀ c ∈ raw, Text.isBlank c = true := List.rdropWhile_eq_nil_iff.mp silent
        have here : x.SaysNothing raw := .blank raw_blank
        have there : x.SaysNothing (start ++ raw) :=
          .blank (List.forall_mem_append.mpr ⟨blank, raw_blank⟩)
        refine ⟨_, there.gathers later, ?_⟩
        simp [here.dropped, there.dropped, kept]
      · have still : (start ++ text).getLast? ≠ some '\\' := by
          by_cases said : text = []
          · rw [said, List.append_nil]
            exact Text.getLast?_blank blank
          · rwa [List.getLast?_append_of_ne_nil _ said]
        rw [← List.length_map (start ++ ·)] at later
        have same : x.isKept ⟨number, start ++ text⟩ = x.isKept ⟨number, text⟩ :=
          isKept_indent indents ⟨number, text⟩
        refine ⟨_, .line (goesOn.indent_trimmed indents silent) still later, ?_⟩
        rw [List.filter_cons, List.filter_cons, same, kept]
        split <;> rfl
  | @unfinished number raw more text goesOn ends =>
      have said : Text.trimEnd raw ≠ [] := by
        intro silent
        obtain ⟨rfl, rfl⟩ := goesOn.eq_of_ended (by simp [silent])
        simp [silent] at ends
      have still : (start ++ text).getLast? = some '\\' := by
        rw [List.getLast?_append, ends]
        rfl
      exact ⟨[], .unfinished (goesOn.indent_trimmed indents said) still, rfl⟩

end Logical

/-- A line one level deeper, below everything. -/
def wrap (level : String) (l : Line) : Line := { l with nesting := level :: l.nesting }

theorem nest?_indent (previous : List String) (indentation : List Char) :
    nest? (.ofList start :: previous) (start ++ indentation) =
      (nest? previous indentation).map (.ofList start :: ·) := by
  have found := matchLevels_append [.ofList start] previous indentation
  rw [List.singleton_append, List.flatMap_singleton, String.toList_ofList] at found
  rw [nest?, nest?, found]
  generalize matchLevels previous indentation = result
  obtain ⟨levels, rest⟩ := result
  simp only [List.singleton_append, List.length_cons, Nat.add_lt_add_iff_right]
  split
  · rfl
  · split <;> rfl

theorem nestLines_indent (indents : ∀ c ∈ start, x.indents c = true) (previous : List String)
    (logical : List LogicalLine) :
    x.nestLines (.ofList start :: previous) (logical.map (LogicalLine.indent start)) =
      (x.nestLines previous logical).map (List.map (wrap (.ofList start))) := by
  induction logical generalizing previous with
  | nil => rfl
  | cons l rest ih =>
      have step : nest? (.ofList start :: previous) (x.indentation (l.indent start)) =
          (nest? previous (x.indentation l)).map (.ofList start :: ·) := by
        rw [indentation_indent indents, nest?_indent]
      rw [List.map_cons]
      cases found : nest? previous (x.indentation l) with
      | none =>
          rw [found] at step
          rw [nestLines_of_none _ step, nestLines_of_none _ found]
          rfl
      | some nesting =>
          rw [found] at step
          have line : x.lineAt (.ofList start :: nesting) (l.indent start) =
              wrap (.ofList start) (x.lineAt nesting l) := by
            rw [lineAt, content_indent indents]
            rfl
          rw [nestLines_of_some _ step, nestLines_of_some _ found, ih, line]
          cases x.nestLines nesting rest <;> rfl

theorem dropCommonLevel_wrap (level : String) (lines : List Line) :
    dropCommonLevel (lines.map (wrap level)) = lines := by
  have all : ∀ l ∈ lines.map (wrap level), l.nesting.head? = some level := by
    intro l mem
    obtain ⟨inner, -, rfl⟩ := List.mem_map.mp mem
    rfl
  rw [dropCommonLevel_of_shared all, List.map_map]
  exact List.map_id lines

/-- The lines that are nested from the top, less one level that they share. -/
def unwrapped (x : Lexis) (logical : List LogicalLine) : Except ParseError (List Line) :=
  (x.nestLines [] logical).map dropCommonLevel

theorem unwrapped_indent (indents : ∀ c ∈ start, x.indents c = true) {first : LogicalLine}
    (flush : x.indentation first = []) (rest : List LogicalLine) :
    x.unwrapped ((first :: rest).map (LogicalLine.indent start)) = x.unwrapped (first :: rest) := by
  have plain : nest? [] (x.indentation first) = some [] := by rw [flush]; rfl
  by_cases h : start = []
  · subst h
    have same : LogicalLine.indent [] = id := rfl
    rw [same, List.map_id]
  · have level : nest? [] (x.indentation (first.indent start)) = some [.ofList start] := by
      rw [indentation_indent indents, flush, List.append_nil]
      simp [nest?, matchLevels, h]
    have line : x.lineAt [.ofList start] (first.indent start) =
        wrap (.ofList start) (x.lineAt [] first) := by
      rw [lineAt, content_indent indents]
      rfl
    rw [unwrapped, unwrapped, List.map_cons, nestLines_of_some _ level, nestLines_of_some _ plain,
      nestLines_indent indents, line]
    cases x.nestLines [] rest with
    | error fault => rfl
    | ok lines =>
        have shared := dropCommonLevel_wrap (.ofList start) (x.lineAt [] first :: lines)
        have unshared : dropCommonLevel (x.lineAt [] first :: lines) = x.lineAt [] first :: lines :=
          rfl
        simp only [Except.map, unshared]
        exact congrArg Except.ok shared

def Aligned (x : Lexis) (logical : List LogicalLine) : Prop :=
  ∀ first ∈ logical.head?, ∀ l ∈ logical, x.indentation first <+: x.indentation l

/-- Lines that all begin alike come out alike with any other beginning. -/
theorem unwrapped_aligned (indents : ∀ c ∈ start, x.indents c = true) {logical : List LogicalLine}
    (aligned : x.Aligned logical) :
    x.unwrapped (logical.map (LogicalLine.indent start)) = x.unwrapped logical := by
  cases logical with
  | nil => rfl
  | cons first rest =>
      -- What the first line begins with is cut off all lines, and the rest is told by either beginning.
      let own := x.indentation first
      let cut (l : LogicalLine) : LogicalLine := { l with text := l.text.drop own.length }
      have own_indents : ∀ c ∈ own, x.indents c = true := indents_indentation first
      have restore : ∀ l ∈ first :: rest, (cut l).indent own = l := by
        intro l mem
        have begins : own <+: l.text :=
          (aligned first rfl l mem).trans (List.takeWhile_prefix _)
        obtain ⟨number, text⟩ := l
        obtain ⟨later, rfl⟩ := begins
        simp [cut, LogicalLine.indent]
      have flush : x.indentation (cut first) = [] := by
        have whole := indentation_indent own_indents (cut first)
        rw [restore first List.mem_cons_self] at whole
        exact List.self_eq_append_right.mp whole
      have plain : first :: rest = ((first :: rest).map cut).map (LogicalLine.indent own) := by
        rw [List.map_map]
        exact ((List.map_congr_left restore).trans (List.map_id _)).symm
      have further : (first :: rest).map (LogicalLine.indent start) =
          ((first :: rest).map cut).map (LogicalLine.indent (start ++ own)) := by
        conv_lhs => rw [plain, List.map_map]
        congr 1
        funext l
        simp [LogicalLine.indent]
      have both : ∀ c ∈ start ++ own, x.indents c = true :=
        List.forall_mem_append.mpr ⟨indents, own_indents⟩
      rw [further, List.map_cons, unwrapped_indent both flush]
      conv_rhs => rw [plain, List.map_cons, unwrapped_indent own_indents flush]

theorem Levelled.first {first : LogicalLine} {rest : List LogicalLine} {lines : List Line}
    (h : x.Levelled [] (first :: rest) lines) (indented : x.indentation first ≠ []) :
    ∃ level later, level.toList = x.indentation first ∧ lines = x.lineAt [level] first :: later ∧
      x.Levelled [level] rest later := by
  cases h with
  | cons nests parts levelled =>
      cases nests with
      | close shared =>
          rw [List.prefix_nil.mp shared] at parts
          exact absurd parts.symm indented
      | @under level _ =>
          refine ⟨level, _, ?_, rfl, levelled⟩
          simpa using parts

theorem Levelled.shared {level : String} {previous : List String} {logical : List LogicalLine}
    {lines : List Line} (h : x.Levelled (level :: previous) logical lines)
    (indented : ∀ l ∈ logical, x.indentation l ≠ []) :
    ∀ l ∈ lines, l.nesting.head? = some level := by
  generalize above : level :: previous = levels at h
  induction h generalizing previous with
  | nil => nofun
  | @cons levels nesting l rest lines nests parts _ ih =>
      subst above
      obtain ⟨here, later⟩ := List.forall_mem_cons.mp indented
      obtain ⟨deeper, rfl⟩ : ∃ deeper, nesting = level :: deeper := by
        cases nests with
        | under _ => exact ⟨_, rfl⟩
        | close shared =>
            cases nesting with
            | nil => exact absurd parts.symm here
            | cons first deeper =>
                obtain ⟨rfl, -⟩ := List.cons_prefix_cons.mp shared
                exact ⟨deeper, rfl⟩
      exact List.forall_mem_cons.mpr ⟨rfl, ih later rfl⟩

theorem Levelled.begins {level : String} {previous : List String} {logical : List LogicalLine}
    {lines : List Line} (h : x.Levelled previous logical lines)
    (shared : ∀ l ∈ lines, l.nesting.head? = some level) :
    ∀ l ∈ logical, level.toList <+: x.indentation l := by
  induction h with
  | nil => nofun
  | @cons levels nesting l rest lines _ parts _ ih =>
      obtain ⟨here, later⟩ := List.forall_mem_cons.mp shared
      refine List.forall_mem_cons.mpr ⟨?_, ih later⟩
      obtain ⟨deeper, eq⟩ := List.head?_eq_some_iff.mp here
      change nesting = level :: deeper at eq
      subst eq
      rw [← parts, List.flatMap_cons]
      exact List.prefix_append _ _

/-- With something in front, lines that do not begin alike are not nested. -/
theorem nestLines_misaligned (indents : ∀ c ∈ start, x.indents c = true) (h : start ≠ [])
    {logical : List LogicalLine} {lines : List Line}
    (nested : x.nestLines [] (logical.map (LogicalLine.indent start)) = .ok lines) :
    x.Aligned logical := by
  have levelled := (nestLines_eq_ok_iff (by simp)).mp nested
  cases logical with
  | nil => nofun
  | cons first rest =>
      have indented : ∀ l : LogicalLine, x.indentation (l.indent start) ≠ [] := by
        intro l
        rw [indentation_indent indents]
        exact List.append_ne_nil_of_left_ne_nil h _
      have later_indented : ∀ l ∈ rest.map (LogicalLine.indent start), x.indentation l ≠ [] := by
        intro l mem
        obtain ⟨inner, -, rfl⟩ := List.mem_map.mp mem
        exact indented inner
      obtain ⟨level, later, own, -, below⟩ := levelled.first (indented first)
      rw [indentation_indent indents] at own
      have begins := below.begins (below.shared later_indented)
      rintro _ ⟨⟩ l mem
      rcases List.mem_cons.mp mem with rfl | mem
      · exact List.prefix_refl _
      · have here := begins _ (List.mem_map_of_mem mem)
        rw [own, indentation_indent indents] at here
        exact (List.prefix_append_right_inj start).mp here

/-- Without it, they are nested so that no tree can be built. -/
theorem build_misaligned {logical : List LogicalLine} {lines : List Line} {program : Node}
    (read : x.unwrapped logical = .ok lines) (built : Tree.build lines = .ok program) :
    x.Aligned logical := by
  cases logical with
  | nil => nofun
  | cons first rest =>
      rw [unwrapped] at read
      cases nested : x.nestLines [] (first :: rest) with
      | error fault =>
          rw [nested] at read
          cases read
      | ok found =>
          rw [nested] at read
          cases read
          have levelled := (nestLines_eq_ok_iff (by simp)).mp nested
          by_cases flush : x.indentation first = []
          · rintro _ ⟨⟩ l mem
            rw [flush]
            exact List.nil_prefix
          · obtain ⟨level, later, own, rfl, below⟩ := levelled.first flush
            by_cases shared : ∃ common, ∀ l ∈ x.lineAt [level] first :: later,
                l.nesting.head? = some common
            · obtain ⟨common, all⟩ := shared
              obtain ⟨here, others⟩ := List.forall_mem_cons.mp all
              obtain rfl : level = common := Option.some.inj here
              rintro _ ⟨⟩ l mem
              rw [← own]
              rcases List.mem_cons.mp mem with rfl | mem
              · exact own ▸ List.prefix_refl _
              · exact below.begins others l mem
            · rw [dropCommonLevel_of_apart shared] at built
              have deep : Line.room [] < (x.lineAt [level] first).depth := Nat.zero_lt_one
              have refused : Tree.build ([] ++ x.lineAt [level] first :: later) =
                  .error ⟨first.number, .unexpectedIndent⟩ :=
                Tree.build_refused Line.nested_nil deep
              rw [List.nil_append, built] at refused
              cases refused

theorem lines_eq_ok_iff {source : String} {lines : List Line} :
    x.lines source = .ok lines ↔
      (x.logicalLines 1 none (Text.lines source.toList)).2 = none ∧
        x.unwrapped ((x.logicalLines 1 none (Text.lines source.toList)).1.filter x.isKept) =
          .ok lines := by
  unfold Lexis.lines unwrapped
  generalize x.logicalLines 1 none (Text.lines source.toList) = found
  obtain ⟨logical, unfinished⟩ := found
  dsimp only
  cases x.nestLines [] (logical.filter x.isKept) with
  | error fault => simp [bind, Except.bind, Except.map]
  | ok nested => cases unfinished <;> simp [bind, Except.bind, Except.map]

theorem parse_eq_ok_iff {source : String} {program : Node} :
    x.parse source = .ok program ↔ ∃ lines, x.lines source = .ok lines ∧
      Tree.build lines = .ok program ∧ Rules.check [] program = .ok () := by
  constructor
  · intro h
    obtain ⟨lines, read, h⟩ := exists_of_bind_eq_ok h
    obtain ⟨built, build, h⟩ := exists_of_bind_eq_ok h
    obtain ⟨_, keeps, h⟩ := exists_of_bind_eq_ok h
    cases h
    exact ⟨lines, read, build, keeps⟩
  · rintro ⟨lines, read, build, keeps⟩
    exact bind_eq_ok read (bind_eq_ok build (bind_eq_ok keeps rfl))

theorem parse_indentLines (indents : ∀ c ∈ start, x.indents c = true)
    (blank : ∀ c ∈ start, Text.isBlank c = true) (feed : '\n' ∉ start)
    (ret : start.getLast? ≠ some '\r') (h : start ≠ []) (source : String) (program : Node) :
    x.parse (.ofList (Text.indentLines start source.toList)) = .ok program ↔
      x.parse source = .ok program := by
  obtain ⟨indented, gathered, kept⟩ :=
    (x.logicalLines_gathers 1 (Text.lines source.toList)).indent indents blank
  simp only [parse_eq_ok_iff, lines_eq_ok_iff, String.toList_ofList,
    Text.lines_indentLines feed ret]
  rw [gathered.logicalLines_eq, kept]
  generalize (x.logicalLines 1 none (Text.lines source.toList)).1.filter x.isKept = logical
  constructor
  · rintro ⟨lines, ⟨finished, nested⟩, built, keeps⟩
    have aligned : x.Aligned logical := by
      cases found : x.nestLines [] (logical.map (LogicalLine.indent start)) with
      | error fault =>
          rw [unwrapped, found] at nested
          cases nested
      | ok lines => exact nestLines_misaligned indents h found
    exact ⟨lines, ⟨finished, (unwrapped_aligned indents aligned).symm.trans nested⟩, built, keeps⟩
  · rintro ⟨lines, ⟨finished, nested⟩, built, keeps⟩
    have aligned := build_misaligned nested built
    exact ⟨lines, ⟨finished, (unwrapped_aligned indents aligned).trans nested⟩, built, keeps⟩

end Lexis

/-- Indenting a whole source does not change what is read from it: with the same spaces and tabs in
front of each of its lines it gives a program exactly if it did before, and the same one. -/
theorem parse_indented_source (source indent : String) (h : indent ≠ "")
    (blanks : ∀ c ∈ indent.toList, c = ' ' ∨ c = '\t') (program : Node) :
    Lexis.classic.parse (.ofList (Text.indentLines indent.toList source.toList)) = .ok program ↔
      Lexis.classic.parse source = .ok program := by
  apply Lexis.parse_indentLines
  · intro c mem
    exact (indents_classic c).mpr (blanks c mem)
  · intro c mem
    rcases blanks c mem with rfl | rfl <;> decide
  · intro mem
    exact absurd (blanks _ mem) (by decide)
  · intro ends
    exact absurd (blanks _ (List.mem_of_getLast? ends)) (by decide)
  · exact mt String.toList_eq_nil_iff.mp h

namespace Sample

def testSource : String := "if a\n  b"

def testTree (line : Nat) : Node := ⟨.program, 0, "", [⟨.ifTest, 1, "a", [⟨.text, line, "b", []⟩]⟩]⟩

theorem parse_testSource : Lexis.classic.parse testSource = .ok (testTree 2) := by
  refine Lexis.parse_eq_ok_iff.mpr ⟨[⟨1, [], "if a"⟩, ⟨2, ["  "], "b"⟩], ?_, ?_, ?_⟩ <;> rfl

end Sample

/-- The test reads the same behind a tab. -/
theorem parse_indented_tab :
    "\t" ≠ "" ∧ (∀ c ∈ "\t".toList, c = ' ' ∨ c = '\t') ∧
    Text.indentLines "\t".toList Sample.testSource.toList = "\tif a\n\t  b".toList ∧
    Lexis.classic.parse (.ofList (Text.indentLines "\t".toList Sample.testSource.toList)) =
      .ok (Sample.testTree 2) := by
  have indented : Text.indentLines "\t".toList Sample.testSource.toList =
      "\tif a\n\t  b".toList := rfl
  have said : "\t" ≠ "" := by decide
  have blanks : ∀ c ∈ "\t".toList, c = ' ' ∨ c = '\t' := fun _ mem => .inr (List.mem_singleton.mp mem)
  refine ⟨said, blanks, indented, ?_⟩
  exact (parse_indented_source Sample.testSource "\t" said blanks (Sample.testTree 2)).mpr
    Sample.parse_testSource

end Flowchart
