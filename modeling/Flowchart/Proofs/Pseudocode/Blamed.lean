import Flowchart.Proofs.Pseudocode.Levels
import Flowchart.Proofs.Pseudocode.Orderly
import Flowchart.Proofs.Pseudocode.Outline
/-! Where errors point. The lines of a program keep the numbers of the physical lines on which they begin,
through joining, nesting, and building, and each stage blames one of the lines that it was given. Main
statement: an error names the first physical line of a logical line, and the excerpt shows that line
between its neighbours. -/
namespace Flowchart

namespace Lexis
variable {x : Lexis}

/-- The number of a logical line that is kept, or of one that would go on at the end. -/
def Begins (x : Lexis) (physical : List (List Char)) (number : Nat) : Prop :=
  ∃ logical unfinished, x.Gathers 1 physical logical unfinished ∧
    ((∃ l ∈ logical, x.isKept l = true ∧ l.number = number) ∨ unfinished = some number)

theorem Gathers.unfinished_within {number last : Nat} {physical : List (List Char)}
    {lines : List LogicalLine} {unfinished : Option Nat}
    (h : x.Gathers number physical lines unfinished) (ends : unfinished = some last) :
    number ≤ last ∧ last < number + physical.length := by
  induction h with
  | done => cases ends
  | line _ _ _ ih =>
      have := ih ends
      simp only [List.length_cons, List.length_append]
      omega
  | unfinished =>
      cases ends
      simp

theorem Begins.within {physical : List (List Char)} {number : Nat} (h : x.Begins physical number) :
    1 ≤ number ∧ number ≤ physical.length := by
  obtain ⟨logical, unfinished, gathered, ⟨l, mem, -, rfl⟩ | ends⟩ := h
  · have := gathered.increasing.1 l mem
    omega
  · have := gathered.unfinished_within ends
    omega

theorem lines_begin (x : Lexis) (source : String) :
    (∀ e, x.lines source = .error e → x.Begins (Text.lines source.toList) e.line) ∧
      ∀ lines, x.lines source = .ok lines →
        ∀ l ∈ lines, x.Begins (Text.lines source.toList) l.number := by
  have gathered := x.logicalLines_gathers 1 (Text.lines source.toList)
  have none_before : ∀ level ∈ ([] : List String), x.IsLevel level := nofun
  unfold Lexis.lines
  generalize x.logicalLines 1 none (Text.lines source.toList) = found at gathered ⊢
  obtain ⟨logical, unfinished⟩ := found
  dsimp only at gathered ⊢
  have kept_begins : ∀ l ∈ logical.filter x.isKept, x.Begins (Text.lines source.toList) l.number :=
    fun l mem => ⟨_, _, gathered, .inl ⟨l, List.mem_of_mem_filter mem, (List.mem_filter.mp mem).2, rfl⟩⟩
  cases nested : x.nestLines [] (logical.filter x.isKept) with
  | error fault =>
      refine ⟨fun e failed => ?_, nofun⟩
      cases failed
      obtain ⟨before, l, after, parts, -, rfl⟩ := (nestLines_eq_error_iff none_before).mp nested
      exact kept_begins l (by simp [parts])
  | ok found =>
      have levelled := (nestLines_eq_ok_iff none_before).mp nested
      cases unfinished with
      | some number =>
          refine ⟨fun e failed => ?_, nofun⟩
          cases failed
          exact ⟨_, _, gathered, .inr rfl⟩
      | none =>
          refine ⟨nofun, fun lines read l mem => ?_⟩
          cases read
          have numbers := (unwraps_iff.mpr (rfl : dropCommonLevel found = _)).numbers.trans levelled.numbers
          have number_mem : l.number ∈ (logical.filter x.isKept).map LogicalLine.number :=
            numbers ▸ List.mem_map_of_mem mem
          obtain ⟨kept, kept_mem, same⟩ := List.mem_map.mp number_mem
          exact same ▸ kept_begins kept kept_mem

end Lexis

namespace Tree

theorem mem_outlineAll {nodes : List Node} {node : Node} (mem : node ∈ nodes) {depth : Nat}
    {entry : Entry} (listed : entry ∈ node.outline depth) : entry ∈ Node.outlineAll depth nodes := by
  induction nodes with
  | nil => cases mem
  | cons first rest ih =>
      rw [Node.outlineAll, List.mem_append]
      rcases List.mem_cons.mp mem with rfl | later
      · exact .inl listed
      · exact .inr (ih later)

theorem outline_eq (node : Node) (depth : Nat) :
    node.outline depth =
      ⟨depth, node.line, node.kind, node.content⟩ :: Node.outlineAll (depth + 1) node.children := by
  obtain ⟨kind, line, content, children⟩ := node
  rw [Node.outline]

theorem listed_of_stands {ancestors above : List NodeKind} {root node : Node}
    (h : Rules.Stands ancestors root above node) (depth : Nat) :
    ∃ entry ∈ root.outline depth, entry.number = node.line := by
  induction h generalizing depth with
  | @top ancestors node =>
      rw [outline_eq]
      exact ⟨_, List.mem_cons_self, rfl⟩
  | inside mem _ ih =>
      obtain ⟨entry, listed, at_line⟩ := ih (depth + 1)
      rw [outline_eq]
      exact ⟨entry, List.mem_cons_of_mem _ (mem_outlineAll mem listed), at_line⟩

theorem stands_child {ancestors above : List NodeKind} {root node child : Node}
    (h : Rules.Stands ancestors root above node) (mem : child ∈ node.children) :
    ∃ above, Rules.Stands ancestors root above child := by
  induction h with
  | top => exact ⟨_, .inside mem .top⟩
  | inside first _ ih =>
      obtain ⟨above, stands⟩ := ih mem
      exact ⟨above, .inside first stands⟩

/-- An error is at the line of the node that breaks a rule, or at that of one of its children. The
program itself breaks none. -/
theorem breach_line {above : List NodeKind} {node : Node} {e : ParseError}
    (h : Rules.Breach above node e) :
    (node.kind ≠ .program ∧ e.line = node.line) ∨ ∃ child ∈ node.children, e.line = child.line := by
  cases h with
  | forLoop kind | breakOutside kind | continueOutside kind => exact .inl ⟨by simp [kind], rfl⟩
  | emptySwitch kind => exact .inl ⟨by simp [kind], rfl⟩
  | stray _ parts => exact .inr ⟨_, by simp [parts], rfl⟩
  | block _ children => exact .inr ⟨_, by simp [children], rfl⟩
  | misplaced parts => exact .inr ⟨_, by simp [parts], rfl⟩

theorem exists_line_of_stands {lines : List Line} {program child node : Node}
    (listed : program.outline 0 = ⟨0, 0, .program, ""⟩ :: lines.map Line.entry)
    (mem : child ∈ program.children) {ancestors above : List NodeKind}
    (stands : Rules.Stands ancestors child above node) : ∃ l ∈ lines, l.number = node.line := by
  obtain ⟨entry, entry_mem, at_line⟩ := listed_of_stands stands 1
  rw [outline_eq] at listed
  have below := mem_outlineAll mem entry_mem
  rw [(List.cons.inj listed).2] at below
  obtain ⟨l, l_mem, rfl⟩ := List.mem_map.mp below
  exact ⟨l, l_mem, at_line⟩

/-- The rules blame a line of the program. -/
theorem check_blames {lines : List Line} {program : Node} {e : ParseError}
    (listed : program.outline 0 = ⟨0, 0, .program, ""⟩ :: lines.map Line.entry)
    (failed : Rules.check [] program = .error e) : ∃ l ∈ lines, l.number = e.line := by
  obtain ⟨above, node, stands, breach⟩ := (Rules.check_judges [] program).reports e failed
  have root : program.kind = .program := by
    rw [outline_eq] at listed
    exact congrArg Entry.kind (List.cons.inj listed).1
  rcases breach_line breach with ⟨kind, at_line⟩ | ⟨child, child_mem, at_line⟩ <;> rw [at_line]
  · cases stands with
    | top => exact absurd root kind
    | inside mem stands => exact exists_line_of_stands listed mem stands
  · cases stands with
    | top =>
        have alone : Rules.Stands [] child [] child := .top
        exact exists_line_of_stands listed child_mem alone
    | inside mem stands =>
        obtain ⟨above, below⟩ := stands_child stands child_mem
        exact exists_line_of_stands listed mem below

theorem build_blames (lines : List Line) :
    (∀ e, build lines = .error e → ∃ l ∈ lines, l.number = e.line) ∧
      ∀ program, build lines = .ok program →
        program.outline 0 = ⟨0, 0, .program, ""⟩ :: lines.map Line.entry := by
  rcases Line.nested_or_deep lines with nested | ⟨before, l, after, rfl, nested, deep⟩
  · obtain ⟨program, built, listed⟩ := build_of_nested nested
    rw [built]
    refine ⟨nofun, fun other same => ?_⟩
    cases same
    exact listed
  · rw [build_refused nested deep]
    refine ⟨fun e failed => ?_, nofun⟩
    cases failed
    exact ⟨l, by simp, rfl⟩

end Tree

/-- Every stage of reading blames a line that begins on a line of the source. -/
theorem Lexis.parse_blames {x : Lexis} {source : String} {e : ParseError}
    (failed : x.parse source = .error e) : x.Begins (Text.lines source.toList) e.line := by
  obtain ⟨misread, read⟩ := x.lines_begin source
  unfold Lexis.parse at failed
  cases scanned : x.lines source with
  | error fault =>
      rw [scanned] at failed
      cases failed
      exact misread e scanned
  | ok lines =>
      have begins {l : Line} (mem : l ∈ lines) : x.Begins (Text.lines source.toList) l.number :=
        read lines scanned l mem
      obtain ⟨unbuilt, listed⟩ := Tree.build_blames lines
      rw [scanned] at failed
      have blamed : ∃ l ∈ lines, l.number = e.line := by
        cases built : Tree.build lines with
        | error fault =>
            exact unbuilt e (by simpa [bind, Except.bind, built] using failed)
        | ok program =>
            refine Tree.check_blames (listed program built) ?_
            cases verdict : Rules.check [] program <;>
              simp [bind, Except.bind, built, verdict] at failed ⊢
            exact failed
      obtain ⟨l, mem, same⟩ := blamed
      exact same ▸ begins mem

namespace Excerpt

/-- A row shows the physical line of its number, behind the number at the right of a column and a mark if
it is the line that is meant. -/
def Shows (physical : List (List Char)) (width target number : Nat) (row : List Char) : Prop :=
  ∃ pad line, physical[number - 1]? = some line ∧ (∀ c ∈ pad, c = ' ') ∧
    (pad ++ Nat.toDigits 10 number).length = width ∧
    row = (if number = target then '>' else ' ') :: ' ' :: (pad ++ Nat.toDigits 10 number) ++
      " | ".toList ++ line ++ ['\n']

theorem length_toDigits_mono {m n : Nat} (h : m ≤ n) :
    (Nat.toDigits 10 m).length ≤ (Nat.toDigits 10 n).length := by
  have base : 1 < 10 := by decide
  rw [Nat.length_toDigits_le_iff base Nat.length_toDigits_pos]
  exact Nat.lt_of_le_of_lt h ((Nat.length_toDigits_le_iff base Nat.length_toDigits_pos).mp le_rfl)

theorem shows_row {physical : List (List Char)} {width target number : Nat} {line : List Char}
    (at_number : physical[number - 1]? = some line) (fits : (Nat.toDigits 10 number).length ≤ width) :
    Shows physical width target number (row width target number line) := by
  refine ⟨List.replicate (width - (Nat.toDigits 10 number).length) ' ', line, at_number, ?_, ?_, rfl⟩
  · exact fun c mem => List.eq_of_mem_replicate mem
  · rw [List.length_append, List.length_replicate]
    omega

theorem rows_show {physical shown : List (List Char)} {width target number : Nat} (pos : 1 ≤ number)
    (part : ∀ i (h : i < shown.length), physical[number - 1 + i]? = some shown[i])
    (fits : ∀ i < shown.length, (Nat.toDigits 10 (number + i)).length ≤ width) :
    ∃ found, rows width target number shown = found.flatten ∧
      List.Forall₂ (Shows physical width target) (List.range' number shown.length) found := by
  induction shown generalizing number with
  | nil => exact ⟨[], rfl, .nil⟩
  | cons line rest ih =>
      have part_next : ∀ i (h : i < rest.length), physical[number + 1 - 1 + i]? = some rest[i] := by
        intro i h
        have next : number + 1 - 1 + i = number - 1 + (i + 1) := by omega
        rw [next]
        exact part (i + 1) (Nat.succ_lt_succ h)
      have fits_next : ∀ i < rest.length, (Nat.toDigits 10 (number + 1 + i)).length ≤ width := by
        intro i h
        rw [Nat.add_assoc, Nat.add_comm 1]
        exact fits (i + 1) (Nat.succ_lt_succ h)
      obtain ⟨found, parts, shows⟩ := ih (Nat.le_add_left 1 number) part_next fits_next
      refine ⟨row width target number line :: found, by rw [rows, parts]; rfl, ?_⟩
      rw [List.length_cons, List.range'_succ]
      exact .cons (shows_row (part 0 (Nat.succ_pos _)) (fits 0 (Nat.succ_pos _))) shows

/-- The excerpt around a line of the source shows the lines up to five before and after it. -/
theorem around_shows {source : String} {line : Nat} (pos : 1 ≤ line)
    (within : line ≤ (Text.lines source.toList).length) :
    ∃ width found, (around source line).toList = found.flatten ∧
      List.Forall₂ (Shows (Text.lines source.toList) width line)
        (List.range' (max 1 (line - 5))
          (min (Text.lines source.toList).length (line + 5) + 1 - max 1 (line - 5))) found := by
  unfold around
  dsimp only
  generalize Text.lines source.toList = physical at within ⊢
  have filled : ¬ physical.isEmpty = true := by
    rw [List.isEmpty_iff]
    rintro rfl
    exact absurd (Nat.le_trans pos within) (by decide)
  have target : min (max line 1) physical.length = line := by omega
  have first : max (line - radius) 1 = max 1 (line - 5) := Nat.max_comm ..
  have last : min (line + radius) physical.length = min physical.length (line + 5) := Nat.min_comm ..
  rw [if_neg filled, target, first, last, String.toList_ofList]
  generalize low_eq : max 1 (line - 5) = low
  generalize high_eq : min physical.length (line + 5) = high
  have length : ((physical.drop (low - 1)).take (high + 1 - low)).length = high + 1 - low := by
    rw [List.length_take, List.length_drop]
    omega
  have part : ∀ i (h : i < ((physical.drop (low - 1)).take (high + 1 - low)).length),
      physical[low - 1 + i]? = some ((physical.drop (low - 1)).take (high + 1 - low))[i] := by
    intro i h
    rw [length] at h
    rw [List.getElem_take, List.getElem_drop, List.getElem?_eq_getElem]
  have fits : ∀ i < ((physical.drop (low - 1)).take (high + 1 - low)).length,
      (Nat.toDigits 10 (low + i)).length ≤ (Nat.toDigits 10 high).length :=
    fun i h => length_toDigits_mono (by omega)
  have shown := @rows_show physical _ _ line low (by omega) part fits
  rw [length] at shown
  exact ⟨_, shown⟩

end Excerpt

/-- Every error points into the source, whatever indents and begins comments: it names the first physical
line of a logical line that is kept or never ends, and its excerpt shows the lines up to five before and
after that one, in order, each behind its number in a column, with a mark on that line alone. -/
theorem parse_points_into_source (x : Lexis) (source : String) (e : ParseError)
    (failed : x.parse source = .error e) :
    let physical := Text.lines source.toList
    (1 ≤ e.line ∧ e.line ≤ physical.length) ∧ x.Begins physical e.line ∧
      ∃ width rows, (Excerpt.around source e.line).toList = rows.flatten ∧
        List.Forall₂ (Excerpt.Shows physical width e.line)
          (List.range' (max 1 (e.line - 5))
            (min physical.length (e.line + 5) + 1 - max 1 (e.line - 5))) rows := by
  have begins := Lexis.parse_blames failed
  have within := begins.within
  exact ⟨within, begins, Excerpt.around_shows within.1 within.2⟩

namespace Sample

def strayJump : String := "a\\\n  b\n\nd\ne\nbreak\ng\nh\ni\nj\nk\nl"

end Sample

/-- The jump is on line six of twelve, so the excerpt has room for five lines on both sides. -/
theorem parse_points_at_jump :
    Lexis.classic.parse Sample.strayJump = .error ⟨6, .breakOutside⟩ ∧
      Lexis.classic.Begins (Text.lines Sample.strayJump.toList) 6 ∧
      ∃ width rows, (Excerpt.around Sample.strayJump 6).toList = rows.flatten ∧
        List.Forall₂ (Excerpt.Shows (Text.lines Sample.strayJump.toList) width 6)
          (List.range' 1 11) rows := by
  have read : Lexis.classic.lines Sample.strayJump =
      .ok [⟨1, [], "ab"⟩, ⟨4, [], "d"⟩, ⟨5, [], "e"⟩, ⟨6, [], "break"⟩, ⟨7, [], "g"⟩, ⟨8, [], "h"⟩,
        ⟨9, [], "i"⟩, ⟨10, [], "j"⟩, ⟨11, [], "k"⟩, ⟨12, [], "l"⟩] := by decide +kernel
  have failed : Lexis.classic.parse Sample.strayJump = .error ⟨6, .breakOutside⟩ := by
    unfold Lexis.parse
    rw [read]
    rfl
  have length : (Text.lines Sample.strayJump.toList).length = 12 := by decide +kernel
  obtain ⟨-, begins, shows⟩ := parse_points_into_source _ _ _ failed
  rw [length] at shows
  exact ⟨failed, begins, shows⟩

end Flowchart
