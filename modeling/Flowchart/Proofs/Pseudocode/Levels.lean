import Flowchart.Proofs.Pseudocode.Lexing
/-! Physical lines, logical lines and levels, said without the scanner. Physical lines gather to logical
ones where a backslash goes on, and each kept line is nested below the one before it. Reading fails at
the first line that is not, and otherwise returns the levels of every line, less one they all share. -/
namespace Flowchart
namespace Lexis
variable {x : Lexis}

/-- A text goes on over physical lines: a backslash at its end gives way to what the next line says. -/
inductive Continues (x : Lexis) : List Char → List (List Char) → List Char → Prop
  | done {text} : Continues x text [] text
  | next {stub raw more text} :
      Continues x (stub ++ Text.trimEnd (raw.dropWhile x.indents)) more text →
      Continues x (stub ++ ['\\']) (raw :: more) text

/-- Physical lines, counted on from a number, gather to logical lines. The number at the end is that of
a line that would go on when there are no more lines. -/
inductive Gathers (x : Lexis) : Nat → List (List Char) → List LogicalLine → Option Nat → Prop
  | done {number} : Gathers x number [] [] none
  | line {number raw more text rest lines unfinished} :
      Continues x (Text.trimEnd raw) more text → text.getLast? ≠ some '\\' →
      Gathers x (number + 1 + more.length) rest lines unfinished →
      Gathers x number (raw :: (more ++ rest)) (⟨number, text⟩ :: lines) unfinished
  | unfinished {number raw more text} :
      Continues x (Text.trimEnd raw) more text → text.getLast? = some '\\' →
      Gathers x number (raw :: more) [] (some number)

/-- The logical lines from a text on that is read so far. -/
def resume (x : Lexis) (number start : Nat) (text : List Char) (rest : List (List Char)) :
    List LogicalLine × Option Nat :=
  if text.getLast? = some '\\' then x.logicalLines number (some (start, text.dropLast)) rest
  else (⟨start, text⟩ :: (x.logicalLines number none rest).1, (x.logicalLines number none rest).2)

theorem logicalLines_cons (number : Nat) (raw : List Char) (rest : List (List Char)) :
    x.logicalLines number none (raw :: rest) =
      x.resume (number + 1) number (Text.trimEnd raw) rest := rfl

theorem logicalLines_pending (number start : Nat) (stub raw : List Char) (rest : List (List Char)) :
    x.logicalLines number (some (start, stub)) (raw :: rest) =
      x.resume (number + 1) start (stub ++ Text.trimEnd (raw.dropWhile x.indents)) rest := rfl

theorem Continues.eq_of_ended {text final : List Char} {more : List (List Char)}
    (h : x.Continues text more final) (ended : text.getLast? ≠ some '\\') :
    more = [] ∧ final = text := by
  cases h with
  | done => exact ⟨rfl, rfl⟩
  | next _ => exact absurd (by simp) ended

theorem Continues.resume_of_ended {text final : List Char} {more : List (List Char)}
    (h : x.Continues text more final) (ended : final.getLast? ≠ some '\\') (number start : Nat)
    (rest : List (List Char)) :
    x.resume number start text (more ++ rest) =
      (⟨start, final⟩ :: (x.logicalLines (number + more.length) none rest).1,
        (x.logicalLines (number + more.length) none rest).2) := by
  induction h generalizing number with
  | done => rw [resume, if_neg ended]; rfl
  | @next stub raw more final _ ih =>
      have total : number + (raw :: more).length = number + 1 + more.length := by
        simp only [List.length_cons]
        omega
      rw [resume, if_pos (by simp), List.dropLast_concat, List.cons_append, logicalLines_pending,
        ih ended, total]

theorem Continues.resume_of_ends {text final : List Char} {more : List (List Char)}
    (h : x.Continues text more final) (ends : final.getLast? = some '\\') (number start : Nat) :
    x.resume number start text more = ([], some start) := by
  induction h generalizing number with
  | done => rw [resume, if_pos ends]; rfl
  | next _ ih =>
      rw [resume, if_pos (by simp), List.dropLast_concat, logicalLines_pending, ih ends]

theorem Gathers.logicalLines_eq {number : Nat} {physical : List (List Char)}
    {lines : List LogicalLine} {unfinished : Option Nat}
    (h : x.Gathers number physical lines unfinished) :
    x.logicalLines number none physical = (lines, unfinished) := by
  induction h with
  | done => rfl
  | line goesOn ended _ ih => rw [logicalLines_cons, goesOn.resume_of_ended ended, ih]
  | unfinished goesOn ends => rw [logicalLines_cons, goesOn.resume_of_ends ends]

theorem exists_continues (x : Lexis) (text : List Char) (rest : List (List Char)) :
    ∃ more others final, rest = more ++ others ∧ x.Continues text more final ∧
      (final.getLast? = some '\\' → others = []) := by
  induction rest generalizing text with
  | nil => exact ⟨[], [], text, rfl, .done, fun _ => rfl⟩
  | cons raw rest ih =>
      by_cases ends : text.getLast? = some '\\'
      · obtain ⟨stub, rfl⟩ := List.getLast?_eq_some_iff.mp ends
        obtain ⟨more, others, final, rfl, goesOn, last⟩ :=
          ih (stub ++ Text.trimEnd (raw.dropWhile x.indents))
        exact ⟨raw :: more, others, final, rfl, .next goesOn, last⟩
      · exact ⟨[], raw :: rest, text, rfl, .done, fun h => absurd h ends⟩

theorem exists_gathers (x : Lexis) (number : Nat) (physical : List (List Char)) :
    ∃ lines unfinished, x.Gathers number physical lines unfinished := by
  induction length : physical.length using Nat.strong_induction_on generalizing number physical with
  | _ size ih =>
      cases physical with
      | nil => exact ⟨[], none, .done⟩
      | cons raw rest =>
          obtain ⟨more, others, text, rfl, goesOn, last⟩ := x.exists_continues (Text.trimEnd raw) rest
          by_cases ends : text.getLast? = some '\\'
          · obtain rfl := last ends
            rw [List.append_nil]
            exact ⟨[], some number, .unfinished goesOn ends⟩
          · have shorter : others.length < size := by
              simp only [List.length_cons, List.length_append] at length
              omega
            obtain ⟨lines, unfinished, later⟩ := ih _ shorter (number + 1 + more.length) others rfl
            exact ⟨_, unfinished, .line goesOn ends later⟩

/-- The scanner finds the logical lines that physical lines gather to, and no others. -/
theorem gathers_iff {number : Nat} {physical : List (List Char)} {lines : List LogicalLine}
    {unfinished : Option Nat} :
    x.Gathers number physical lines unfinished ↔
      x.logicalLines number none physical = (lines, unfinished) := by
  constructor
  · exact Gathers.logicalLines_eq
  · intro h
    obtain ⟨found, rest, gathered⟩ := x.exists_gathers number physical
    have same := gathered.logicalLines_eq.symm.trans h
    cases same
    exact gathered

theorem logicalLines_gathers (x : Lexis) (number : Nat) (physical : List (List Char)) :
    x.Gathers number physical (x.logicalLines number none physical).1
      (x.logicalLines number none physical).2 :=
  gathers_iff.mpr rfl

/-- Physical lines after others that leave no line unfinished gather on their own. -/
theorem Gathers.append {number : Nat} {first rest : List (List Char)}
    {lines later : List LogicalLine} {left unfinished : Option Nat}
    (h : x.Gathers number first lines left) (finished : left = none)
    (onward : x.Gathers (number + first.length) rest later unfinished) :
    x.Gathers number (first ++ rest) (lines ++ later) unfinished := by
  induction h with
  | done => exact onward
  | @line number raw more text others lines left goesOn ended _ ih =>
      have total : number + (raw :: (more ++ others)).length =
          number + 1 + more.length + others.length := by
        simp only [List.length_cons, List.length_append]
        omega
      rw [total] at onward
      rw [List.cons_append, List.append_assoc]
      exact .line goesOn ended (ih finished onward)
  | unfinished => cases finished

/-- A physical line that says nothing where a line may begin: it ends there and is not kept. -/
structure SaysNothing (x : Lexis) (line : List Char) : Prop where
  ended : (Text.trimEnd line).getLast? ≠ some '\\'
  dropped : ∀ number, x.isKept ⟨number, Text.trimEnd line⟩ = false

theorem SaysNothing.blank {line : List Char} (blank : ∀ c ∈ line, Text.isBlank c = true) :
    x.SaysNothing line := by
  constructor
  · rw [Text.trimEnd_blank blank]
    simp
  · intro number
    rw [Text.trimEnd_blank blank]
    simp [isKept, isBlankLine, content]

theorem SaysNothing.gathers {line : List Char} (h : x.SaysNothing line) {number : Nat}
    {rest : List (List Char)} {lines : List LogicalLine} {unfinished : Option Nat}
    (later : x.Gathers (number + 1) rest lines unfinished) :
    x.Gathers number (line :: rest) (⟨number, Text.trimEnd line⟩ :: lines) unfinished :=
  .line .done h.ended later

theorem Gathers.increasing {number : Nat} {physical : List (List Char)}
    {lines : List LogicalLine} {unfinished : Option Nat}
    (h : x.Gathers number physical lines unfinished) :
    (∀ l ∈ lines, number ≤ l.number ∧ l.number < number + physical.length) ∧
      (lines.map LogicalLine.number).Pairwise (· < ·) := by
  induction h with
  | done => simp
  | unfinished => simp
  | line _ _ _ ih =>
      obtain ⟨within, increasing⟩ := ih
      simp only [List.forall_mem_cons, List.map_cons, List.pairwise_cons, List.forall_mem_map,
        List.length_cons, List.length_append]
      refine ⟨⟨by omega, fun l mem => ?_⟩, fun l mem => ?_, increasing⟩
      · have := within l mem
        omega
      · have := within l mem
        omega

/-- An indentation is taken apart into the levels that make it up: some of those before, or all of
them and one more. -/
theorem nest?_eq_some_iff {previous nesting : List String} {indentation : List Char}
    (levels : ∀ level ∈ previous, x.IsLevel level)
    (indents : ∀ c ∈ indentation, x.indents c = true) :
    nest? previous indentation = some nesting ↔
      x.Nests previous nesting ∧ nesting.flatMap String.toList = indentation := by
  constructor
  · intro h
    have parts := flatten_matchLevels previous indentation
    have shared := matchLevels_prefix previous indentation
    rw [nest?] at h
    generalize matchLevels previous indentation = result at parts shared h
    obtain ⟨found, rest⟩ := result
    dsimp only at parts shared h
    split at h
    · next ended =>
        cases h
        rw [List.isEmpty_iff.mp ended, List.append_nil] at parts
        exact ⟨.close shared, parts⟩
    · next more =>
        split at h
        · cases h
        · next all =>
            cases h
            obtain rfl : found = previous := shared.eq_of_length_le (Nat.not_lt.mp all)
            have level : x.IsLevel (.ofList rest) := by
              constructor
              · simpa using more
              · intro c mem
                rw [String.toList_ofList] at mem
                exact indents c (parts ▸ List.mem_append_right _ mem)
            exact ⟨.under level, by simpa using parts⟩
  · rintro ⟨nests, rfl⟩
    exact nest?_flatMap nests levels

theorem nest?_eq_none_iff {previous : List String} {indentation : List Char}
    (levels : ∀ level ∈ previous, x.IsLevel level)
    (indents : ∀ c ∈ indentation, x.indents c = true) :
    nest? previous indentation = none ↔
      ∀ nesting, x.Nests previous nesting → nesting.flatMap String.toList ≠ indentation := by
  rw [Option.eq_none_iff_forall_ne_some]
  simp only [ne_eq, nest?_eq_some_iff levels indents, not_and]

/-- The line that is read from a logical line with the given levels. -/
def lineAt (x : Lexis) (nesting : List String) (l : LogicalLine) : Line :=
  ⟨l.number, nesting, .ofList (Text.trimEnd (x.content l))⟩

/-- Logical lines and what is read of them: the levels of each make up its indentation and are nested
below those of the line before. -/
inductive Levelled (x : Lexis) : List String → List LogicalLine → List Line → Prop
  | nil {previous} : Levelled x previous [] []
  | cons {previous nesting l rest lines} : x.Nests previous nesting →
      nesting.flatMap String.toList = x.indentation l → Levelled x nesting rest lines →
      Levelled x previous (l :: rest) (x.lineAt nesting l :: lines)

/-- The levels below which the next line has to be nested. -/
def lastLevels (previous : List String) (lines : List Line) : List String :=
  (lines.getLast?.map Line.nesting).getD previous

/-- A line is nested nowhere below the lines before it, all of which are levelled. -/
def Misfits (x : Lexis) (previous : List String) (before : List LogicalLine) (l : LogicalLine) :
    Prop :=
  ∃ lines, x.Levelled previous before lines ∧
    ∀ nesting, x.Nests (lastLevels previous lines) nesting →
      nesting.flatMap String.toList ≠ x.indentation l

/-- One level less where all lines begin with the same one. -/
inductive Unwraps : List Line → List Line → Prop
  | shared {lines} (level : String) : (∀ l ∈ lines, l.nesting.head? = some level) →
      Unwraps lines (lines.map fun l => { l with nesting := l.nesting.tail })
  | apart {lines} : (¬ ∃ level, ∀ l ∈ lines, l.nesting.head? = some level) → Unwraps lines lines

theorem indents_indentation (l : LogicalLine) : ∀ c ∈ x.indentation l, x.indents c = true :=
  fun _ mem => List.mem_takeWhile_imp mem

theorem nestLines_of_none {previous : List String} {l : LogicalLine} (rest : List LogicalLine)
    (unfit : nest? previous (x.indentation l) = none) :
    x.nestLines previous (l :: rest) = .error ⟨l.number, .unmatchedIndent⟩ := by
  rw [nestLines, unfit]

theorem nestLines_of_some {previous nesting : List String} {l : LogicalLine}
    (rest : List LogicalLine) (found : nest? previous (x.indentation l) = some nesting) :
    x.nestLines previous (l :: rest) =
      (x.nestLines nesting rest).map (x.lineAt nesting l :: ·) := by
  rw [nestLines, found]
  dsimp only
  cases x.nestLines nesting rest <;> rfl

theorem nestLines_cons_eq_ok_iff {previous : List String} {l : LogicalLine}
    {rest : List LogicalLine} {lines : List Line} :
    x.nestLines previous (l :: rest) = .ok lines ↔ ∃ nesting nested,
      nest? previous (x.indentation l) = some nesting ∧ x.nestLines nesting rest = .ok nested ∧
        x.lineAt nesting l :: nested = lines := by
  cases found : nest? previous (x.indentation l) with
  | none => simp [nestLines_of_none rest found]
  | some nesting =>
      rw [nestLines_of_some rest found]
      cases below : x.nestLines nesting rest <;> simp [Except.map, below]

theorem nestLines_cons_eq_error_iff {previous : List String} {l : LogicalLine}
    {rest : List LogicalLine} {e : ParseError} :
    x.nestLines previous (l :: rest) = .error e ↔
      (nest? previous (x.indentation l) = none ∧ e = ⟨l.number, .unmatchedIndent⟩) ∨
        ∃ nesting, nest? previous (x.indentation l) = some nesting ∧
          x.nestLines nesting rest = .error e := by
  cases found : nest? previous (x.indentation l) with
  | none => simp [nestLines_of_none rest found, eq_comm]
  | some nesting =>
      rw [nestLines_of_some rest found]
      cases below : x.nestLines nesting rest <;> simp [Except.map, below]

theorem nestLines_eq_ok_iff {previous : List String} {logical : List LogicalLine}
    {lines : List Line} (levels : ∀ level ∈ previous, x.IsLevel level) :
    x.nestLines previous logical = .ok lines ↔ x.Levelled previous logical lines := by
  induction logical generalizing previous lines with
  | nil =>
      constructor
      · rintro ⟨⟩
        exact .nil
      · rintro ⟨⟩
        rfl
  | cons l rest ih =>
      rw [nestLines_cons_eq_ok_iff]
      simp only [nest?_eq_some_iff levels (indents_indentation l)]
      constructor
      · rintro ⟨nesting, nested, ⟨nests, parts⟩, below, rfl⟩
        exact .cons nests parts ((ih (nests.levels levels)).mp below)
      · intro h
        cases h with
        | cons nests parts below =>
            exact ⟨_, _, ⟨nests, parts⟩, (ih (nests.levels levels)).mpr below, rfl⟩

theorem lastLevels_cons (previous : List String) (l : Line) (lines : List Line) :
    lastLevels previous (l :: lines) = lastLevels l.nesting lines := by
  cases lines with
  | nil => rfl
  | cons next rest => simp [lastLevels, List.getLast?_cons]

theorem misfits_nil {previous : List String} {l : LogicalLine} :
    x.Misfits previous [] l ↔ ∀ nesting, x.Nests previous nesting →
      nesting.flatMap String.toList ≠ x.indentation l := by
  constructor
  · rintro ⟨lines, ⟨⟩, unfit⟩
    exact unfit
  · intro unfit
    exact ⟨[], .nil, unfit⟩

theorem misfits_cons {previous : List String} {first l : LogicalLine} {before : List LogicalLine} :
    x.Misfits previous (first :: before) l ↔ ∃ nesting, (x.Nests previous nesting ∧
      nesting.flatMap String.toList = x.indentation first) ∧ x.Misfits nesting before l := by
  constructor
  · rintro ⟨lines, levelled, unfit⟩
    cases levelled with
    | cons nests parts below =>
        rw [lastLevels_cons] at unfit
        exact ⟨_, ⟨nests, parts⟩, _, below, unfit⟩
  · rintro ⟨nesting, ⟨nests, parts⟩, lines, below, unfit⟩
    refine ⟨_, .cons nests parts below, ?_⟩
    rw [lastLevels_cons]
    exact unfit

theorem nestLines_eq_error_iff {previous : List String} {logical : List LogicalLine}
    {e : ParseError} (levels : ∀ level ∈ previous, x.IsLevel level) :
    x.nestLines previous logical = .error e ↔ ∃ before l after, logical = before ++ l :: after ∧
      x.Misfits previous before l ∧ e = ⟨l.number, .unmatchedIndent⟩ := by
  induction logical generalizing previous with
  | nil => simp [nestLines]
  | cons l rest ih =>
      rw [nestLines_cons_eq_error_iff, nest?_eq_none_iff levels (indents_indentation l),
        ← misfits_nil]
      simp only [nest?_eq_some_iff levels (indents_indentation l)]
      constructor
      · rintro (⟨unfit, rfl⟩ | ⟨nesting, ⟨nests, parts⟩, below⟩)
        · exact ⟨[], l, rest, rfl, unfit, rfl⟩
        · obtain ⟨before, m, after, rfl, unfit, rfl⟩ := (ih (nests.levels levels)).mp below
          exact ⟨l :: before, m, after, rfl, misfits_cons.mpr ⟨_, ⟨nests, parts⟩, unfit⟩, rfl⟩
      · rintro ⟨before, m, after, same, unfit, rfl⟩
        cases before with
        | nil =>
            cases same
            exact .inl ⟨unfit, rfl⟩
        | cons first before =>
            cases same
            obtain ⟨nesting, ⟨nests, parts⟩, unfit⟩ := misfits_cons.mp unfit
            exact .inr ⟨nesting, ⟨nests, parts⟩,
              (ih (nests.levels levels)).mpr ⟨before, m, after, rfl, unfit, rfl⟩⟩

theorem dropCommonLevel_of_shared {lines : List Line} {level : String}
    (all : ∀ l ∈ lines, l.nesting.head? = some level) :
    dropCommonLevel lines = lines.map fun l => { l with nesting := l.nesting.tail } := by
  cases lines with
  | nil => rfl
  | cons first rest =>
      have head := all first List.mem_cons_self
      have same : ((first :: rest).all (·.nesting.head? == some level)) = true := by
        rw [List.all_eq_true]
        intro l mem
        rw [beq_iff_eq]
        exact all l mem
      simp only [dropCommonLevel, head, if_pos same]

theorem dropCommonLevel_of_apart {lines : List Line}
    (apart : ¬ ∃ level, ∀ l ∈ lines, l.nesting.head? = some level) :
    dropCommonLevel lines = lines := by
  cases lines with
  | nil => rfl
  | cons first rest =>
      cases head : first.nesting.head? with
      | none => simp only [dropCommonLevel, head]
      | some level =>
          have differ : ¬ ((first :: rest).all (·.nesting.head? == some level)) = true := by
            intro same
            rw [List.all_eq_true] at same
            exact apart ⟨level, fun l mem => beq_iff_eq.mp (same l mem)⟩
          simp only [dropCommonLevel, head, if_neg differ]

theorem unwraps_iff {lines unwrapped : List Line} :
    Unwraps lines unwrapped ↔ dropCommonLevel lines = unwrapped := by
  constructor
  · intro h
    cases h with
    | shared level all => exact dropCommonLevel_of_shared all
    | apart differ => exact dropCommonLevel_of_apart differ
  · rintro rfl
    by_cases h : ∃ level, ∀ l ∈ lines, l.nesting.head? = some level
    · obtain ⟨level, all⟩ := h
      rw [dropCommonLevel_of_shared all]
      exact .shared level all
    · rw [dropCommonLevel_of_apart h]
      exact .apart h

theorem Levelled.numbers {previous : List String} {logical : List LogicalLine} {lines : List Line}
    (h : x.Levelled previous logical lines) :
    lines.map Line.number = logical.map LogicalLine.number := by
  induction h with
  | nil => rfl
  | cons _ _ _ ih => rw [List.map_cons, List.map_cons, ih]; rfl

theorem Unwraps.numbers {lines unwrapped : List Line} (h : Unwraps lines unwrapped) :
    unwrapped.map Line.number = lines.map Line.number := by
  cases h with
  | shared => simp
  | apart => rfl

end Lexis

/-- Reading takes indentation apart. It fails at the first kept line that is nested nowhere below the
lines before it, or else at a line that would go on at the end. Otherwise each kept line is returned
with the levels that make up its indentation, less one level that all lines share; the lines are
numbered upwards by the physical lines on which they begin. -/
theorem lines_take_levels (x : Lexis) (source : String) :
    ∃ logical unfinished, x.Gathers 1 (Text.lines source.toList) logical unfinished ∧
      (∀ e, x.lines source = .error e ↔
        (∃ before l after, logical.filter x.isKept = before ++ l :: after ∧
          x.Misfits [] before l ∧ e = ⟨l.number, .unmatchedIndent⟩) ∨
        (∃ number nested, unfinished = some number ∧
          x.Levelled [] (logical.filter x.isKept) nested ∧ e = ⟨number, .unfinishedContinuation⟩)) ∧
      ∀ lines, x.lines source = .ok lines ↔
        unfinished = none ∧ (lines.map Line.number).Pairwise (· < ·) ∧
          ∃ nested, x.Levelled [] (logical.filter x.isKept) nested ∧ Lexis.Unwraps nested lines := by
  have gathered := x.logicalLines_gathers 1 (Text.lines source.toList)
  unfold Lexis.lines
  generalize x.logicalLines 1 none (Text.lines source.toList) = found at gathered ⊢
  obtain ⟨logical, unfinished⟩ := found
  have none_before : ∀ level ∈ ([] : List String), x.IsLevel level := nofun
  refine ⟨logical, unfinished, gathered, fun e => ?_, fun lines => ?_⟩
  · rw [← Lexis.nestLines_eq_error_iff none_before]
    simp only [← Lexis.nestLines_eq_ok_iff none_before]
    cases x.nestLines [] (logical.filter x.isKept) with
    | error fault => simp [bind, Except.bind]
    | ok nested => cases unfinished <;> simp [bind, Except.bind, eq_comm]
  · have increasing : ∀ nested, x.Levelled [] (logical.filter x.isKept) nested →
        Lexis.Unwraps nested lines → (lines.map Line.number).Pairwise (· < ·) := by
      intro nested levelled unwraps
      rw [unwraps.numbers, levelled.numbers]
      exact gathered.increasing.2.sublist (List.filter_sublist.map _)
    simp only [← Lexis.nestLines_eq_ok_iff none_before, Lexis.unwraps_iff] at increasing ⊢
    cases nested : x.nestLines [] (logical.filter x.isKept) with
    | error fault => simp [bind, Except.bind]
    | ok found =>
        rw [nested] at increasing
        cases unfinished with
        | some number => simp [bind, Except.bind]
        | none => simpa [bind, Except.bind] using increasing found rfl

end Flowchart
