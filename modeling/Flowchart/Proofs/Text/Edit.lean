import Flowchart.Proofs.Text.Trim
/-! Texts edited line by line: something written in front of every line, and a line put in between two
others. A text is taken apart at its first line feed, and the edits go from line to line. -/
namespace Flowchart.Text

/-- A text is one line without a feed, or goes on after its first line feed. -/
@[elab_as_elim]
theorem lines_induction {motive : List Char → Prop} (nil : motive [])
    (last : ∀ line, line ≠ [] → '\n' ∉ line → motive line)
    (feed : ∀ line rest, '\n' ∉ line → motive rest → motive (line ++ '\n' :: rest))
    (s : List Char) : motive s := by
  induction length : s.length using Nat.strong_induction_on generalizing s with
  | _ size ih =>
      by_cases mem : '\n' ∈ s
      · obtain ⟨line, rest, rfl, first⟩ := List.eq_append_cons_of_mem mem
        have shorter : rest.length < size := by
          simp only [List.length_append, List.length_cons] at length
          omega
        exact feed line rest first (ih _ shorter rest rfl)
      · by_cases h : s = []
        · exact h ▸ nil
        · exact last s h mem

theorem lines_cons {c : Char} {s first : List Char} {others : List (List Char)} (feed : c ≠ '\n')
    (next : s.head? ≠ some '\n') (h : lines s = first :: others) :
    lines (c :: s) = (c :: first) :: others := by
  rw [lines, h]
  · exact feed
  · rintro rest rfl rfl
    exact next rfl

def dropReturn (line : List Char) : List Char :=
  if line.getLast? = some '\r' then line.dropLast else line

theorem lines_of_not_mem {line : List Char} (h : line ≠ []) (feed : '\n' ∉ line) :
    lines line = [line] := by
  induction line with
  | nil => exact absurd rfl h
  | cons c rest ih =>
      rw [List.mem_cons, not_or] at feed
      cases rest with
      | nil => simp [lines, Ne.symm feed.1]
      | cons d rest =>
          have next : (d :: rest).head? ≠ some '\n' := by
            intro eq
            exact feed.2 (List.mem_of_mem_head? eq)
          exact lines_cons (Ne.symm feed.1) next (ih (List.cons_ne_nil d rest) feed.2)

theorem lines_return {line : List Char} (feed : '\n' ∉ line) (rest : List Char) :
    lines (line ++ '\r' :: '\n' :: rest) = line :: lines rest := by
  induction line with
  | nil => rw [List.nil_append, lines]
  | cons c line ih =>
      rw [List.mem_cons, not_or] at feed
      have next : (line ++ '\r' :: '\n' :: rest).head? ≠ some '\n' := by
        cases line with
        | nil => simp
        | cons d line =>
            intro eq
            exact feed.2 (List.mem_of_mem_head? eq)
      exact lines_cons (Ne.symm feed.1) next (ih feed.2)

theorem lines_feed {line : List Char} (feed : '\n' ∉ line) (rest : List Char) :
    lines (line ++ '\n' :: rest) = dropReturn line :: lines rest := by
  by_cases ret : line.getLast? = some '\r'
  · obtain ⟨body, rfl⟩ := List.getLast?_eq_some_iff.mp ret
    have body_feed : '\n' ∉ body := fun mem => feed (List.mem_append_left _ mem)
    rw [dropReturn, if_pos ret, List.dropLast_concat, ← lines_return body_feed rest]
    simp
  · rw [lines_append_lineFeed feed ret, dropReturn, if_neg ret]

/-- A text with something written wherever a line begins; `fresh` tells whether one begins here. -/
def indentFrom (start : List Char) (fresh : Bool) : List Char → List Char
  | [] => []
  | c :: rest => (if fresh then start else []) ++ c :: indentFrom start (c == '\n') rest

/-- A text with something written in front of each of its lines. -/
def indentLines (start s : List Char) : List Char := indentFrom start true s

section Indent
variable {start : List Char}

theorem indentFrom_line {line : List Char} (feed : '\n' ∉ line) (rest : List Char) :
    indentFrom start false (line ++ rest) = line ++ indentFrom start false rest := by
  induction line with
  | nil => rfl
  | cons c line ih =>
      rw [List.mem_cons, not_or] at feed
      have inside : (c == '\n') = false := by simpa using Ne.symm feed.1
      simp [indentFrom, inside, ih feed.2]

theorem indentLines_of_ne_nil {s : List Char} (h : s ≠ []) :
    indentLines start s = start ++ indentFrom start false s := by
  cases s with
  | nil => exact absurd rfl h
  | cons c rest => simp [indentLines, indentFrom]

theorem indentLines_last {line : List Char} (h : line ≠ []) (feed : '\n' ∉ line) :
    indentLines start line = start ++ line := by
  have whole : indentFrom start false (line ++ []) = line ++ indentFrom start false [] :=
    indentFrom_line feed []
  rw [List.append_nil] at whole
  rw [indentLines_of_ne_nil h, whole, indentFrom, List.append_nil]

theorem indentLines_feed {line : List Char} (feed : '\n' ∉ line) (rest : List Char) :
    indentLines start (line ++ '\n' :: rest) = start ++ line ++ '\n' :: indentLines start rest := by
  rw [indentLines_of_ne_nil (by simp), indentFrom_line feed]
  simp [indentFrom, indentLines]

theorem lines_indentLines (clean : '\n' ∉ start) (ends : start.getLast? ≠ some '\r')
    (s : List Char) : lines (indentLines start s) = (lines s).map (start ++ ·) := by
  induction s using lines_induction with
  | nil => rfl
  | last line h feed =>
      have both : '\n' ∉ start ++ line := by simp [clean, feed]
      rw [indentLines_last h feed, lines_of_not_mem h feed,
        lines_of_not_mem (List.append_ne_nil_of_right_ne_nil start h) both]
      rfl
  | feed line rest feed ih =>
      have both : '\n' ∉ start ++ line := by simp [clean, feed]
      have ret : dropReturn (start ++ line) = start ++ dropReturn line := by
        unfold dropReturn
        by_cases h : line = []
        · simp [h, ends]
        · rw [List.getLast?_append_of_ne_nil _ h, List.dropLast_append_of_ne_nil h]
          split <;> rfl
      rw [indentLines_feed feed, lines_feed both, lines_feed feed, ih, ret]
      rfl

end Indent

/-- A text with a line put in after its first lines; if need be the last of these is ended first. -/
def insertLine (line : List Char) : Nat → List Char → List Char
  | 0, s => line ++ '\n' :: s
  | before + 1, s =>
    s.takeWhile (· != '\n') ++ '\n' :: insertLine line before (s.dropWhile (· != '\n')).tail

section Insert
variable {line : List Char}

theorem forall_ne_feed {first : List Char} (feed : '\n' ∉ first) :
    ∀ c ∈ first, (c != '\n') = true := by
  intro c mem
  rw [bne_iff_ne]
  rintro rfl
  exact feed mem

theorem insertLine_last {first : List Char} (feed : '\n' ∉ first) (before : Nat) :
    insertLine line (before + 1) first = first ++ '\n' :: insertLine line before [] := by
  have all := forall_ne_feed feed
  rw [insertLine, List.takeWhile_eq_self_iff.mpr all, List.dropWhile_eq_nil_iff.mpr all]
  rfl

theorem insertLine_feed {first : List Char} (feed : '\n' ∉ first) (before : Nat)
    (rest : List Char) :
    insertLine line (before + 1) (first ++ '\n' :: rest) =
      first ++ '\n' :: insertLine line before rest := by
  have all := forall_ne_feed feed
  rw [insertLine, List.takeWhile_append_of_pos all, List.dropWhile_append_of_pos all]
  simp

theorem trimEnd_dropReturn (line : List Char) : trimEnd (dropReturn line) = trimEnd line := by
  by_cases ret : line.getLast? = some '\r'
  · obtain ⟨body, rfl⟩ := List.getLast?_eq_some_iff.mp ret
    rw [dropReturn, if_pos ret, List.dropLast_concat]
    exact (List.rdropWhile_concat_pos isBlank body '\r' (by decide)).symm
  · rw [dropReturn, if_neg ret]

/-- A line put in is one more line. The ends of lines may lose a carriage return, which trimming does
not show. -/
theorem lines_insertLine (feed : '\n' ∉ line) (before : Nat) (s : List Char)
    (inside : before ≤ (lines s).length) :
    (lines (insertLine line before s)).map trimEnd =
      ((lines s).take before ++ line :: (lines s).drop before).map trimEnd := by
  induction before generalizing s with
  | zero =>
      rw [insertLine, lines_feed feed]
      simp [trimEnd_dropReturn]
  | succ before ih =>
      cases s using lines_induction with
      | nil => simp [lines] at inside
      | last first h free =>
          rw [lines_of_not_mem h free] at inside
          have later := ih [] (by simpa [lines] using inside)
          rw [insertLine_last free, lines_feed free, lines_of_not_mem h free, List.map_cons, later,
            trimEnd_dropReturn]
          simp [lines]
      | feed first rest free =>
          rw [lines_feed free] at inside
          have later := ih rest (by simpa using inside)
          rw [insertLine_feed free, lines_feed free, lines_feed free, List.map_cons, later]
          simp

end Insert

end Flowchart.Text
