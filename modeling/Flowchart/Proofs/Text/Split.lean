import Flowchart.Text.Blank
/-! The parts of a text between separators: no part holds a separator, and parts of two texts stand one
after the other when a separator joins the texts. -/
namespace Flowchart.Text
variable {separator : Char} {s t part : List Char}

theorem split_cons_of_ne {c : Char} (ne : c ≠ separator) :
    ∃ first others, split separator s = first :: others ∧
      split separator (c :: s) = (c :: first) :: others := by
  cases parts : split separator s with
  | nil => exact absurd parts (split_ne_nil separator s)
  | cons first others =>
      refine ⟨first, others, rfl, ?_⟩
      rw [split, if_neg (by simpa using ne), parts]

theorem split_cons_self : split separator (separator :: s) = [] :: split separator s := by
  rw [split, if_pos (by simp)]

theorem split_of_not_mem (h : separator ∉ s) : split separator s = [s] := by
  induction s with
  | nil => rfl
  | cons c rest ih =>
      rw [List.mem_cons, not_or] at h
      obtain ⟨first, others, parts, eq⟩ := split_cons_of_ne (s := rest) (Ne.symm h.1)
      rw [ih h.2] at parts
      cases parts
      exact eq

theorem split_append (separator : Char) (s t : List Char) :
    split separator (s ++ separator :: t) = split separator s ++ split separator t := by
  induction s with
  | nil => exact split_cons_self
  | cons c rest ih =>
      by_cases eq : c = separator
      · subst eq
        rw [List.cons_append, split_cons_self, split_cons_self, ih]
        rfl
      · obtain ⟨first, others, parts, here⟩ := split_cons_of_ne (s := rest) eq
        obtain ⟨first', others', parts', here'⟩ :=
          split_cons_of_ne (s := rest ++ separator :: t) eq
        rw [List.cons_append, here', here]
        rw [ih, parts] at parts'
        cases parts'
        rfl

theorem not_mem_of_mem_split (h : part ∈ split separator s) : separator ∉ part := by
  induction s generalizing part with
  | nil =>
      rw [split, List.mem_singleton] at h
      rw [h]
      exact List.not_mem_nil
  | cons c rest ih =>
      by_cases eq : c = separator
      · subst eq
        rw [split_cons_self] at h
        cases h with
        | head => exact List.not_mem_nil
        | tail _ later => exact ih later
      · obtain ⟨first, others, parts, here⟩ := split_cons_of_ne (s := rest) eq
        rw [here] at h
        rw [parts] at ih
        cases h with
        | head =>
            rw [List.mem_cons, not_or]
            exact ⟨Ne.symm eq, ih List.mem_cons_self⟩
        | tail _ later => exact ih (List.mem_cons_of_mem _ later)

end Flowchart.Text
