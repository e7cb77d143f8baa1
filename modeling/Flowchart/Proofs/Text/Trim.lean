import Flowchart.Text.Blank
import Mathlib.Data.List.DropRight
/-! What trimming takes off a text and what it leaves, and the lines and words of texts put together
from texts with nothing to trim. -/
namespace Flowchart.Text

theorem dropEndWhile_eq_self {p : Char → Bool} {s : List Char} :
    dropEndWhile p s = s ↔ ∀ c ∈ s.getLast?, p c = false := by
  change s.rdropWhile p = s ↔ _
  rw [List.rdropWhile_eq_self_iff]
  by_cases hne : s = []
  · simp [hne]
  · simp [hne, List.getLast?_eq_some_getLast hne]

theorem trimStart_eq_self {s : List Char} :
    trimStart s = s ↔ ∀ c ∈ s.head?, isBlank c = false := by
  cases s with
  | nil => simp [trimStart]
  | cons c rest => simp [trimStart]

theorem trim_eq_self {s : List Char} :
    trim s = s ↔ (∀ c ∈ s.head?, isBlank c = false) ∧ ∀ c ∈ s.getLast?, isBlank c = false := by
  rw [← trimStart_eq_self, ← dropEndWhile_eq_self]
  constructor
  · intro h
    have hsuffix : trimStart s <:+ s := List.dropWhile_suffix _
    have hpre : dropEndWhile isBlank (trimStart s) <+: trimStart s := List.rdropWhile_prefix _ _
    have hlength : s.length ≤ (trimStart s).length := by
      conv_lhs => rw [← h]
      exact hpre.length_le
    have hstart : trimStart s = s := hsuffix.eq_of_length_le hlength
    refine ⟨hstart, ?_⟩
    rw [trim, trimEnd, hstart] at h
    exact h
  · rintro ⟨hstart, hend⟩
    rw [trim, hstart]
    exact hend

theorem trimEnd_append {s t : List Char} (ht : trim t = t) (hne : t ≠ []) :
    trimEnd (s ++ t) = s ++ t := by
  refine dropEndWhile_eq_self.mpr ?_
  rw [List.getLast?_append_of_ne_nil _ hne]
  exact (trim_eq_self.mp ht).2

theorem trimEnd_append_eq (s t : List Char) :
    trimEnd (s ++ t) = if trimEnd t = [] then trimEnd s else s ++ trimEnd t := by
  simp only [trimEnd, dropEndWhile, List.reverse_append, List.dropWhile_append, List.isEmpty_iff,
    List.reverse_eq_nil_iff]
  split <;> simp

theorem trimEnd_append_cons {c : Char} (visible : isBlank c = false) (s t : List Char) :
    trimEnd (s ++ c :: t) = s ++ c :: trimEnd t := by
  have single : trimEnd [c] = [c] := dropEndWhile_eq_self.mpr (by simp [visible])
  have last : trimEnd (c :: t) = c :: trimEnd t := by
    rw [← List.singleton_append, trimEnd_append_eq, single]
    split
    · next blank => rw [blank]
    · rfl
  rw [trimEnd_append_eq, last, if_neg (List.cons_ne_nil c _)]

theorem trimEnd_blank {s : List Char} (blank : ∀ c ∈ s, isBlank c = true) : trimEnd s = [] :=
  List.rdropWhile_eq_nil_iff.mpr blank

theorem trimEnd_trimEnd (s : List Char) : trimEnd (trimEnd s) = trimEnd s :=
  List.rdropWhile_idempotent isBlank s

theorem trimEnd_dropWhile (p : Char → Bool) (s : List Char) :
    trimEnd ((trimEnd s).dropWhile p) = trimEnd (s.dropWhile p) := by
  have parts : trimEnd s ++ s.rtakeWhile isBlank = s := List.rdropWhile_append_rtakeWhile
  have blank : ∀ c ∈ s.rtakeWhile isBlank, isBlank c = true := fun c => List.mem_rtakeWhile_imp
  conv_rhs => rw [← parts, List.dropWhile_append]
  split
  · next all =>
      have rest_blank : ∀ c ∈ (s.rtakeWhile isBlank).dropWhile p, isBlank c = true :=
        fun c mem => blank c ((List.dropWhile_suffix p).subset mem)
      rw [List.isEmpty_iff.mp all, trimEnd_blank rest_blank]
      rfl
  · rw [trimEnd_append_eq, if_pos (trimEnd_blank blank)]

theorem getLast?_blank {s : List Char} (blank : ∀ c ∈ s, isBlank c = true) :
    s.getLast? ≠ some '\\' := by
  intro ends
  exact absurd (blank _ (List.mem_of_getLast? ends)) (by decide)

theorem lines_append_lineFeed {s rest : List Char} (hfeed : '\n' ∉ s)
    (hreturn : s.getLast? ≠ some '\r') : lines (s ++ '\n' :: rest) = s :: lines rest := by
  induction s with
  | nil => rw [List.nil_append, lines]
  | cons c s ih =>
      have hc : c ≠ '\n' := fun h => hfeed (h ▸ List.mem_cons_self)
      have hs : '\n' ∉ s := fun h => hfeed (List.mem_cons_of_mem _ h)
      have htail : lines (s ++ '\n' :: rest) = s :: lines rest := by
        refine ih hs fun h => hreturn ?_
        rw [List.getLast?_cons, h]
        rfl
      rw [List.cons_append, lines, htail]
      · rintro rfl
        exact hc rfl
      · rintro next rfl hnext
        cases s with
        | nil => exact hreturn rfl
        | cons d s =>
            injection hnext with hd
            exact hs (hd ▸ List.mem_cons_self)

theorem lines_flatMap {texts : List (List Char)}
    (h : ∀ s ∈ texts, '\n' ∉ s ∧ s.getLast? ≠ some '\r') :
    lines (texts.flatMap (· ++ ['\n'])) = texts := by
  induction texts with
  | nil => rfl
  | cons s rest ih =>
      obtain ⟨hfeed, hreturn⟩ := h s List.mem_cons_self
      rw [List.flatMap_cons, List.append_assoc, List.singleton_append,
        lines_append_lineFeed hfeed hreturn, ih fun t ht => h t (List.mem_cons_of_mem _ ht)]

theorem splitWord_append {word rest : List Char} (hword : ∀ c ∈ word, isBlank c = false)
    (hne : word ≠ []) (hrest : trim rest = rest) (hrestne : rest ≠ []) :
    splitWord (word ++ ' ' :: rest) = (word, rest) := by
  have hhead : ∀ c ∈ (word ++ ' ' :: rest).head?, isBlank c = false := by
    cases word with
    | nil => exact absurd rfl hne
    | cons c word => simpa using hword c List.mem_cons_self
  have htrim : trim (word ++ ' ' :: rest) = word ++ ' ' :: rest := by
    refine trim_eq_self.mpr ⟨hhead, ?_⟩
    rw [List.append_cons, List.getLast?_append_of_ne_nil _ hrestne]
    exact (trim_eq_self.mp hrest).2
  have hnot : ∀ c ∈ word, (!isBlank c) = true := fun c hc => by simp [hword c hc]
  have hspace : trim (' ' :: rest) = rest := hrest
  simp only [splitWord]
  rw [htrim, List.takeWhile_append_of_pos hnot, List.dropWhile_append_of_pos hnot,
    List.takeWhile_cons_of_neg (by decide), List.dropWhile_cons_of_neg (by decide), hspace,
    List.append_nil]

theorem splitWord_word {word : List Char} (hword : ∀ c ∈ word, isBlank c = false) :
    splitWord word = (word, []) := by
  have htrim : trim word = word := trim_eq_self.mpr
    ⟨fun c hc => hword c (List.mem_of_mem_head? hc), fun c hc => hword c (List.mem_of_mem_getLast? hc)⟩
  have hnot : ∀ c ∈ word, (!isBlank c) = true := fun c hc => by simp [hword c hc]
  simp only [splitWord]
  rw [htrim, List.takeWhile_eq_self_iff.mpr hnot, List.dropWhile_eq_nil_iff.mpr hnot]
  rfl

end Flowchart.Text
