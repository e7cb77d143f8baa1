import Mathlib
import Flowchart.Proofs.Output.Markup
/-! What is escaped holds no markup and can be read back: one pass from the left that undoes the five
entities gives the text that was escaped. Numbers hold no markup either. -/
namespace Flowchart.Svg

def entity (c : Char) : List Char :=
  if c = '&' then ['&', 'a', 'm', 'p', ';']
  else if c = '<' then ['&', 'l', 't', ';']
  else if c = '>' then ['&', 'g', 't', ';']
  else if c = '"' then ['&', 'q', 'u', 'o', 't', ';']
  else if c = '\'' then ['&', 'a', 'p', 'o', 's', ';']
  else [c]

/-- The five replacements, one after the other, replace each character by itself. -/
theorem toList_escape (s : String) : (escape s).toList = s.toList.flatMap entity := by
  simp only [escape, String.toList_ofList, replaced, List.flatMap_assoc]
  refine List.flatMap_congr fun c _ => ?_
  by_cases special : c ∈ ['&', '<', '>', '"', '\'']
  · simp only [List.mem_cons, List.not_mem_nil, or_false] at special
    rcases special with rfl | rfl | rfl | rfl | rfl <;> rfl
  · simp only [List.mem_cons, List.not_mem_nil, or_false, not_or] at special
    obtain ⟨amp, lt, gt, quot, apos⟩ := special
    simp only [entity, if_neg amp, if_neg lt, if_neg gt, if_neg quot, if_neg apos,
      List.flatMap_cons, List.flatMap_nil, List.append_nil]

/-- One pass from the left that undoes the entities. -/
def unescape : List Char → List Char
  | '&' :: 'a' :: 'm' :: 'p' :: ';' :: rest => '&' :: unescape rest
  | '&' :: 'l' :: 't' :: ';' :: rest => '<' :: unescape rest
  | '&' :: 'g' :: 't' :: ';' :: rest => '>' :: unescape rest
  | '&' :: 'q' :: 'u' :: 'o' :: 't' :: ';' :: rest => '"' :: unescape rest
  | '&' :: 'a' :: 'p' :: 'o' :: 's' :: ';' :: rest => '\'' :: unescape rest
  | c :: rest => c :: unescape rest
  | [] => []

theorem unescape_cons {c : Char} (h : c ≠ '&') (rest : List Char) :
    unescape (c :: rest) = c :: unescape rest := by
  conv_lhs => unfold unescape
  split <;> simp_all

theorem unescape_entity (c : Char) (rest : List Char) :
    unescape (entity c ++ rest) = c :: unescape rest := by
  unfold entity
  split_ifs with amp lt gt quot apos
  · subst amp; simp [unescape]
  · subst lt; simp [unescape]
  · subst gt; simp [unescape]
  · subst quot; simp [unescape]
  · subst apos; simp [unescape]
  · exact unescape_cons amp rest

theorem unescape_escape (s : String) : unescape (escape s).toList = s.toList := by
  rw [toList_escape]
  induction s.toList with
  | nil => rfl
  | cons c rest ih => rw [List.flatMap_cons, unescape_entity, ih]

theorem plain_escape (s : String) : Plain (escape s) := by
  intro c mem
  rw [toList_escape, List.mem_flatMap] at mem
  obtain ⟨x, -, mem⟩ := mem
  have written : ∀ e ∈ [['&', 'a', 'm', 'p', ';'], ['&', 'l', 't', ';'], ['&', 'g', 't', ';'],
      ['&', 'q', 'u', 'o', 't', ';'], ['&', 'a', 'p', 'o', 's', ';']],
      ∀ c ∈ e, isMark c = false := by
    simp [isMark]
  unfold entity at mem
  split_ifs at mem with amp lt gt quot apos
  case neg =>
    rw [List.mem_singleton.1 mem]
    simp [isMark, lt, gt, quot, apos]
  all_goals exact written _ (by simp) c mem

open Decimal

theorem not_isMark_of_isDigit {c : Char} (h : c.isDigit = true) : isMark c = false := by
  have differs {mark : Char} (other : mark.isDigit = false) : (c == mark) = false :=
    beq_eq_false_iff_ne.2 fun same => by rw [same, other] at h; exact nomatch h
  simp only [isMark, differs (show '<'.isDigit = false by decide),
    differs (show '>'.isDigit = false by decide), differs (show '"'.isDigit = false by decide),
    differs (show '\''.isDigit = false by decide), Bool.or_self]

theorem digitsText_no_marks (n : Nat) : ∀ c ∈ digitsText n, isMark c = false := fun _ mem =>
  not_isMark_of_isDigit (Nat.isDigit_of_mem_toDigits (by decide) (by decide) mem)

theorem zeros_no_marks (n : Nat) : ∀ c ∈ zeros n, isMark c = false := fun c mem => by
  rw [List.eq_of_mem_replicate mem]
  rfl

theorem pointed_no_marks {digits : List Char} (h : ∀ c ∈ digits, isMark c = false) (places : Nat) :
    ∀ c ∈ pointed digits places, isMark c = false := by
  have padded : ∀ c ∈ zeros (places + 1 - digits.length) ++ digits, isMark c = false :=
    fun c mem => (List.mem_append.1 mem).elim (zeros_no_marks _ c) (h c)
  intro c mem
  rw [pointed, List.mem_append, List.mem_cons] at mem
  rcases mem with whole | rfl | part
  · exact padded c (List.mem_of_mem_take whole)
  · rfl
  · exact padded c (List.mem_of_mem_drop part)

theorem plainText_no_marks (wholePoint : Bool) (d : Numeral) :
    ∀ c ∈ plainText wholePoint d, isMark c = false := by
  unfold plainText
  split
  · intro c mem
    rw [List.mem_append, List.mem_append] at mem
    rcases mem with (digit | zero) | point
    · exact digitsText_no_marks _ c digit
    · exact zeros_no_marks _ c zero
    · cases wholePoint with
      | false => exact absurd point List.not_mem_nil
      | true =>
        rcases List.mem_pair.1 point with rfl | rfl <;> rfl
  · exact pointed_no_marks (digitsText_no_marks _) _

theorem plain_signed (negative : Bool) {size : List Char} (h : ∀ c ∈ size, isMark c = false) :
    Plain (.ofList (if negative then '-' :: size else size)) := by
  intro c mem
  rw [String.toList_ofList] at mem
  split at mem
  · rcases List.mem_cons.1 mem with rfl | mem
    · rfl
    · exact h c mem
  · exact h c mem

theorem plain_infinite (negative : Bool) : Plain (if negative then "-inf" else "inf") := by
  cases negative <;> decide

theorem plain_number (x : Float32) : Plain (number x) := by
  unfold number twoPlaces
  cases patternSingle x with
  | finite negative significand exponent =>
    exact plain_signed negative (pointed_no_marks (digitsText_no_marks _) 2)
  | infinite negative => exact plain_infinite negative
  | undefined => exact (by decide : Plain "NaN")

theorem plain_bare (x : Float32) : Plain (NumberStyle.bare.single x) := by
  unfold NumberStyle.single NumberStyle.write
  cases patternSingle x with
  | finite negative significand exponent =>
    refine plain_signed negative ?_
    split
    · exact plainText_no_marks _ _
    · exact plainText_no_marks _ _
  | infinite negative => exact plain_infinite negative
  | undefined => exact (by decide : Plain "NaN")

end Flowchart.Svg
