import Flowchart.Lane.RangeSet
import Flowchart.Proofs.Lane.Order
/-! The search for a position that is free in two sets of ranges. It ends: each round that does not
settle moves the position to a stop of the second set or to its floor, and there are only so many. -/
namespace Flowchart.RangeSet
open Scalar (isNumber)
open LawfulScalar

variable {α : Type} [Scalar α] [LawfulScalar α]

def Stops (spans : List (Span α)) : Prop := ∀ span ∈ spans, isNumber span.stop

/-- An advance never moves back, and it ends where it began or at a stop. -/
theorem advance_spec (size : α) {pos : α} {spans : List (Span α)} (hpos : isNumber pos)
    (hs : Stops spans) :
    pos ≤ advance size pos spans ∧
      (advance size pos spans = pos ∨ ∃ span ∈ spans, advance size pos spans = span.stop) := by
  induction spans generalizing pos with
  | nil => exact ⟨le_refl hpos, .inl rfl⟩
  | cons span rest ih =>
      have hrest : Stops rest := fun s hm => hs s (List.mem_cons_of_mem _ hm)
      have hspan : isNumber span.stop := hs span List.mem_cons_self
      unfold advance
      split
      · obtain ⟨hle, hend⟩ := ih hpos hrest
        exact ⟨hle, hend.imp_right fun ⟨s, hm, h⟩ => ⟨s, List.mem_cons_of_mem _ hm, h⟩⟩
      · split
        · exact ⟨le_refl hpos, .inl rfl⟩
        · next hstop _ =>
            obtain ⟨hle, hend⟩ := ih hspan hrest
            refine ⟨le_trans (le_of_not_le hspan hpos hstop) hle, .inr ?_⟩
            rcases hend with h | ⟨s, hm, h⟩
            · exact ⟨span, List.mem_cons_self, h⟩
            · exact ⟨s, List.mem_cons_of_mem _ hm, h⟩

theorem mem_bracketed {r : RangeSet α} {span : Span α} (h : span ∈ r.bracketed) :
    span ∈ r.spans ∨ isNumber span.stop := by
  simp only [bracketed, List.mem_append, Option.mem_toList, Option.map_eq_some_iff] at h
  rcases h with (⟨x, hx, rfl⟩ | h) | ⟨x, hx, rfl⟩
  · exact .inr (number_of_mem_ends (.inl hx))
  · exact .inl h
  · exact .inr (number_of_mem_ends (.inr hx))

theorem stops_bracketed {r : RangeSet α} (h : Stops r.spans) : Stops r.bracketed :=
  fun span hm => (mem_bracketed hm).elim (h span) id

omit [LawfulScalar α] in
theorem length_bracketed (r : RangeSet α) : r.bracketed.length ≤ r.spans.length + 2 := by
  unfold bracketed
  cases (Scalar.least : Option α) <;> cases (Scalar.greatest : Option α) <;> simp

theorem raise_spec (r : RangeSet α) {pos : α} (hpos : isNumber pos) :
    pos ≤ r.raise pos ∧ (r.raise pos = pos ∨ r.floor = some (r.raise pos)) := by
  unfold raise
  cases hf : r.floor with
  | none => exact ⟨le_refl hpos, .inl rfl⟩
  | some floor =>
      refine ⟨le_max_left hpos, ?_⟩
      by_cases hfloor : isNumber floor
      · rcases max_number hpos hfloor with ⟨h, -⟩ | ⟨h, -⟩
        · exact .inl h
        · exact .inr (congrArg some h.symm)
      · exact .inl (max_undefined hpos hfloor)

theorem firstFit_spec {r : RangeSet α} (hr : Stops r.spans) {start : α} (size : α)
    (hstart : isNumber start) :
    start ≤ r.firstFit start size ∧
      (r.firstFit start size = start ∨ r.floor = some (r.firstFit start size) ∨
        ∃ span ∈ r.bracketed, r.firstFit start size = span.stop) := by
  obtain ⟨hle, hraise⟩ := r.raise_spec hstart
  have hnumber := (number_of_le hle).2
  obtain ⟨hadv, hend⟩ := advance_spec (max size 0) hnumber (stops_bracketed hr)
  refine ⟨le_trans hle hadv, ?_⟩
  unfold firstFit
  rcases hend with h | h
  · rw [h]
    exact hraise.imp_right .inl
  · exact .inr (.inr h)

theorem isNumber_firstFit {r : RangeSet α} (hr : Stops r.spans) (start size : α) :
    isNumber (r.firstFit start size) := by
  by_cases hraise : isNumber (r.raise start)
  · exact (number_of_le (advance_spec _ hraise (stops_bracketed hr)).1).2
  · -- An undefined position lies behind no end of the axis, and the first end replaces it.
    obtain ⟨least, hleast, hnumber⟩ := least_le hraise
    have hfirst : r.bracketed = ⟨least, least⟩ :: r.bracketed.tail := by
      simp [bracketed, hleast]
    have hstops : Stops r.bracketed.tail :=
      fun s hm => stops_bracketed hr s (List.mem_of_mem_tail hm)
    unfold firstFit
    rw [hfirst, advance, if_neg fun h => hraise (number_of_le h).2,
      if_neg fun h => hraise (number_of_add (number_of_le h).1)]
    exact (number_of_le (advance_spec _ hnumber hstops).1).2

/-- How many stops of a set, its floor among them, a position has not passed. -/
def ahead (r : RangeSet α) (pos : α) : Nat :=
  (r.bracketed.map Span.stop ++ r.floor.toList).countP fun y => !decide (y ≤ pos)

omit [LawfulScalar α] in
theorem ahead_le (r : RangeSet α) {pos next : α} (h : ∀ y : α, y ≤ pos → y ≤ next) :
    r.ahead next ≤ r.ahead pos := by
  refine List.countP_mono_left fun y _ hy => ?_
  simp only [Bool.not_eq_true', decide_eq_false_iff_not] at hy ⊢
  exact fun hle => hy (h y hle)

theorem countP_lt_of_mem {β : Type*} {p q : β → Bool} {l : List β} {y : β}
    (h : ∀ x ∈ l, p x = true → q x = true) (hy : y ∈ l) (hp : p y = false) (hq : q y = true) :
    l.countP p < l.countP q := by
  induction l with
  | nil => cases hy
  | cons x rest ih =>
      have hrest : rest.countP p ≤ rest.countP q :=
        List.countP_mono_left fun z hz => h z (List.mem_cons_of_mem _ hz)
      rw [List.countP_cons, List.countP_cons]
      rcases List.mem_cons.mp hy with rfl | hy
      · rw [hp, hq, if_neg Bool.false_ne_true, if_pos rfl]
        exact Nat.lt_succ_of_le hrest
      · have hlt := ih (fun z hz => h z (List.mem_cons_of_mem _ hz)) hy
        have hx := h x List.mem_cons_self
        split_ifs with hpx hqx
        · exact Nat.add_lt_add_right hlt 1
        · exact absurd (hx hpx) hqx
        · exact Nat.lt_succ_of_lt hlt
        · exact hlt

theorem ahead_lt (r : RangeSet α) {pos next : α} (hle : pos ≤ next) (hne : ¬ next ≤ pos)
    (hnext : next ∈ r.bracketed.map Span.stop ++ r.floor.toList) : r.ahead next < r.ahead pos := by
  refine countP_lt_of_mem (fun y _ hy => ?_) hnext ?_ ?_
  · simp only [Bool.not_eq_true', decide_eq_false_iff_not] at hy ⊢
    exact fun h => hy (le_trans h hle)
  · simpa using le_refl (number_of_le hle).2
  · simpa using hne

omit [LawfulScalar α] in
theorem ahead_le_length (r : RangeSet α) (pos : α) : r.ahead pos ≤ r.spans.length + 3 := by
  refine Nat.le_trans List.countP_le_length ?_
  have := r.length_bracketed
  cases r.floor <;> simp <;> omega

/-- With more rounds than there are stops ahead, the sets agree. -/
theorem agree?_isSome {a b : RangeSet α} (ha : Stops a.spans) (hb : Stops b.spans) (size : α)
    (rounds : Nat) (pos : α) (h : b.ahead pos < rounds) : (agree? a b size rounds pos).isSome := by
  induction rounds generalizing pos with
  | zero => cases h
  | succ rounds ih =>
      have hA : isNumber (a.firstFit pos size) := isNumber_firstFit ha pos size
      unfold agree?
      dsimp only
      split
      · rfl
      · next hne =>
          obtain ⟨hle, hend⟩ := firstFit_spec hb size hA
          have hback : ¬ b.firstFit (a.firstFit pos size) size ≤ a.firstFit pos size :=
            fun hge => hne (beq_iff.mpr ⟨hge, hle⟩)
          have hstop : b.firstFit (a.firstFit pos size) size ∈
              b.bracketed.map Span.stop ++ b.floor.toList := by
            rcases hend with h | h | ⟨span, hm, h⟩
            · refine absurd ?_ hback
              rw [h]
              exact LawfulScalar.le_refl hA
            · exact List.mem_append_right _ (Option.mem_toList.mpr h)
            · exact List.mem_append_left _ (List.mem_map.mpr ⟨span, hm, h.symm⟩)
          have hpos : b.ahead (a.firstFit pos size) ≤ b.ahead pos :=
            b.ahead_le fun y hy =>
              le_trans hy (firstFit_spec ha size (number_of_le hy).2).1
          exact ih _ (by have := b.ahead_lt hle hback hstop; omega)

/-- The search of two sets whose ranges stop at numbers ends. -/
theorem commonFit?_isSome {a b : RangeSet α} (ha : Stops a.spans) (hb : Stops b.spans)
    (start size : α) : (a.commonFit? b start size).isSome :=
  agree?_isSome ha hb size _ start (Nat.lt_succ_of_le (b.ahead_le_length start))

theorem stops_join {span : Span α} {spans : List (Span α)} (hspan : isNumber span.stop)
    (hs : Stops spans) : Stops (join span spans) := by
  have hothers : Stops (spans.drop (spans.takeWhile fun s => !decide (span.start ≤ s.stop)).length) :=
    fun s hm => hs s (List.mem_of_mem_drop hm)
  intro s hm
  unfold join at hm
  dsimp only at hm
  rcases List.mem_append.mp hm with h | h
  · exact hs s (List.takeWhile_subset _ h)
  · rcases List.mem_cons.mp h with rfl | h
    · split
      · next last _ hlast =>
          exact isNumber_max (hothers last
            (List.takeWhile_subset _ (List.mem_of_getLast? hlast)))
      · exact hspan
    · exact hothers s (List.mem_of_mem_drop h)

theorem stops_reserve {r : RangeSet α} (hr : Stops r.spans) (start size : α) :
    Stops (r.reserve start size).spans := by
  unfold reserve
  dsimp only
  split
  · exact hr
  · next h =>
      rw [not_or, not_not] at h
      exact stops_join (number_of_isFinite h.2) hr

theorem stops_fold {r : RangeSet α} (hr : Stops r.spans) (other : RangeSet α) :
    Stops (r.fold other).spans := by
  unfold fold
  induction other.spans generalizing r with
  | nil => exact hr
  | cons span rest ih => exact ih (stops_reserve hr span.start (span.stop - span.start))

end Flowchart.RangeSet
