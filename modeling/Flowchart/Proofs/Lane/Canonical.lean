import Flowchart.Lane.RangeSet
import Flowchart.Proofs.Lane.Search
/-! The form of a set of ranges: finite ranges above the floor, in order and without contact. Reserving
keeps this form and adds the positions asked for, and a set in this form is known by its positions. -/
namespace Flowchart.RangeSet
open Scalar (isNumber)
open LawfulScalar

variable {α : Type} [Scalar α]

/-- The positions that are reserved. -/
def Holds (r : RangeSet α) (x : α) : Prop := ∃ s ∈ r.spans, s.start ≤ x ∧ x < s.stop

/-- Ranges in order, none of which is empty or touches the next. -/
structure Coalesced (spans : List (Span α)) : Prop where
  forward : ∀ s ∈ spans, s.start < s.stop
  apart : spans.Pairwise fun s t => s.stop < t.start

structure Canonical (r : RangeSet α) : Prop extends Coalesced r.spans where
  finite : ∀ s ∈ r.spans, Scalar.isFinite s.start = true ∧ Scalar.isFinite s.stop = true
  above : ∀ f ∈ r.floor, isNumber f → ∀ s ∈ r.spans, f ≤ s.start

theorem canonical_nil (floor : Option α) : Canonical ⟨floor, []⟩ :=
  ⟨⟨nofun, .nil⟩, nofun, fun _ _ _ => nofun⟩

/-- The span that takes the place of those it touches. -/
def joined (span : Span α) (touched : List (Span α)) : Span α :=
  match touched.head?, touched.getLast? with
  | some first, some last => ⟨min first.start span.start, max last.stop span.stop⟩
  | _, _ => span

/-- Two spans with the same ends, as numbers. -/
def Same (s t : Span α) : Prop := (s.start == t.start) = true ∧ (s.stop == t.stop) = true

/-- Where a range ends that is asked for by its start and its length. -/
def rebuilt (s : Span α) : α := s.start + (s.stop - s.start)

/-- Lists that hold the same positions. -/
def Agree (as bs : List (Span α)) : Prop :=
  ∀ x, (∃ s ∈ as, s.start ≤ x ∧ x < s.stop) ↔ ∃ s ∈ bs, s.start ≤ x ∧ x < s.stop

/-- The positions that a request asks for, from the floor on. A request with no finite
end asks for none. -/
def Asked (floor : Option α) (start size x : α) : Prop :=
  Scalar.isFinite (start + size) = true ∧ (⟨floor, []⟩ : RangeSet α).raise start ≤ x ∧ x < start + size

/-- What one set asks for when it is folded into another. -/
def requests (spans : List (Span α)) : List (α × α) := spans.map fun s => (s.start, s.stop - s.start)

def reserveAll (r : RangeSet α) (requests : List (α × α)) : RangeSet α :=
  requests.foldl (fun r q => r.reserve q.1 q.2) r

variable [LawfulScalar α]

namespace Coalesced
variable {s t : Span α} {rest spans : List (Span α)}

omit [LawfulScalar α] in
theorem sublist {part : List (Span α)} (h : Coalesced spans) (hpart : part.Sublist spans) :
    Coalesced part :=
  ⟨fun s hs => h.forward s (hpart.subset hs), h.apart.sublist hpart⟩

omit [LawfulScalar α] in
theorem tail (h : Coalesced (s :: rest)) : Coalesced rest := h.sublist (List.sublist_cons_self s rest)

omit [LawfulScalar α] in
theorem stop_lt_start (h : Coalesced (s :: rest)) (ht : t ∈ rest) : s.stop < t.start :=
  (List.pairwise_cons.mp h.apart).1 t ht

theorem number (h : Coalesced spans) (hs : s ∈ spans) : isNumber s.start ∧ isNumber s.stop :=
  number_of_le (le_of_lt (h.forward s hs))

theorem start_le (h : Coalesced (s :: rest)) (ht : t ∈ s :: rest) : s.start ≤ t.start := by
  rcases List.mem_cons.mp ht with rfl | hrest
  · exact le_refl (h.number ht).1
  · exact le_trans (le_of_lt (h.forward s List.mem_cons_self)) (le_of_lt (h.stop_lt_start hrest))

theorem stop_le (h : Coalesced (s :: rest)) (ht : t ∈ s :: rest) : s.stop ≤ t.stop := by
  rcases List.mem_cons.mp ht with rfl | hrest
  · exact le_refl (h.number ht).2
  · exact le_of_lt (lt_of_lt_of_le (h.stop_lt_start hrest) (le_of_lt (h.forward t ht)))

theorem stop_le_getLast {last : Span α} (h : Coalesced spans) (hlast : spans.getLast? = some last)
    (ht : t ∈ spans) : t.stop ≤ last.stop := by
  obtain ⟨init, rfl⟩ := List.getLast?_eq_some_iff.mp hlast
  have hmem : last ∈ init ++ [last] := List.mem_append_right _ (List.mem_singleton_self last)
  rcases List.mem_append.mp ht with hinit | hself
  · have hstep := (List.pairwise_append.mp h.apart).2.2 t hinit last (List.mem_singleton_self last)
    exact le_of_lt (lt_of_lt_of_le hstep (le_of_lt (h.forward last hmem)))
  · rw [List.mem_singleton.mp hself]
    exact le_refl (h.number hmem).2

end Coalesced

omit [Scalar α] [LawfulScalar α] in
theorem drop_takeWhile {β : Type} (f : β → Bool) (l : List β) :
    l.drop (l.takeWhile f).length = l.dropWhile f := by
  have h : (l.takeWhile f ++ l.dropWhile f).drop (l.takeWhile f).length = l.dropWhile f :=
    List.drop_left
  rwa [List.takeWhile_append_dropWhile] at h

theorem join_split {span : Span α} {spans : List (Span α)} (hspan : span.start < span.stop)
    (hs : Coalesced spans) :
    ∃ before touched after, spans = before ++ touched ++ after ∧
      join span spans = before ++ joined span touched :: after ∧
      (∀ s ∈ before, s.stop < span.start) ∧
      (∀ s ∈ touched, span.start ≤ s.stop ∧ s.start ≤ span.stop) ∧
      ∀ s ∈ after, span.stop < s.start := by
  obtain ⟨hstart, hstop⟩ := number_of_le (le_of_lt hspan)
  have hbefore : ∀ s ∈ spans.takeWhile fun s => !decide (span.start ≤ s.stop),
      s.stop < span.start := by
    intro s h
    have hnot : ¬ span.start ≤ s.stop := by simpa using List.mem_takeWhile_imp h
    exact lt_of_not_le hstart (hs.number (List.takeWhile_subset _ h)).2 hnot
  have hothers : Coalesced (spans.dropWhile fun s => !decide (span.start ≤ s.stop)) :=
    hs.sublist (List.dropWhile_sublist _)
  have hreach : ∀ s ∈ spans.dropWhile fun s => !decide (span.start ≤ s.stop),
      span.start ≤ s.stop := by
    have hfirst := List.head?_dropWhile_not (fun s : Span α => !decide (span.start ≤ s.stop)) spans
    generalize (spans.dropWhile fun s => !decide (span.start ≤ s.stop)) = others at *
    cases others with
    | nil => exact nofun
    | cons first rest =>
        have hfirst' : span.start ≤ first.stop := by simpa using hfirst
        exact fun s h => le_trans hfirst' (hothers.stop_le h)
  have hsplit := List.takeWhile_append_dropWhile
    (p := fun s : Span α => !decide (span.start ≤ s.stop)) (l := spans)
  unfold join
  dsimp only
  rw [drop_takeWhile]
  generalize (spans.takeWhile fun s => !decide (span.start ≤ s.stop)) = before at *
  generalize (spans.dropWhile fun s => !decide (span.start ≤ s.stop)) = others at *
  have hafter : ∀ s ∈ others.dropWhile fun s => decide (s.start ≤ span.stop),
      span.stop < s.start := by
    have hlater := hothers.sublist (List.dropWhile_sublist fun s => decide (s.start ≤ span.stop))
    have hfirst := List.head?_dropWhile_not (fun s : Span α => decide (s.start ≤ span.stop)) others
    generalize (others.dropWhile fun s => decide (s.start ≤ span.stop)) = after at *
    cases after with
    | nil => exact nofun
    | cons first rest =>
        have hnot : ¬ first.start ≤ span.stop := by simpa using hfirst
        have hfirst' := lt_of_not_le (hlater.number List.mem_cons_self).1 hstop hnot
        exact fun s h => lt_of_lt_of_le hfirst' (hlater.start_le h)
  rw [drop_takeWhile]
  refine ⟨before, others.takeWhile fun s => decide (s.start ≤ span.stop),
    others.dropWhile fun s => decide (s.start ≤ span.stop), ?_, ?_, hbefore, ?_, hafter⟩
  · rw [List.append_assoc, List.takeWhile_append_dropWhile, hsplit]
  · unfold joined
    generalize others.takeWhile (fun s => decide (s.start ≤ span.stop)) = touched
    cases touched.head? <;> cases touched.getLast? <;> rfl
  · intro s h
    exact ⟨hreach s (List.takeWhile_subset _ h), by simpa using List.mem_takeWhile_imp h⟩

/-- The joined span begins and ends with the new span or with one that it touches, and it holds
what these hold. -/
theorem joined_spec {span : Span α} {touched : List (Span α)} (hspan : span.start < span.stop)
    (ht : Coalesced touched)
    (htouch : ∀ s ∈ touched, span.start ≤ s.stop ∧ s.start ≤ span.stop) :
    ((joined span touched).start = span.start ∨
        ∃ s ∈ touched, (joined span touched).start = s.start) ∧
      ((joined span touched).stop = span.stop ∨
        ∃ s ∈ touched, (joined span touched).stop = s.stop) ∧
      (joined span touched).start ≤ span.start ∧ span.stop ≤ (joined span touched).stop ∧
      ∀ x, (joined span touched).start ≤ x ∧ x < (joined span touched).stop ↔
        (span.start ≤ x ∧ x < span.stop) ∨ ∃ s ∈ touched, s.start ≤ x ∧ x < s.stop := by
  obtain ⟨hstart, hstop⟩ := number_of_le (le_of_lt hspan)
  cases touched with
  | nil =>
      refine ⟨.inl rfl, .inl rfl, le_refl hstart, le_refl hstop, fun x => ?_⟩
      exact (or_iff_left (by simp)).symm
  | cons first rest =>
      obtain ⟨last, hlast⟩ : ∃ last, (first :: rest).getLast? = some last :=
        ⟨_, List.getLast?_eq_getLast_of_ne_nil (List.cons_ne_nil first rest)⟩
      have hfirstMem : first ∈ first :: rest := List.mem_cons_self
      have hlastMem : last ∈ first :: rest := List.mem_of_getLast? hlast
      have heq : joined span (first :: rest) =
          ⟨min first.start span.start, max last.stop span.stop⟩ := by
        unfold joined
        rw [hlast]
        rfl
      rw [heq]
      dsimp only
      have hmin := min_number (ht.number hfirstMem).1 hstart
      have hmax := max_number (ht.number hlastMem).2 hstop
      have hlow : min first.start span.start ≤ span.start ∧
          min first.start span.start ≤ first.start := by
        rcases hmin with ⟨h, hle⟩ | ⟨h, hle⟩ <;> rw [h]
        · exact ⟨hle, le_refl (ht.number hfirstMem).1⟩
        · exact ⟨le_refl hstart, hle⟩
      have hhigh : span.stop ≤ max last.stop span.stop ∧ last.stop ≤ max last.stop span.stop := by
        rcases hmax with ⟨h, hle⟩ | ⟨h, hle⟩ <;> rw [h]
        · exact ⟨hle, le_refl (ht.number hlastMem).2⟩
        · exact ⟨le_refl hstop, hle⟩
      refine ⟨hmin.symm.imp And.left fun h => ⟨first, hfirstMem, h.1⟩,
        hmax.symm.imp And.left fun h => ⟨last, hlastMem, h.1⟩, hlow.1, hhigh.1, fun x => ⟨?_, ?_⟩⟩
      · -- What lies before the new span lies in the first touched, what lies behind it in the last.
        rintro ⟨hxstart, hxstop⟩
        have hx := (number_of_le hxstart).2
        by_cases hbefore : span.start ≤ x
        · by_cases hbehind : span.stop ≤ x
          · refine .inr ⟨last, hlastMem, le_trans (htouch last hlastMem).2 hbehind, ?_⟩
            rcases hmax with ⟨h, -⟩ | ⟨h, -⟩
            · exact h ▸ hxstop
            · exact absurd hbehind (not_le_of_lt (h ▸ hxstop))
          · exact .inl ⟨hbefore, lt_of_not_le hstop hx hbehind⟩
        · refine .inr ⟨first, hfirstMem, ?_,
            lt_of_lt_of_le (lt_of_not_le hstart hx hbefore) (htouch first hfirstMem).1⟩
          rcases hmin with ⟨h, -⟩ | ⟨h, -⟩
          · exact h ▸ hxstart
          · exact absurd (h ▸ hxstart) hbefore
      · rintro (⟨hxstart, hxstop⟩ | ⟨s, hs, hxstart, hxstop⟩)
        · exact ⟨le_trans hlow.1 hxstart, lt_of_lt_of_le hxstop hhigh.1⟩
        · exact ⟨le_trans (le_trans hlow.2 (ht.start_le hs)) hxstart,
            lt_of_lt_of_le hxstop (le_trans (ht.stop_le_getLast hlast hs) hhigh.2)⟩

section Join
variable {span : Span α} {spans : List (Span α)}

theorem coalesced_join (hspan : span.start < span.stop) (hs : Coalesced spans) :
    Coalesced (join span spans) := by
  obtain ⟨before, touched, after, hsplit, heq, hbefore, htouch, hafter⟩ := join_split hspan hs
  rw [hsplit] at hs
  have hparts := hs.apart
  rw [List.pairwise_append, List.pairwise_append] at hparts
  obtain ⟨⟨hbeforeApart, -, hbeforeTouched⟩, hafterApart, hcross⟩ := hparts
  have htouched : Coalesced touched :=
    hs.sublist ((List.sublist_append_right _ _).trans (List.sublist_append_left _ _))
  obtain ⟨hstart, hstop, hlow, hhigh, -⟩ := joined_spec hspan htouched htouch
  rw [heq]
  constructor
  · intro s hmem
    rcases List.mem_append.mp hmem with h | h
    · exact hs.forward s (by simp [h])
    · rcases List.mem_cons.mp h with rfl | h
      · exact lt_of_le_of_lt hlow (lt_of_lt_of_le hspan hhigh)
      · exact hs.forward s (by simp [h])
  · refine List.pairwise_append.mpr ⟨hbeforeApart, List.pairwise_cons.mpr ⟨?_, hafterApart⟩, ?_⟩
    · intro t ht
      rcases hstop with h | ⟨u, hu, h⟩
      · exact h ▸ hafter t ht
      · exact h ▸ hcross u (List.mem_append_right _ hu) t ht
    · intro s hsmem t ht
      rcases List.mem_cons.mp ht with rfl | ht
      · rcases hstart with h | ⟨u, hu, h⟩
        · exact h ▸ hbefore s hsmem
        · exact h ▸ hbeforeTouched s hsmem u hu
      · exact hcross s (List.mem_append_left _ hsmem) t ht

/-- Every range of a joined list begins where the new span or an old range does, and ends so. -/
theorem ends_join (hspan : span.start < span.stop) (hs : Coalesced spans) :
    ∀ t ∈ join span spans, (t.start = span.start ∨ ∃ s ∈ spans, t.start = s.start) ∧
      (t.stop = span.stop ∨ ∃ s ∈ spans, t.stop = s.stop) := by
  obtain ⟨before, touched, after, rfl, heq, -, htouch, -⟩ := join_split hspan hs
  have htouched : Coalesced touched :=
    hs.sublist ((List.sublist_append_right _ _).trans (List.sublist_append_left _ _))
  obtain ⟨hstart, hstop, -⟩ := joined_spec hspan htouched htouch
  rw [heq]
  intro t ht
  rcases List.mem_append.mp ht with h | h
  · exact ⟨.inr ⟨t, by simp [h], rfl⟩, .inr ⟨t, by simp [h], rfl⟩⟩
  · rcases List.mem_cons.mp h with rfl | h
    · exact ⟨hstart.imp_right fun ⟨s, hm, h⟩ => ⟨s, by simp [hm], h⟩,
        hstop.imp_right fun ⟨s, hm, h⟩ => ⟨s, by simp [hm], h⟩⟩
    · exact ⟨.inr ⟨t, by simp [h], rfl⟩, .inr ⟨t, by simp [h], rfl⟩⟩

theorem mem_join (hspan : span.start < span.stop) (hs : Coalesced spans) (x : α) :
    (∃ t ∈ join span spans, t.start ≤ x ∧ x < t.stop) ↔
      (∃ s ∈ spans, s.start ≤ x ∧ x < s.stop) ∨ span.start ≤ x ∧ x < span.stop := by
  obtain ⟨before, touched, after, rfl, heq, -, htouch, -⟩ := join_split hspan hs
  have htouched : Coalesced touched :=
    hs.sublist ((List.sublist_append_right _ _).trans (List.sublist_append_left _ _))
  obtain ⟨-, -, -, -, hjoined⟩ := joined_spec hspan htouched htouch
  simp only [heq, List.mem_append, List.mem_cons, or_and_right, exists_or, exists_eq_left, hjoined,
    or_assoc, or_comm, or_left_comm]

end Join

section Reserve
variable {r : RangeSet α}

theorem le_raise (r : RangeSet α) {start f : α} (hstart : isNumber start) (hf : f ∈ r.floor)
    (hnumber : isNumber f) : f ≤ r.raise start := by
  unfold raise
  rw [Option.mem_def.mp hf]
  exact le_max_right hstart hnumber

omit [LawfulScalar α] in
@[simp]
theorem floor_reserve (r : RangeSet α) (start size : α) :
    (r.reserve start size).floor = r.floor := by
  unfold reserve
  dsimp only
  split <;> rfl

theorem request_spec {start size : α}
    (h : ¬ (start + size ≤ r.raise start ∨ ¬ Scalar.isFinite (start + size) = true)) :
    r.raise start < start + size ∧ Scalar.isFinite (r.raise start) = true ∧
      ∀ f ∈ r.floor, isNumber f → f ≤ r.raise start := by
  rw [not_or, not_not] at h
  obtain ⟨hnot, hfinite⟩ := h
  have hstart := finite_of_add hfinite
  have hnumber := number_of_isFinite hstart
  have hraise := (r.raise_spec hnumber).1
  have hlt := lt_of_not_le (number_of_isFinite hfinite) (number_of_le hraise).2 hnot
  exact ⟨hlt, finite_of_between hraise (le_of_lt hlt) hstart hfinite, fun f => le_raise r hnumber⟩

theorem canonical_reserve (hr : Canonical r) (start size : α) :
    Canonical (r.reserve start size) := by
  unfold reserve
  dsimp only
  split
  · exact hr
  · next h =>
      obtain ⟨hlt, hraise, habove⟩ := request_spec h
      rw [not_or, not_not] at h
      have hends := ends_join (show Span.start ⟨r.raise start, start + size⟩ < _ from hlt)
        hr.toCoalesced
      refine ⟨coalesced_join hlt hr.toCoalesced, fun t ht => ?_, fun f hf hnumber t ht => ?_⟩
      · obtain ⟨hstart, hstop⟩ := hends t ht
        constructor
        · rcases hstart with h | ⟨s, hs, h⟩
          · exact h ▸ hraise
          · exact h ▸ (hr.finite s hs).1
        · rcases hstop with hstop | ⟨s, hs, hstop⟩
          · exact hstop ▸ h.2
          · exact hstop ▸ (hr.finite s hs).2
      · rcases (hends t ht).1 with h | ⟨s, hs, h⟩
        · exact h ▸ habove f hf hnumber
        · exact h ▸ hr.above f hf hnumber s hs

theorem holds_reserve (hr : Canonical r) (start size x : α) :
    (r.reserve start size).Holds x ↔ r.Holds x ∨ Asked r.floor start size x := by
  unfold reserve
  dsimp only
  split
  · next h =>
      refine (or_iff_left ?_).symm
      rintro ⟨hfinite, hlow, hhigh⟩
      rcases h with h | h
      · exact not_le_of_lt hhigh (le_trans h hlow)
      · exact h hfinite
  · next h =>
      obtain ⟨hlt, -⟩ := request_spec h
      rw [not_or, not_not] at h
      refine (mem_join (show Span.start ⟨r.raise start, start + size⟩ < _ from hlt)
        hr.toCoalesced x).trans ?_
      exact or_congr_right (and_iff_right h.2).symm

end Reserve

omit [LawfulScalar α] in
theorem fold_eq (r other : RangeSet α) : r.fold other = r.reserveAll (requests other.spans) := by
  unfold reserveAll requests
  rw [List.foldl_map]
  rfl

/-- Requests keep the form, and a set holds what it held and all that was asked for. -/
theorem reserveAll_spec {r : RangeSet α} (hr : Canonical r) (requests : List (α × α)) :
    Canonical (r.reserveAll requests) ∧ (r.reserveAll requests).floor = r.floor ∧
      ∀ x, (r.reserveAll requests).Holds x ↔
        r.Holds x ∨ ∃ q ∈ requests, Asked r.floor q.1 q.2 x := by
  induction requests generalizing r with
  | nil => exact ⟨hr, rfl, fun x => (or_iff_left (by simp)).symm⟩
  | cons q rest ih =>
      obtain ⟨hcanonical, hfloor, hholds⟩ := ih (canonical_reserve hr q.1 q.2)
      rw [floor_reserve] at hfloor hholds
      refine ⟨hcanonical, hfloor, fun x => (hholds x).trans ?_⟩
      rw [holds_reserve hr, or_assoc, List.exists_mem_cons_iff]

/-- A set holds what it held and what is rebuilt from the ranges of the other, from its floor on. -/
theorem holds_fold {r : RangeSet α} (hr : Canonical r) (other : RangeSet α) (x : α) :
    (r.fold other).Holds x ↔ r.Holds x ∨
      ∃ s ∈ other.spans, Scalar.isFinite (rebuilt s) = true ∧ r.raise s.start ≤ x ∧ x < rebuilt s := by
  rw [fold_eq]
  refine ((reserveAll_spec hr _).2.2 x).trans (or_congr_right ?_)
  simp only [requests, List.mem_map, exists_exists_and_eq_and]
  rfl

theorem canonical_fold {r : RangeSet α} (hr : Canonical r) (other : RangeSet α) :
    Canonical (r.fold other) := by
  rw [fold_eq]
  exact (reserveAll_spec hr _).1

omit [LawfulScalar α] in
theorem floor_fold (r other : RangeSet α) : (r.fold other).floor = r.floor := by
  unfold fold
  induction other.spans generalizing r with
  | nil => rfl
  | cons s rest ih => exact (ih _).trans (r.floor_reserve _ _)

section Unique
variable {s t : Span α} {as bs : List (Span α)}

omit [LawfulScalar α] in
theorem Agree.symm (h : Agree as bs) : Agree bs as := fun x => (h x).symm

theorem Agree.start_le (h : Agree (s :: as) (t :: bs)) (ha : Coalesced (s :: as))
    (hb : Coalesced (t :: bs)) : s.start ≤ t.start := by
  have hself := le_refl (hb.number List.mem_cons_self).1
  obtain ⟨u, hu, hle, -⟩ :=
    (h t.start).mpr ⟨t, List.mem_cons_self, hself, hb.forward t List.mem_cons_self⟩
  exact le_trans (ha.start_le hu) hle

/-- Were the first range of one list to end before that of the other, its end would be held by
the other list alone. -/
theorem Agree.stop_le (h : Agree (s :: as) (t :: bs)) (ha : Coalesced (s :: as))
    (hb : Coalesced (t :: bs)) : s.stop ≤ t.stop := by
  by_contra hnot
  have hlt := lt_of_not_le (ha.number List.mem_cons_self).2 (hb.number List.mem_cons_self).2 hnot
  have hheld : s.start ≤ t.stop :=
    le_trans (h.start_le ha hb) (le_of_lt (hb.forward t List.mem_cons_self))
  obtain ⟨u, hu, hle, hstop⟩ := (h t.stop).mp ⟨s, List.mem_cons_self, hheld, hlt⟩
  rcases List.mem_cons.mp hu with rfl | hrest
  · exact not_le_of_lt hstop (le_refl (number_of_le hle).2)
  · exact not_le_of_lt (hb.stop_lt_start hrest) hle

theorem Agree.tail (h : Agree (s :: as) (t :: bs)) (ha : Coalesced (s :: as))
    (hb : Coalesced (t :: bs)) : Agree as bs := by
  have hstep : ∀ {s t : Span α} {as bs : List (Span α)}, Agree (s :: as) (t :: bs) →
      Coalesced (s :: as) → Coalesced (t :: bs) → ∀ x,
      (∃ s ∈ as, s.start ≤ x ∧ x < s.stop) → ∃ s ∈ bs, s.start ≤ x ∧ x < s.stop := by
    rintro s t as bs h ha hb x ⟨u, hu, hle, hlt⟩
    obtain ⟨v, hv, hvle, hvlt⟩ := (h x).mp ⟨u, List.mem_cons_of_mem s hu, hle, hlt⟩
    rcases List.mem_cons.mp hv with rfl | hrest
    · have hearly := lt_of_lt_of_le hvlt (h.symm.stop_le hb ha)
      exact absurd (le_trans (le_of_lt (ha.stop_lt_start hu)) hle) (not_le_of_lt hearly)
    · exact ⟨v, hrest, hvle, hvlt⟩
  exact fun x => ⟨hstep h ha hb x, hstep h.symm hb ha x⟩

theorem Agree.same (h : Agree as bs) (ha : Coalesced as) (hb : Coalesced bs) :
    List.Forall₂ Same as bs := by
  induction as generalizing bs with
  | nil =>
      cases bs with
      | nil => exact .nil
      | cons t bs =>
          have hself := le_refl (hb.number List.mem_cons_self).1
          have hheld := (h t.start).mpr
            ⟨t, List.mem_cons_self, hself, hb.forward t List.mem_cons_self⟩
          simp at hheld
  | cons s as ih =>
      cases bs with
      | nil =>
          have hself := le_refl (ha.number List.mem_cons_self).1
          have hheld := (h s.start).mp
            ⟨s, List.mem_cons_self, hself, ha.forward s List.mem_cons_self⟩
          simp at hheld
      | cons t bs =>
          refine .cons ⟨beq_iff.mpr ⟨h.start_le ha hb, h.symm.start_le hb ha⟩,
            beq_iff.mpr ⟨h.stop_le ha hb, h.symm.stop_le hb ha⟩⟩ ?_
          exact ih (h.tail ha hb) ha.tail hb.tail

end Unique

end Flowchart.RangeSet
