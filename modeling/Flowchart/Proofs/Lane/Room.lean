import Flowchart.Proofs.Lane.History
import Flowchart.Proofs.Lane.Sums
/-! Where a search stops. It passes no room: a position is left only because some range meets what is
wanted there. As a summand keeps the order, whatever is rounded, this holds of every position that was
never tried as well. Main statements: a search in one set finds its first room, and two sets in turn the
first room they have in common. -/
namespace Flowchart
open Scalar (isNumber)
open LawfulScalar RoundedScalar

/-- A range and what is wanted at a position have more than an end in common. -/
def Span.Meets {α : Type} [Scalar α] (s : Span α) (pos size : α) : Prop :=
  pos < s.stop ∧ s.start < pos + size

namespace RangeSet
variable {α : Type} [Scalar α]

/-- Ranges in the order of their starts; they may be empty or touch. -/
structure Sorted (spans : List (Span α)) : Prop where
  number : ∀ s ∈ spans, isNumber s.start ∧ isNumber s.stop
  order : spans.Pairwise fun s t => s.start ≤ t.start

/-- The first room from a start on. -/
structure FirstRoom (r : RangeSet α) (start size pos : α) : Prop where
  start_le : start ≤ pos
  floor_le : ∀ f ∈ r.floor, f ≤ pos
  clear : ∀ s ∈ r.spans, pos + size ≤ s.start ∨ s.stop ≤ pos
  least : ∀ p, start ≤ p → (∀ f ∈ r.floor, f ≤ p) → p < pos → ∃ s ∈ r.spans, s.Meets p size

/-- The first room that two sets have in common. -/
structure CommonRoom (a b : RangeSet α) (start size pos : α) : Prop where
  start_le : start ≤ pos
  floor_le : (∀ f ∈ a.floor, f ≤ pos) ∧ ∀ f ∈ b.floor, f ≤ pos
  fits : a.fits pos size = true ∧ b.fits pos size = true
  least : ∀ p, start ≤ p → p < pos → a.fits p size = false ∨ b.fits p size = false

theorem Sorted.tail {s : Span α} {rest : List (Span α)} (h : Sorted (s :: rest)) : Sorted rest :=
  ⟨fun t ht => h.number t (List.mem_cons_of_mem s ht), (List.pairwise_cons.mp h.order).2⟩

section Lawful
variable [LawfulScalar α] {r : RangeSet α} {spans : List (Span α)} {start size pos : α}

theorem Sorted.start_le {s t : Span α} {rest : List (Span α)} (h : Sorted (s :: rest))
    (ht : t ∈ s :: rest) : s.start ≤ t.start := by
  rcases List.mem_cons.mp ht with rfl | hrest
  · exact le_refl (h.number t ht).1
  · exact (List.pairwise_cons.mp h.order).1 t hrest

theorem Coalesced.sorted (h : Coalesced spans) : Sorted spans :=
  ⟨fun _ => h.number, h.apart.imp_of_mem fun hs _ hlt =>
    le_of_lt (lt_of_le_of_lt (le_of_lt (h.forward _ hs)) hlt)⟩

theorem Coalesced.stops (h : Coalesced spans) : Stops spans := fun _ hs => (h.number hs).2

omit [Scalar α] [LawfulScalar α] in
theorem mem_end {x : Option α} {s : Span α} (hs : s ∈ (x.map fun y => (⟨y, y⟩ : Span α)).toList) :
    ∃ y ∈ x, s = ⟨y, y⟩ := by
  obtain ⟨y, hy, rfl⟩ := Option.map_eq_some_iff.mp (Option.mem_toList.mp hs)
  exact ⟨y, hy, rfl⟩

omit [LawfulScalar α] in
theorem bracketed_cases {s : Span α} (hs : s ∈ r.bracketed) :
    (∃ x ∈ (Scalar.least : Option α), s = ⟨x, x⟩) ∨ s ∈ r.spans ∨
      ∃ x ∈ (Scalar.greatest : Option α), s = ⟨x, x⟩ := by
  rcases List.mem_append.mp hs with hs | hs
  · exact (List.mem_append.mp hs).imp mem_end .inl
  · exact .inr (.inr (mem_end hs))

omit [LawfulScalar α] in
theorem mem_bracketed_of_mem {s : Span α} (hs : s ∈ r.spans) : s ∈ r.bracketed :=
  List.mem_append_left _ (List.mem_append_right _ hs)

theorem raise_le_iff (hstart : isNumber start) :
    r.raise start ≤ pos ↔ start ≤ pos ∧ ∀ f ∈ r.floor, isNumber f → f ≤ pos := by
  unfold raise
  cases hf : r.floor with
  | none => simp
  | some floor =>
      dsimp only
      constructor
      · intro h
        refine ⟨le_trans (le_max_left hstart) h, fun f hmem hnumber => ?_⟩
        cases hmem
        exact le_trans (le_max_right hstart hnumber) h
      · rintro ⟨hle, habove⟩
        by_cases hnumber : isNumber floor
        · rcases max_number hstart hnumber with ⟨h, -⟩ | ⟨h, -⟩ <;> rw [h]
          · exact hle
          · exact habove floor rfl hnumber
        · rw [max_undefined hstart hnumber]
          exact hle

/-- Every range ends before the position that is found, or begins behind what is wanted there. -/
theorem advance_clear (h : Sorted spans) (hpos : isNumber pos) :
    ∀ s ∈ spans, advance size pos spans + size ≤ s.start ∨ s.stop ≤ advance size pos spans := by
  induction spans generalizing pos with
  | nil => exact nofun
  | cons span rest ih =>
      have hspan : isNumber span.stop := (h.number span List.mem_cons_self).2
      have hforward : ∀ {p : α}, isNumber p → p ≤ advance size p rest := fun hp =>
        (advance_spec size hp fun s hs => (h.tail.number s hs).2).1
      intro s hs
      unfold advance
      split
      · next hpassed =>
          rcases List.mem_cons.mp hs with rfl | hmem
          · exact .inr (le_trans hpassed (hforward hpos))
          · exact ih h.tail hpos s hmem
      · split
        · next hroom => exact .inl (le_trans hroom (h.start_le hs))
        · rcases List.mem_cons.mp hs with rfl | hmem
          · exact .inr (hforward hspan)
          · exact ih h.tail hspan s hmem

theorem not_meets_iff {s : Span α} (hs : isNumber s.start ∧ isNumber s.stop) (hpos : isNumber pos)
    (hsum : isNumber (pos + size)) :
    ¬ s.Meets pos size ↔ pos + size ≤ s.start ∨ s.stop ≤ pos := by
  unfold Span.Meets
  constructor
  · intro h
    by_cases hpassed : s.stop ≤ pos
    · exact .inr hpassed
    · by_contra hno
      exact h ⟨lt_of_not_le hs.2 hpos hpassed, lt_of_not_le hsum hs.1 fun hroom => hno (.inl hroom)⟩
  · rintro (hroom | hpassed) ⟨hbefore, hover⟩
    · exact not_le_of_lt hover hroom
    · exact not_le_of_lt hbefore hpassed

end Lawful

section Rounded
variable [RoundedScalar α] {r a b : RangeSet α} {spans : List (Span α)} {start size pos : α}

theorem isNumber_add (hpos : isNumber pos) (hsize : Scalar.isFinite size = true) :
    isNumber (pos + size) :=
  (number_of_le (add_le_add (le_refl hpos) hsize)).1

/-- What is passed is met: a range that leaves no room at one position leaves none at a later one
that lies before its end. -/
theorem advance_least (h : ∀ s ∈ spans, isNumber s.start ∧ isNumber s.stop) (hpos : isNumber pos)
    (hsize : Scalar.isFinite size = true) {p : α} (hle : pos ≤ p) (hlt : p < advance size pos spans) :
    ∃ s ∈ spans, s.Meets p size := by
  induction spans generalizing pos with
  | nil => exact absurd hle (not_le_of_lt hlt)
  | cons span rest ih =>
      obtain ⟨hstart, hstop⟩ := h span List.mem_cons_self
      have hlater {q : α} (hq : isNumber q) (hle : q ≤ p) (hlt : p < advance size q rest) :
          ∃ s ∈ span :: rest, s.Meets p size := by
        obtain ⟨s, hs, hmeets⟩ := ih (fun s hs => h s (List.mem_cons_of_mem span hs)) hq hle hlt
        exact ⟨s, List.mem_cons_of_mem span hs, hmeets⟩
      unfold advance at hlt
      split at hlt
      · exact hlater hpos hle hlt
      · split at hlt
        · exact absurd hle (not_le_of_lt hlt)
        · next hroom =>
            by_cases hpassed : span.stop ≤ p
            · exact hlater hstop hpassed hlt
            · have hbefore := lt_of_not_le hstop (number_of_le hle).2 hpassed
              have hover := lt_of_not_le (isNumber_add hpos hsize) hstart hroom
              exact ⟨span, List.mem_cons_self, hbefore, lt_of_lt_of_le hover (add_le_add hle hsize)⟩

theorem sorted_bracketed (h : Coalesced r.spans) : Sorted r.bracketed := by
  have hone (x : Option (Span α)) : x.toList.Pairwise fun s t => s.start ≤ t.start := by
    cases x with
    | none => exact .nil
    | some s => exact List.pairwise_singleton _ s
  have hnumber : ∀ s ∈ r.bracketed, isNumber s.start ∧ isNumber s.stop := fun s hs => by
    rcases bracketed_cases hs with ⟨x, hx, rfl⟩ | hs | ⟨x, hx, rfl⟩
    · exact ⟨number_of_mem_ends (.inl hx), number_of_mem_ends (.inl hx)⟩
    · exact h.number hs
    · exact ⟨number_of_mem_ends (.inr hx), number_of_mem_ends (.inr hx)⟩
  refine ⟨hnumber, List.pairwise_append.mpr ⟨List.pairwise_append.mpr
    ⟨hone _, h.sorted.order, fun s hs t ht => ?_⟩, hone _, fun s hs t ht => ?_⟩⟩
  · obtain ⟨x, hx, rfl⟩ := mem_end hs
    exact least_le_number hx (h.number ht).1
  · obtain ⟨x, hx, rfl⟩ := mem_end ht
    exact number_le_greatest hx (hnumber s (List.mem_append_left _ hs)).1

theorem mem_of_meets {s : Span α} (hs : s ∈ r.bracketed) (hpos : isNumber pos)
    (hsize : Scalar.isFinite size = true) (h : s.Meets pos size) : s ∈ r.spans := by
  rcases bracketed_cases hs with ⟨x, hx, rfl⟩ | hs | ⟨x, hx, rfl⟩
  · exact absurd (least_le_number hx hpos) (not_le_of_lt h.1)
  · exact hs
  · exact absurd (number_le_greatest hx (isNumber_add hpos hsize)) (not_le_of_lt h.2)

theorem isFinite_atLeast (hsize : Scalar.isFinite size = true) :
    Scalar.isFinite (Scalar.atLeast 0 size) = true := by
  unfold Scalar.atLeast
  rcases max_number (number_of_isFinite hsize) (number_of_isFinite finite_zero) with ⟨h, -⟩ | ⟨h, -⟩
  · rw [h, hsize]
  · rw [h, finite_zero]

theorem firstRoom_firstFit (hr : Coalesced r.spans) (hfloor : ∀ f ∈ r.floor, isNumber f)
    (hstart : isNumber start) (hsize : Scalar.isFinite size = true) :
    FirstRoom r start (Scalar.atLeast 0 size) (r.firstFit start size) := by
  have hsorted := sorted_bracketed hr
  have hraise := (number_of_le (r.raise_spec hstart).1).2
  have hzero := isFinite_atLeast hsize
  obtain ⟨hle, habove⟩ := (raise_le_iff hstart).mp
    (advance_spec (max size 0) hraise fun s hs => (hsorted.number s hs).2).1
  refine ⟨hle, fun f hf => habove f hf (hfloor f hf), fun s hs => ?_, fun p hp hfloors hlt => ?_⟩
  · exact advance_clear hsorted hraise s (mem_bracketed_of_mem hs)
  · have hbehind := (raise_le_iff hstart).mpr ⟨hp, fun f hf _ => hfloors f hf⟩
    obtain ⟨s, hs, hmeets⟩ := advance_least hsorted.number hraise hzero hbehind hlt
    exact ⟨s, mem_of_meets hs (number_of_le hp).2 hzero hmeets, hmeets⟩

theorem fits_iff (hr : Coalesced r.spans) (hfloor : ∀ f ∈ r.floor, isNumber f)
    (hstart : isNumber start) (hsize : Scalar.isFinite size = true) :
    r.fits start size = true ↔ (∀ f ∈ r.floor, f ≤ start) ∧
      ∀ s ∈ r.spans, ¬ s.Meets start (Scalar.atLeast 0 size) := by
  have hfound := firstRoom_firstFit hr hfloor hstart hsize
  have hzero := isFinite_atLeast hsize
  unfold fits
  rw [beq_iff]
  constructor
  · rintro ⟨hback, -⟩
    refine ⟨fun f hf => le_trans (hfound.floor_le f hf) hback, fun s hs => ?_⟩
    refine (not_meets_iff (hr.number hs) hstart (isNumber_add hstart hzero)).mpr ?_
    exact (hfound.clear s hs).imp (le_trans (add_le_add hfound.start_le hzero)) (le_trans · hback)
  · rintro ⟨habove, hfree⟩
    refine ⟨?_, hfound.start_le⟩
    by_contra hback
    have hlt := lt_of_not_le (number_of_le hfound.start_le).2 hstart hback
    obtain ⟨s, hs, hmeets⟩ := hfound.least start (le_refl hstart) habove hlt
    exact hfree s hs hmeets

theorem fits_firstFit (hr : Coalesced r.spans) (hfloor : ∀ f ∈ r.floor, isNumber f)
    (hstart : isNumber start) (hsize : Scalar.isFinite size = true) :
    r.fits (r.firstFit start size) size = true := by
  have hfound := firstRoom_firstFit hr hfloor hstart hsize
  have hpos := (number_of_le hfound.start_le).2
  refine (fits_iff hr hfloor hpos hsize).mpr ⟨hfound.floor_le, fun s hs => ?_⟩
  exact (not_meets_iff (hr.number hs) hpos (isNumber_add hpos (isFinite_atLeast hsize))).mpr
    (hfound.clear s hs)

/-- A search in one set passes nothing that fits. -/
theorem fits_of_lt_firstFit (hr : Coalesced r.spans) (hfloor : ∀ f ∈ r.floor, isNumber f)
    (hstart : isNumber start) (hsize : Scalar.isFinite size = true) (hle : start ≤ pos)
    (hlt : pos < r.firstFit start size) : r.fits pos size = false := by
  have hfound := firstRoom_firstFit hr hfloor hstart hsize
  refine Bool.eq_false_iff.mpr fun hfits => ?_
  obtain ⟨habove, hfree⟩ := (fits_iff hr hfloor (number_of_le hle).2 hsize).mp hfits
  obtain ⟨s, hs, hmeets⟩ := hfound.least pos hle habove hlt
  exact hfree s hs hmeets

/-- What two sets agree on is the first room in both, as neither passes any. -/
theorem agree?_spec (ha : Coalesced a.spans) (hb : Coalesced b.spans)
    (hfloors : (∀ f ∈ a.floor, isNumber f) ∧ ∀ f ∈ b.floor, isNumber f)
    (hsize : Scalar.isFinite size = true) (rounds : Nat) (hstart : isNumber start)
    (h : agree? a b size rounds start = some pos) : CommonRoom a b start size pos := by
  induction rounds generalizing start with
  | zero => cases h
  | succ rounds ih =>
      have hinA := firstRoom_firstFit ha hfloors.1 hstart hsize
      have hfirst := (number_of_le hinA.start_le).2
      have hinB := firstRoom_firstFit hb hfloors.2 hfirst hsize
      have hskip {p : α} (hle : start ≤ p) (hlt : p < b.firstFit (a.firstFit start size) size) :
          a.fits p size = false ∨ b.fits p size = false := by
        by_cases hpassed : a.firstFit start size ≤ p
        · exact .inr (fits_of_lt_firstFit hb hfloors.2 hfirst hsize hpassed hlt)
        · have hlt := lt_of_not_le hfirst (number_of_le hle).2 hpassed
          exact .inl (fits_of_lt_firstFit ha hfloors.1 hstart hsize hle hlt)
      unfold agree? at h
      dsimp only at h
      split at h
      · next hsame =>
          obtain rfl := Option.some.inj h
          refine ⟨hinA.start_le, ⟨hinA.floor_le, fun f hf => ?_⟩,
            ⟨fits_firstFit ha hfloors.1 hstart hsize, hsame⟩, fun p hle hlt => ?_⟩
          · exact le_trans (hinB.floor_le f hf) (beq_iff.mp hsame).1
          · exact hskip hle (lt_of_lt_of_le hlt hinB.start_le)
      · have hmoved := le_trans hinA.start_le hinB.start_le
        have hrest := ih (number_of_le hmoved).2 h
        refine ⟨le_trans hmoved hrest.start_le, hrest.floor_le, hrest.fits, fun p hle hlt => ?_⟩
        by_cases hpassed : b.firstFit (a.firstFit start size) size ≤ p
        · exact hrest.least p hpassed hlt
        · exact hskip hle (lt_of_not_le (number_of_le hmoved).2 (number_of_le hle).2 hpassed)

end Rounded
end RangeSet

theorem RangeDesk.coalesced_ranges {α : Type} [Scalar α] [LawfulScalar α]
    (inputs : List (RangeInput α)) (name : String) :
    RangeSet.Coalesced ((RangeDesk.empty.replay inputs).ranges name).spans :=
  ((Follows.empty.replay inputs).shown name).canonical.toCoalesced

/-- Whatever was done with a family of names, in single precision: a search in one of them stops at the
first room at or above the start and the floor, and a request fits exactly where it lies above the floor
and no range meets it. -/
theorem firstFit_finds_first_room (inputs : List (RangeInput Float32)) (name : String)
    (start size : Float32)
    (hfloor : ∀ f ∈ ((RangeDesk.empty.replay inputs).ranges name).floor, isNumber f)
    (hstart : isNumber start) (hsize : Scalar.isFinite size = true) :
    let shown := (RangeDesk.empty.replay inputs).ranges name
    let wanted := Scalar.atLeast 0 size
    shown.FirstRoom start wanted (shown.firstFit start size) ∧
      (shown.fits start size = true ↔
        (∀ f ∈ shown.floor, f ≤ start) ∧ ∀ s ∈ shown.spans, ¬ s.Meets start wanted) := by
  have hcoalesced := RangeDesk.coalesced_ranges inputs name
  exact ⟨RangeSet.firstRoom_firstFit hcoalesced hfloor hstart hsize,
    RangeSet.fits_iff hcoalesced hfloor hstart hsize⟩

def Sample.gapRun : List (RangeInput Float32) :=
  [.create "a" (some 1), .reserve "a" 0 3, .reserve "a" 5 1]

/-- A request as long as the gap fits between the ranges, and only from where the first one ends. -/
theorem firstFit_finds_gap :
    let shown := (RangeDesk.empty.replay Sample.gapRun).ranges "a"
    (shown.firstFit (-1) 2 == 3) = true ∧ shown.fits 3 2 = true ∧
      (∃ s ∈ shown.spans, s.Meets 2 (Scalar.atLeast 0 2)) ∧
      ∀ s ∈ shown.spans, ¬ s.Meets 3 (Scalar.atLeast 0 2) := by
  have hfloor : ∀ f ∈ ((RangeDesk.empty.replay Sample.gapRun).ranges "a").floor, isNumber f := by
    decide +kernel
  have hfits : ((RangeDesk.empty.replay Sample.gapRun).ranges "a").fits 3 2 = true := by decide +kernel
  refine ⟨by decide +kernel, hfits, ?_, ?_⟩
  · exact (firstFit_finds_first_room Sample.gapRun "a" (-1) 2 hfloor (by decide +kernel)
      (by decide +kernel)).1.least 2 (by decide +kernel) (by decide +kernel) (by decide +kernel)
  · exact ((firstFit_finds_first_room Sample.gapRun "a" 3 2 hfloor (by decide +kernel)
      (by decide +kernel)).2.mp hfits).2

/-- Whatever was done with a family of names, in single precision: the search in two of them, or in one
twice, ends at the first room that they have in common. -/
theorem firstCommonFit_finds_common_room (inputs : List (RangeInput Float32)) (name other : String)
    (start size : Float32)
    (hname : ∀ f ∈ ((RangeDesk.empty.replay inputs).ranges name).floor, isNumber f)
    (hother : ∀ f ∈ ((RangeDesk.empty.replay inputs).ranges other).floor, isNumber f)
    (hstart : isNumber start) (hsize : Scalar.isFinite size = true) :
    let a := (RangeDesk.empty.replay inputs).ranges name
    let b := (RangeDesk.empty.replay inputs).ranges other
    a.commonFit? b start size = some (a.firstCommonFit b start size) ∧
      RangeSet.CommonRoom a b start size (a.firstCommonFit b start size) := by
  intro a b
  have ha : RangeSet.Coalesced a.spans := RangeDesk.coalesced_ranges inputs name
  have hb : RangeSet.Coalesced b.spans := RangeDesk.coalesced_ranges inputs other
  obtain ⟨pos, hfound⟩ :=
    Option.isSome_iff_exists.mp (RangeSet.commonFit?_isSome ha.stops hb.stops start size)
  have hpos : a.firstCommonFit b start size = pos := by
    unfold RangeSet.firstCommonFit
    rw [hfound]
    rfl
  rw [hpos]
  exact ⟨hfound, RangeSet.agree?_spec ha hb ⟨hname, hother⟩ hsize _ hstart hfound⟩

def Sample.crossedRun : List (RangeInput Float32) :=
  [.create "a" none, .create "b" none, .reserve "a" 0 10, .reserve "b" 10 10, .reserve "a" 22 4]

/-- The search passes the gap, in which no three fit. -/
theorem firstCommonFit_passes_gap :
    let a := (RangeDesk.empty.replay Sample.crossedRun).ranges "a"
    let b := (RangeDesk.empty.replay Sample.crossedRun).ranges "b"
    (a.firstCommonFit b 0 3 == 26) = true ∧ (a.fits 20 3 = false ∨ b.fits 20 3 = false) :=
  ⟨by decide +kernel, (firstCommonFit_finds_common_room Sample.crossedRun "a" "b" 0 3
    (by decide +kernel) (by decide +kernel) (by decide +kernel) (by decide +kernel)).2.least 20
      (by decide +kernel) (by decide +kernel)⟩

end Flowchart
