import Flowchart.Proofs.Lane.Room
/-! Folding in single precision. A range is handed over by its start and its length; the length is rounded,
and so is the end that is rebuilt from the two. What a fold holds is said in terms of the rebuilt ends.
Where the length of each range is a float, as for ends on a common grid, nothing is lost or invented. -/
namespace Flowchart
open Scalar (isNumber)
open LawfulScalar

def Span.HasLength (s : Span Float32) : Prop :=
  ∃ d : Float32, Scalar.isFinite d = true ∧ Single.value d = Single.value s.stop - Single.value s.start

namespace RangeSet
variable {r other : RangeSet Float32} {s : Span Float32}

theorem Canonical.hasLength_of_grid (hr : Canonical r) (hs : s ∈ r.spans) {g : ℕ} (bound : g ≤ 253)
    (start : 2 ^ g ∣ Single.value s.start) (stop : 2 ^ g ∣ Single.value s.stop)
    (short : (Single.value s.stop - Single.value s.start).natAbs < 2 ^ (24 + g)) : s.HasLength :=
  ⟨_, Single.sub_grid (hr.finite s hs).2 (hr.finite s hs).1 (dvd_sub stop start) short bound⟩

/-- A range whose length is a float is rebuilt as it was. -/
theorem Canonical.rebuilt_beq (hr : Canonical r) (hs : s ∈ r.spans) (h : s.HasLength) :
    Scalar.isFinite (rebuilt s) = true ∧ (rebuilt s == s.stop) = true := by
  obtain ⟨hstart, hstop⟩ := hr.finite s hs
  obtain ⟨d, hd, hlength⟩ := h
  obtain ⟨hfinite, hvalue⟩ := Single.sub_exact hstop hstart hd hlength.symm
  obtain ⟨hrebuilt, hsame⟩ := Single.add_exact hstart hfinite hstop (by rw [hvalue, hlength]; omega)
  refine ⟨hrebuilt, beq_iff.mpr ⟨?_, ?_⟩⟩
  · exact (Single.le_iff_value hrebuilt hstop).mpr hsame.le
  · exact (Single.le_iff_value hstop hrebuilt).mpr hsame.ge

/-- Where lengths are floats, a fold adds what the other set holds above the floor. -/
theorem holds_fold_of_lengths (hr : Canonical r) (hother : Canonical other)
    (hlengths : ∀ s ∈ other.spans, s.HasLength) (x : Float32) :
    (r.fold other).Holds x ↔ r.Holds x ∨ other.Holds x ∧ ∀ f ∈ r.floor, isNumber f → f ≤ x := by
  refine (holds_fold hr other x).trans (or_congr_right ?_)
  have hspan {s : Span Float32} (hs : s ∈ other.spans) :
      (Scalar.isFinite (rebuilt s) = true ∧ r.raise s.start ≤ x ∧ x < rebuilt s) ↔
        (s.start ≤ x ∧ x < s.stop) ∧ ∀ f ∈ r.floor, isNumber f → f ≤ x := by
    obtain ⟨hfinite, hsame⟩ := hother.rebuilt_beq hs (hlengths s hs)
    obtain ⟨hle, hge⟩ := beq_iff.mp hsame
    have hend : x < rebuilt s ↔ x < s.stop :=
      ⟨fun h => lt_of_lt_of_le h hle, fun h => lt_of_lt_of_le h hge⟩
    rw [and_iff_right hfinite, raise_le_iff (hother.number hs).1, hend, and_right_comm]
  constructor
  · rintro ⟨s, hs, hasked⟩
    obtain ⟨hheld, hfloor⟩ := (hspan hs).mp hasked
    exact ⟨⟨s, hs, hheld⟩, hfloor⟩
  · rintro ⟨⟨s, hs, hheld⟩, hfloor⟩
    exact ⟨s, hs, (hspan hs).mpr ⟨hheld, hfloor⟩⟩

theorem fold_self_of_lengths (hr : Canonical r) (hlengths : ∀ s ∈ r.spans, s.HasLength) :
    List.Forall₂ Same (r.fold r).spans r.spans := by
  refine Agree.same (fun x => ?_) (canonical_fold hr r).toCoalesced hr.toCoalesced
  exact (holds_fold_of_lengths hr hr hlengths x).trans (or_iff_left_of_imp And.left)

end RangeSet

namespace RangeDesk
variable {d : RangeDesk Float32} {name other twin : String}

theorem shares_iff : d.shares name other = true ↔
    ∃ k, d.handle? name = some k ∧ d.handle? other = some k := by
  unfold shares
  cases d.handle? name with
  | none => simp
  | some j =>
      cases d.handle? other with
      | none => simp
      | some k =>
          simp only [beq_iff_eq, Option.some.injEq, exists_eq_left']
          exact eq_comm

theorem ranges_of_handle {k : Handle} (h : d.handle? name = some k) : d.ranges name = d.pool.get k := by
  unfold ranges
  rw [h]

theorem ranges_of_shares (h : d.shares name other = true) : d.ranges name = d.ranges other := by
  obtain ⟨k, hname, hother⟩ := shares_iff.mp h
  rw [ranges_of_handle hname, ranges_of_handle hother]

/-- A fold is seen through every name of the set. -/
theorem ranges_fold {l : Ledger Float32} (h : Follows l d) (hshares : d.shares name twin = true)
    (other : String) :
    (d.update (.fold name other)).ranges twin = (d.ranges name).fold (d.ranges other) := by
  obtain ⟨k, hname, htwin⟩ := shares_iff.mp hshares
  have hk : k < d.pool.sets.length := by
    rw [h.count]
    exact h.given name k (by rw [← h.marks, hname])
  have hstep : d.update (.fold name other) =
      { d with pool := d.pool.set k ((d.pool.get k).fold (d.ranges other)) } := by
    unfold update modify
    dsimp only
    rw [hname]
  have hafter : (d.update (.fold name other)).handle? twin = some k := by
    rw [hstep]
    exact htwin
  rw [ranges_of_handle hafter, hstep, ranges_of_handle hname]
  exact Pool.get_set_self _ _ hk

end RangeDesk

/-- Folding one set of a desk into another, in single precision and seen through any name of the first:
it holds what it held and each range of the other up to the end that is rebuilt. Where lengths are floats
these are the positions above the floor that the other set holds, and a fold into itself changes nothing. -/
theorem fold_rebuilds (inputs : List (RangeInput Float32)) (name twin other : String)
    (hshares : (RangeDesk.empty.replay inputs).shares name twin = true) :
    let desk := RangeDesk.empty.replay inputs
    let held := desk.ranges name
    let given := desk.ranges other
    let after := (desk.update (.fold name other)).ranges twin
    (∀ x, after.Holds x ↔ held.Holds x ∨ ∃ s ∈ given.spans,
        Scalar.isFinite (RangeSet.rebuilt s) = true ∧ held.raise s.start ≤ x ∧
          x < RangeSet.rebuilt s) ∧
      ((∀ s ∈ given.spans, s.HasLength) →
        (∀ x, after.Holds x ↔
          held.Holds x ∨ given.Holds x ∧ ∀ f ∈ held.floor, isNumber f → f ≤ x) ∧
        (desk.shares name other = true → List.Forall₂ RangeSet.Same after.spans held.spans)) := by
  intro desk held given after
  have hrun := Follows.empty.replay inputs
  have hheld : RangeSet.Canonical held := (hrun.shown name).canonical
  have hgiven : RangeSet.Canonical given := (hrun.shown other).canonical
  have hafter : after = held.fold given := RangeDesk.ranges_fold hrun hshares other
  rw [hafter]
  refine ⟨RangeSet.holds_fold hheld given, fun hlengths =>
    ⟨RangeSet.holds_fold_of_lengths hheld hgiven hlengths, fun hself => ?_⟩⟩
  have hsame : given = held := (RangeDesk.ranges_of_shares hself).symm
  rw [hsame] at hlengths ⊢
  exact RangeSet.fold_self_of_lengths hheld hlengths

/-- Bands at tenths, as in a loop body, and a set that is to be folded into itself. -/
def Sample.tenthsRun : List (RangeInput Float32) :=
  [.create "body" none, .reserve "body" 0.3 0.3, .reserve "body" 0.5 0.9, .create "outer" none,
    .create "a" none, .reserve "a" 0.7 0.7, .reserve "a" 1 0.9]

/-- Where a length is no float, the last position of a range is lost on the way, and a set grows when it is
folded into itself. -/
theorem fold_moves_ends :
    let desk := RangeDesk.empty.replay Sample.tenthsRun
    (¬ ∀ x, ((desk.update (.fold "outer" "body")).ranges "outer").Holds x ↔
      (desk.ranges "outer").Holds x ∨
        (desk.ranges "body").Holds x ∧ ∀ f ∈ (desk.ranges "outer").floor, f ≤ x) ∧
      ¬ ∀ x, ((desk.update (.fold "a" "a")).ranges "a").Holds x ↔ (desk.ranges "a").Holds x := by
  intro desk
  constructor <;> intro hclaim
  · have hgiven : (desk.ranges "body").Holds 1.3999999 ∧
        ∀ f ∈ (desk.ranges "outer").floor, f ≤ 1.3999999 := by
      unfold RangeSet.Holds
      decide +kernel
    have hlost : ¬ ((desk.update (.fold "outer" "body")).ranges "outer").Holds 1.3999999 := by
      unfold RangeSet.Holds
      decide +kernel
    exact hlost ((hclaim _).mpr (.inr hgiven))
  · have hfree : ¬ (desk.ranges "a").Holds 1.9 := by
      unfold RangeSet.Holds
      decide +kernel
    have hgained : ((desk.update (.fold "a" "a")).ranges "a").Holds 1.9 := by
      unfold RangeSet.Holds
      decide +kernel
    exact hfree ((hclaim _).mp hgained)

def Sample.halvesRun : List (RangeInput Float32) :=
  [.create "body" none, .reserve "body" (-0.5) 3, .reserve "body" 4 0.5, .create "outer" (some 1),
    .share "same" "outer"]

/-- All ends are multiples of a half, so the fold adds what the body holds above the floor. -/
theorem fold_rebuilds_halves :
    let desk := RangeDesk.empty.replay Sample.halvesRun
    let after := (desk.update (.fold "outer" "body")).ranges "same"
    (after.spans == [⟨1, 2.5⟩, ⟨4, 4.5⟩]) = true ∧
      ∀ x, after.Holds x ↔ (desk.ranges "outer").Holds x ∨
        (desk.ranges "body").Holds x ∧ ∀ f ∈ (desk.ranges "outer").floor, isNumber f → f ≤ x := by
  have hgrid : ∀ s ∈ ((RangeDesk.empty.replay Sample.halvesRun).ranges "body").spans,
      2 ^ 148 ∣ Single.value s.start ∧ 2 ^ 148 ∣ Single.value s.stop ∧
        (Single.value s.stop - Single.value s.start).natAbs < 2 ^ (24 + 148) := by decide +kernel
  have hcanonical := ((Follows.empty.replay Sample.halvesRun).shown "body").canonical
  refine ⟨by decide +kernel, ((fold_rebuilds Sample.halvesRun "outer" "same" "body"
    (by decide +kernel)).2 fun s hs => ?_).1⟩
  obtain ⟨hstart, hstop, hshort⟩ := hgrid s hs
  exact hcanonical.hasLength_of_grid hs (by decide) hstart hstop hshort

end Flowchart
