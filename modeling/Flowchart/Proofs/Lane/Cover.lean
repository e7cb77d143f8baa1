import Flowchart.Proofs.Lane.Room
/-! What sets of ranges hold, in exact coordinates. A search finds room, and what is reserved is held
from then on: nothing is ever given back. -/
namespace Flowchart.RangeSet

def cover (r : RangeSet ℚ) : Set ℚ := {y | r.Holds y}

theorem stops_exact (spans : List (Span ℚ)) : Stops spans := fun _ _ => beq_self_eq_true _

theorem start_le_firstFit (r : RangeSet ℚ) (start size : ℚ) : start ≤ r.firstFit start size :=
  (firstFit_spec (stops_exact _) size (beq_self_eq_true _)).1

theorem floors_exact (r : RangeSet ℚ) : ∀ f ∈ r.floor, Scalar.isNumber f :=
  fun _ _ => beq_self_eq_true _

theorem firstFit_clear {r : RangeSet ℚ} (hr : Canonical r) (start : ℚ) {size : ℚ}
    (hsize : 0 ≤ size) :
    Disjoint (Set.Ico (r.firstFit start size) (r.firstFit start size + size)) r.cover := by
  have hfound := firstRoom_firstFit hr.toCoalesced (floors_exact r) (beq_self_eq_true start)
    (rfl : Scalar.isFinite size = true)
  have hasked : Scalar.atLeast 0 size = size := max_eq_left hsize
  rw [hasked] at hfound
  refine Set.disjoint_left.mpr ?_
  rintro y ⟨hge, hlt⟩ ⟨s, hs, hstart, hstop⟩
  rcases hfound.clear s hs with h | h
  · exact absurd (hlt.trans_le h) (not_lt.mpr hstart)
  · exact absurd (hstop.trans_le h) (not_lt.mpr hge)

theorem le_commonFit? {a b : RangeSet ℚ} {start size pos : ℚ}
    (h : a.commonFit? b start size = some pos) : start ≤ pos := by
  have hagreed : ∀ rounds first, agree? a b size rounds first = some pos → first ≤ pos := by
    intro rounds
    induction rounds with
    | zero => exact nofun
    | succ rounds ih =>
        intro first hfirst
        unfold agree? at hfirst
        dsimp only at hfirst
        have hmove := start_le_firstFit a first size
        split at hfirst
        · cases hfirst
          exact hmove
        · exact (hmove.trans (start_le_firstFit b _ size)).trans (ih _ hfirst)
  exact hagreed _ _ h

theorem raise_le_firstFit (r : RangeSet ℚ) (start size : ℚ) : r.raise start ≤ r.firstFit start size :=
  (advance_spec (max size 0) (beq_self_eq_true _) (stops_bracketed (stops_exact _))).1

theorem floor_le_commonFit? {a b : RangeSet ℚ} {start size pos : ℚ}
    (h : a.commonFit? b start size = some pos) : ∀ f ∈ a.floor, f ≤ pos := by
  have hagreed : ∀ rounds first, agree? a b size rounds first = some pos →
      ∃ next, pos = a.firstFit next size := by
    intro rounds
    induction rounds with
    | zero => exact nofun
    | succ rounds ih =>
        intro first hfirst
        rw [agree?] at hfirst
        split at hfirst
        · cases hfirst
          exact ⟨first, rfl⟩
        · exact ih _ hfirst
  obtain ⟨next, rfl⟩ := hagreed _ _ h
  intro f hf
  exact (le_raise a (beq_self_eq_true next) hf (floors_exact a f hf)).trans
    (raise_le_firstFit a next size)

/-- What two sets agree on is room in both. -/
theorem commonFit?_clear {a b : RangeSet ℚ} (ha : Canonical a) (hb : Canonical b)
    {start size pos : ℚ} (hsize : 0 ≤ size) (h : a.commonFit? b start size = some pos) :
    start ≤ pos ∧ Disjoint (Set.Ico pos (pos + size)) a.cover ∧
      Disjoint (Set.Ico pos (pos + size)) b.cover := by
  have hroom := agree?_spec ha.toCoalesced hb.toCoalesced ⟨floors_exact a, floors_exact b⟩ rfl _
    (beq_self_eq_true start) h
  have hclear {r : RangeSet ℚ} (hr : Canonical r) (hfits : r.fits pos size = true) :
      Disjoint (Set.Ico pos (pos + size)) r.cover := by
    have hfirst := firstFit_clear hr pos hsize
    rwa [beq_iff_eq.mp hfits] at hfirst
  exact ⟨hroom.start_le, hclear ha hroom.fits.1, hclear hb hroom.fits.2⟩

theorem raise_exact (r : RangeSet ℚ) (start y : ℚ) :
    r.raise start ≤ y ↔ start ≤ y ∧ ∀ f ∈ r.floor, f ≤ y :=
  (raise_le_iff (beq_self_eq_true start)).trans <| and_congr_right fun _ =>
    ⟨fun h f hf => h f hf (floors_exact r f hf), fun h f hf _ => h f hf⟩

theorem cover_reserve {r : RangeSet ℚ} (hr : Canonical r) (start size : ℚ) :
    (r.reserve start size).cover =
      r.cover ∪ {y | y ∈ Set.Ico start (start + size) ∧ ∀ f ∈ r.floor, f ≤ y} := by
  ext y
  refine (holds_reserve hr start size y).trans (or_congr_right ?_)
  unfold Asked
  rw [raise_exact]
  exact (and_iff_right rfl).trans and_right_comm

theorem reserve_spec {r : RangeSet ℚ} (hr : Canonical r) (start size : ℚ) :
    Canonical (r.reserve start size) ∧ r.cover ⊆ (r.reserve start size).cover ∧
      (r.reserve start size).floor = r.floor ∧
      ∀ y ∈ Set.Ico start (start + size), (∀ f ∈ r.floor, f ≤ y) →
        y ∈ (r.reserve start size).cover := by
  refine ⟨canonical_reserve hr start size, ?_, floor_reserve r start size, fun y hy hfloor => ?_⟩
  · exact cover_reserve hr start size ▸ Set.subset_union_left
  · exact cover_reserve hr start size ▸ Set.mem_union_right _ ⟨hy, hfloor⟩

theorem cover_fold {r : RangeSet ℚ} (hr : Canonical r) (other : RangeSet ℚ) :
    (r.fold other).cover = r.cover ∪ {y | y ∈ other.cover ∧ ∀ f ∈ r.floor, f ≤ y} := by
  ext y
  refine (holds_fold hr other y).trans (or_congr_right ?_)
  simp only [rebuilt, add_sub_cancel, raise_exact]
  constructor
  · rintro ⟨s, hs, -, ⟨hstart, hfloor⟩, hstop⟩
    exact ⟨⟨s, hs, hstart, hstop⟩, hfloor⟩
  · rintro ⟨⟨s, hs, hstart, hstop⟩, hfloor⟩
    exact ⟨s, hs, rfl, ⟨hstart, hfloor⟩, hstop⟩

theorem fold_spec {r : RangeSet ℚ} (hr : Canonical r) (other : RangeSet ℚ) :
    Canonical (r.fold other) ∧ r.cover ⊆ (r.fold other).cover ∧
      (r.fold other).floor = r.floor ∧
      ∀ y ∈ other.cover, (∀ f ∈ r.floor, f ≤ y) → y ∈ (r.fold other).cover := by
  refine ⟨canonical_fold hr other, ?_, floor_fold r other, fun y hy hfloor => ?_⟩
  · exact cover_fold hr other ▸ Set.subset_union_left
  · exact cover_fold hr other ▸ Set.mem_union_right _ ⟨hy, hfloor⟩

end Flowchart.RangeSet
