import Flowchart.Proofs.Chart.Drawn
/-! The bands that a strand takes, and the layers that are laid out in them. -/
namespace Flowchart
open Hline (between)

/-- A front after a band was taken below everything: it dodges the lines that leave eastwards, and
from then on it is reserved. -/
structure Front.Takes (s t : Front) (pos size : ℚ) : Prop where
  quiet : ∀ pad hull, Layer pad hull s t 0
  start : s.reach ≤ pos
  stop : pos + size ≤ t.reach
  held : Set.Ico pos (pos + size) ⊆ t.lanes.west.cover
  clear : Disjoint (Set.Ico pos (pos + size)) s.lanes.east.cover

theorem Front.Takes.later {s t u : Front} {pos size : ℚ} (h : s.Takes t pos size)
    (k : ∀ pad hull, Layer pad hull t u 0) : s.Takes u pos size where
  quiet pad hull := by
    have hboth := (h.quiet pad hull).andThen (k pad hull)
    rwa [add_zero] at hboth
  start := h.start
  stop := h.stop.trans (k 0 ∅).reach
  held := h.held.trans (k 0 ∅).west
  clear := h.clear

namespace Layer
variable {pad : ℚ} {hull : Set ℚ} {s t : Front} {lines others : Multiset Hline}

theorem of_takes {pos size : ℚ} (h : s.Takes t pos size) (apart : Scattered pad lines)
    (hband : ∀ a ∈ lines, pos + pad ≤ a.y ∧ a.y + pad ≤ pos + size)
    (westward : ∀ a ∈ lines,
      (∃ m ∈ hull, a.range ⊆ Set.Ici m) ∨ Disjoint (a.band pad) s.lanes.west.cover)
    (eastward : ∀ a ∈ lines,
      (∃ m ∈ hull, a.range ⊆ Set.Iic m) ∨ a.band pad ⊆ t.lanes.east.cover) :
    Layer pad hull s t lines := by
  have hsub : ∀ a ∈ lines, a.band pad ⊆ Set.Ico pos (pos + size) := by
    intro a ha y hy
    obtain ⟨hlow, hhigh⟩ := hband a ha
    constructor <;> linarith [hy.1, hy.2]
  have hquiet := h.quiet pad hull
  exact
    { sound := hquiet.sound, floor := hquiet.floor, reach := hquiet.reach, west := hquiet.west,
      east := hquiet.east, apart := apart,
      below := fun a ha => by linarith [h.start, (hband a ha).1]
      above := fun a ha => (hband a ha).2.trans h.stop
      held := fun a ha => (hsub a ha).trans h.held
      clear := fun a ha => h.clear.mono_left (hsub a ha)
      westward := westward, eastward := eastward }

theorem of_takes_inside {pos size : ℚ} (h : s.Takes t pos size) (apart : Scattered pad lines)
    (hband : ∀ a ∈ lines, pos + pad ≤ a.y ∧ a.y + pad ≤ pos + size)
    (hinside : ∀ a ∈ lines, a.Inside hull) : Layer pad hull s t lines :=
  of_takes h apart hband (fun a ha => .inl (hinside a ha).west)
    (fun a ha => .inl (hinside a ha).east)

end Layer

/-- Between the fronts there is room for one line at a height. -/
def Front.Room (pad : ℚ) (s t : Front) (y : ℚ) : Prop :=
  ∀ hull ls x₁ x₂, ls ≤ {between x₁ x₂ y} → (∀ a ∈ ls, a.Inside hull) → Layer pad hull s t ls

theorem Front.Takes.room {s t : Front} {pad pos size y : ℚ} (h : s.Takes t pos size)
    (hlow : pos + pad ≤ y) (hhigh : y + pad ≤ pos + size) : s.Room pad t y := by
  intro hull ls x₁ x₂ hle hinside
  refine .of_takes_inside h ((Scattered.singleton _).mono hle) (fun a ha => ?_) hinside
  rw [Multiset.mem_singleton.mp (Multiset.mem_of_le hle ha)]
  exact ⟨hlow, hhigh⟩

theorem Front.Room.quiet {s t : Front} {pad y : ℚ} (h : s.Room pad t y) (hull : Set ℚ) :
    Layer pad hull s t 0 :=
  h hull 0 0 0 (Multiset.zero_le _) (by simp)

theorem Front.Room.after {s t u : Front} {pad y : ℚ} (k : t.Room pad u y)
    (h : ∀ hull, Layer pad hull s t 0) : s.Room pad u y := by
  intro hull ls x₁ x₂ hle hinside
  have hboth := (h hull).andThen (k hull ls x₁ x₂ hle hinside)
  rwa [zero_add] at hboth

namespace Lanes

theorem placeBand_takes {s : Front} (hs : s.Sound) {start size : ℚ} (hstart : s.reach ≤ start)
    (hsize : 0 ≤ size) {reach : ℚ} (hreach : s.reach ≤ reach)
    (hstop : (s.lanes.placeBand start size).1 + size ≤ reach) :
    s.Takes ⟨reach, (s.lanes.placeBand start size).2⟩ (s.lanes.placeBand start size).1 size := by
  have hpos : start ≤ (s.lanes.placeBand start size).1 :=
    RangeSet.start_le_firstFit s.lanes.east start size
  obtain ⟨hsorted, hkept, hfloor, hheld⟩ :=
    RangeSet.reserve_spec hs.west (s.lanes.placeBand start size).1 size
  refine ⟨fun pad hull => ?_, hstart.trans hpos, hstop, ?_, ?_⟩
  · exact
      { Layer.refl s with
        sound := fun _ => ⟨hsorted, hs.east,
          fun f hf => (hs.floor f (hfloor ▸ hf)).trans hreach, hs.eastFree⟩
        floor := hfloor
        reach := hreach
        west := hkept
        east := subset_rfl
        above := by simp
        held := by simp
        eastward := by simp }
  · intro y hy
    exact hheld y hy fun f hf => (hs.floor f hf).trans ((hstart.trans hpos).trans hy.1)
  · exact RangeSet.firstFit_clear hs.east start hsize

/-- A band that dodges everything, and that later siblings dodge if it leads east. -/
theorem placeExit_takes {s : Front} (hs : s.Sound) {start size pos reach : ℚ} {east : Bool}
    {lanes : Lanes ℚ} (hstart : s.reach ≤ start) (hsize : 0 ≤ size)
    (h : s.lanes.placeExit? start size east = some (pos, lanes)) (hreach : s.reach ≤ reach)
    (hstop : pos + size ≤ reach) :
    s.Takes ⟨reach, lanes⟩ pos size ∧
      Disjoint (Set.Ico pos (pos + size)) s.lanes.west.cover ∧
      (east = true → Set.Ico pos (pos + size) ⊆ lanes.east.cover) := by
  obtain ⟨found, hfound, heq⟩ := Option.map_eq_some_iff.mp h
  cases heq
  obtain ⟨hpos, hwest, heast⟩ := RangeSet.commonFit?_clear hs.west hs.east hsize hfound
  obtain ⟨hsorted, hkept, hfloor, hheld⟩ := RangeSet.reserve_spec hs.west pos size
  obtain ⟨hsorted', hkept', hfloor', hheld'⟩ := RangeSet.reserve_spec hs.east pos size
  have hlanes : RangeSet.Canonical (if east then s.lanes.east.reserve pos size else s.lanes.east) ∧
      s.lanes.east.cover ⊆
        (if east then s.lanes.east.reserve pos size else s.lanes.east).cover ∧
      (if east then s.lanes.east.reserve pos size else s.lanes.east).floor = none := by
    cases east with
    | true => exact ⟨hsorted', hkept', hfloor'.trans hs.eastFree⟩
    | false => exact ⟨hs.east, subset_rfl, hs.eastFree⟩
  refine ⟨⟨fun pad hull => ?_, hstart.trans hpos, hstop, ?_, heast⟩, hwest, ?_⟩
  · exact
      { Layer.refl s with
        sound := fun _ => ⟨hsorted, hlanes.1,
          fun f hf => (hs.floor f (hfloor ▸ hf)).trans hreach, hlanes.2.2⟩
        floor := hfloor
        reach := hreach
        west := hkept
        east := hlanes.2.1
        above := by simp
        held := by simp
        eastward := by simp }
  · intro y hy
    exact hheld y hy fun f hf => (hs.floor f hf).trans ((hstart.trans hpos).trans hy.1)
  · rintro rfl y hy
    refine hheld' y hy fun f hf => ?_
    rw [hs.eastFree] at hf
    cases hf

end Lanes

namespace Strand
variable {c d : Strand ℚ} {pad : ℚ}

/-- Nothing changes of a strand but its front. -/
structure Advances (c d : Strand ℚ) : Prop where
  group : d.group = c.group
  tip : d.tip = c.tip
  breaks : d.breaks = c.breaks
  continues : d.continues = c.continues
  alive : d.alive = c.alive
  keeps : c.Keeps d

theorem Advances.trans {e : Strand ℚ} (h : c.Advances d) (k : d.Advances e) : c.Advances e :=
  ⟨k.group.trans h.group, k.tip.trans h.tip, k.breaks.trans h.breaks,
    k.continues.trans h.continues, k.alive.trans h.alive, h.keeps.trans k.keeps⟩

theorem Advances.lines (h : c.Advances d) : d.lines = c.lines := by
  unfold Strand.lines resumeLine
  rw [h.group, h.breaks, h.continues, h.keeps.continueTarget]

theorem Advances.upright (h : c.Advances d) (hc : c.Upright) : d.Upright := by
  refine ⟨h.group ▸ hc.group, fun p hp => ?_⟩
  rw [h.breaks, h.continues] at hp
  rw [h.group]
  exact hc.held p hp

theorem takeBand_advances (c : Strand ℚ) (start size : ℚ) :
    c.Advances (c.takeBand start size).2 := ⟨rfl, rfl, rfl, rfl, rfl, ⟨rfl, rfl, rfl, rfl⟩⟩

theorem takeBand_takes (hc : c.front.Sound) {start size : ℚ} (hstart : c.reach ≤ start)
    (hsize : 0 ≤ size) :
    c.front.Takes (c.takeBand start size).2.front (c.takeBand start size).1 size :=
  Lanes.placeBand_takes hc hstart hsize (le_max_left _ _) (le_max_right _ _)

theorem takeLine_room (hc : c.front.Sound) {start : ℚ} (hstart : c.reach ≤ start)
    (hpad : c.pad = pad) (hnonneg : 0 ≤ pad) :
    c.Advances (c.takeLine start).2 ∧
      c.front.Room pad (c.takeLine start).2.front (c.takeLine start).1 := by
  subst hpad
  have h := takeBand_takes hc hstart (by linarith : (0 : ℚ) ≤ 2.0 * c.pad)
  refine ⟨takeBand_advances _ _ _, h.room le_rfl ?_⟩
  change (c.takeBand start (2.0 * c.pad)).1 + c.pad + c.pad ≤ _
  linarith

theorem takeExit_takes (hc : c.front.Sound) {start size pos : ℚ} {east : Bool}
    (hstart : c.reach ≤ start) (hsize : 0 ≤ size) (h : c.takeExit start size east = .ok (pos, d)) :
    c.Advances d ∧ c.front.Takes d.front pos size ∧
      Disjoint (Set.Ico pos (pos + size)) c.lanes.west.cover ∧
      (east = true → Set.Ico pos (pos + size) ⊆ d.lanes.east.cover) := by
  unfold takeExit at h
  split at h
  · next hplace =>
      cases h
      refine ⟨⟨rfl, rfl, rfl, rfl, rfl, ⟨rfl, rfl, rfl, rfl⟩⟩, ?_⟩
      exact Lanes.placeExit_takes hc hstart hsize hplace (le_max_left _ _) (le_max_right _ _)
  · cases h

theorem reach_le_startBelow (c : Strand ℚ) {gap : ℚ} (hgap : 0 ≤ gap) :
    c.reach ≤ c.startBelow gap := by
  unfold startBelow
  split
  · linarith
  · exact le_rfl

end Strand
end Flowchart
