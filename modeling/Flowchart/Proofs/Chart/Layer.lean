import Flowchart.Chart.Strand
import Flowchart.Proofs.Lane.Cover
/-! Layers of horizontal lines. A layer is what is laid out between two fronts: the lines in it lie
below what the first front has reached, and the second one reserves them. Layers are put one below
the other or side by side, and in both cases the lines of one keep the margin to those of the other. -/
namespace Flowchart

/-- A horizontal line, by its height and the x over which it runs. The line of a pending jump has no
end yet. -/
structure Hline where
  y : ℚ
  range : Set ℚ

namespace Hline
variable {pad : ℚ} {a b c : Hline}

/-- Lines that share more than a point in x keep the margin in y. -/
def Apart (pad : ℚ) (a b : Hline) : Prop :=
  ∀ p ∈ a.range ∩ b.range, ∀ q ∈ a.range ∩ b.range, p < q → 2 * pad ≤ |a.y - b.y|

/-- The heights that a line keeps free of others. -/
def band (pad : ℚ) (a : Hline) : Set ℚ := Set.Ioo (a.y - pad) (a.y + pad)

def shift (a : Hline) (dx : ℚ) : Hline := ⟨a.y, {x | x - dx ∈ a.range}⟩

/-- The first line runs over a part of the second. -/
def Within (a b : Hline) : Prop := a.y = b.y ∧ a.range ⊆ b.range

structure Inside (hull : Set ℚ) (a : Hline) : Prop where
  west : ∃ m ∈ hull, a.range ⊆ Set.Ici m
  east : ∃ m ∈ hull, a.range ⊆ Set.Iic m

def between (x₁ x₂ y : ℚ) : Hline := ⟨y, Set.uIcc x₁ x₂⟩

def eastward (p : ℚ × ℚ) : Hline := ⟨p.2, Set.Ici p.1⟩

def westward (p : ℚ × ℚ) : Hline := ⟨p.2, Set.Iic p.1⟩

instance : Std.Symm (Apart pad) where
  symm a b h p hp q hq hpq := by
    rw [abs_sub_comm]
    exact h p hp.symm q hq.symm hpq

theorem apart_of_bands (h : Disjoint (a.band pad) (b.band pad)) : a.Apart pad b := by
  intro _ _ _ _ _
  by_contra hclose
  rw [not_le, abs_lt] at hclose
  -- the height in the middle lies in both bands
  have ha : (a.y + b.y) / 2 ∈ a.band pad := by constructor <;> linarith
  have hb : (a.y + b.y) / 2 ∈ b.band pad := by constructor <;> linarith
  exact Set.disjoint_left.mp h ha hb

theorem apart_of_held {s : Set ℚ} (ha : a.band pad ⊆ s) (hb : Disjoint (b.band pad) s) :
    a.Apart pad b := apart_of_bands (hb.symm.mono_left ha)

theorem apart_of_above {t : ℚ} (ha : a.y + pad ≤ t) (hb : t + pad ≤ b.y) : a.Apart pad b := by
  intro _ _ _ _ _
  rw [abs_sub_comm]
  exact (by linarith : 2 * pad ≤ b.y - a.y).trans (le_abs_self _)

theorem apart_of_beside {l r : ℚ} (ha : a.range ⊆ Set.Iic l) (hb : b.range ⊆ Set.Ici r)
    (h : l ≤ r) : a.Apart pad b := by
  intro p hp q hq hpq
  have hq' : q ≤ l := ha hq.1
  have hp' : r ≤ p := hb hp.2
  linarith

theorem Apart.within (h : b.Apart pad c) (hab : a.Within b) : a.Apart pad c := by
  intro p hp q hq hpq
  rw [hab.1]
  exact h p ⟨hab.2 hp.1, hp.2⟩ q ⟨hab.2 hq.1, hq.2⟩ hpq

theorem Apart.shift (h : a.Apart pad b) (dx : ℚ) : (a.shift dx).Apart pad (b.shift dx) :=
  fun p hp q hq hpq => h (p - dx) hp (q - dx) hq (sub_lt_sub_right hpq dx)

theorem Within.refl (a : Hline) : a.Within a := ⟨rfl, subset_rfl⟩

theorem Within.band (h : a.Within b) : a.band pad = b.band pad := by
  unfold Hline.band
  rw [h.1]

theorem Inside.mono {hull hull' : Set ℚ} (h : a.Inside hull) (hsub : hull ⊆ hull') :
    a.Inside hull' where
  west := h.west.imp fun _ hm => ⟨hsub hm.1, hm.2⟩
  east := h.east.imp fun _ hm => ⟨hsub hm.1, hm.2⟩

theorem Inside.shift {hull : Set ℚ} (h : a.Inside hull) (dx : ℚ) :
    (a.shift dx).Inside {x | x - dx ∈ hull} := by
  obtain ⟨⟨l, hl, hwest⟩, r, hr, heast⟩ := h
  refine ⟨⟨l + dx, by simpa using hl, fun x hx => ?_⟩, r + dx, by simpa using hr, fun x hx => ?_⟩
  · have hx' : l ≤ x - dx := hwest hx
    exact le_sub_iff_add_le.mp hx'
  · have hx' : x - dx ≤ r := heast hx
    exact sub_le_iff_le_add.mp hx'

theorem between_inside {hull : Set ℚ} {x₁ x₂ y : ℚ} (h₁ : x₁ ∈ hull) (h₂ : x₂ ∈ hull) :
    (between x₁ x₂ y).Inside hull := by
  rcases le_total x₁ x₂ with h | h
  · exact ⟨⟨x₁, h₁, by simp [between, Set.uIcc_of_le h, Set.Icc_subset_Ici_self]⟩,
      ⟨x₂, h₂, by simp [between, Set.uIcc_of_le h, Set.Icc_subset_Iic_self]⟩⟩
  · exact ⟨⟨x₂, h₂, by simp [between, Set.uIcc_of_ge h, Set.Icc_subset_Ici_self]⟩,
      ⟨x₁, h₁, by simp [between, Set.uIcc_of_ge h, Set.Icc_subset_Iic_self]⟩⟩

theorem between_within_eastward {p : ℚ × ℚ} {lane : ℚ} (h : p.1 ≤ lane) :
    (between p.1 lane p.2).Within (eastward p) := by
  refine ⟨rfl, ?_⟩
  unfold between eastward
  rw [Set.uIcc_of_le h]
  exact Set.Icc_subset_Ici_self

theorem between_within_westward {p : ℚ × ℚ} {lane : ℚ} (h : lane ≤ p.1) :
    (between p.1 lane p.2).Within (westward p) := by
  refine ⟨rfl, ?_⟩
  unfold between westward
  rw [Set.uIcc_of_ge h]
  exact Set.Icc_subset_Iic_self

end Hline

open Hline

/-- Every two lines keep the margin. -/
def Scattered (pad : ℚ) (lines : Multiset Hline) : Prop := lines.Pairwise (Apart pad)

theorem forall_mem_add {lines others : Multiset Hline} {p : Hline → Prop} :
    (∀ a ∈ lines + others, p a) ↔ (∀ a ∈ lines, p a) ∧ ∀ a ∈ others, p a := by
  simp only [Multiset.mem_add, or_imp, forall_and]

/-- What is shown of two sets of lines comes from the one or from the other. -/
theorem exists_add_of_le_add {lines others some : Multiset Hline} (h : some ≤ lines + others) :
    ∃ l ≤ lines, ∃ o ≤ others, some = l + o := by
  classical
  refine ⟨some ∩ lines, Multiset.inter_le_right, some - lines, ?_, ?_⟩
  · exact Multiset.sub_le_iff_le_add'.mpr h
  · rw [add_comm]
    exact (Multiset.sub_add_inter some lines).symm

namespace Scattered
variable {pad : ℚ} {lines others : Multiset Hline}

theorem zero : Scattered pad 0 := Multiset.pairwise_zero _

theorem add_iff : Scattered pad (lines + others) ↔
    Scattered pad lines ∧ Scattered pad others ∧ ∀ a ∈ lines, ∀ b ∈ others, a.Apart pad b := by
  refine Quotient.inductionOn₂ lines others fun l m => ?_
  unfold Scattered
  simp only [Multiset.quot_mk_to_coe, Multiset.coe_add, Multiset.pairwise_coe_iff_pairwise,
    List.pairwise_append, Multiset.mem_coe]

theorem singleton (a : Hline) : Scattered pad {a} := ⟨[a], rfl, List.pairwise_singleton _ _⟩

theorem mono (h : Scattered pad others) (hle : lines ≤ others) : Scattered pad lines := by
  obtain ⟨rest, rfl⟩ := Multiset.le_iff_exists_add.mp hle
  exact (add_iff.mp h).1

theorem shift (h : Scattered pad lines) (dx : ℚ) : Scattered pad (lines.map (·.shift dx)) := by
  obtain ⟨l, rfl, hl⟩ := h
  exact ⟨l.map (·.shift dx), rfl, List.pairwise_map.mpr (hl.imp fun h => h.shift dx)⟩

theorem within (h : Scattered pad others) (hrel : Multiset.Rel Within lines others) :
    Scattered pad lines := by
  induction hrel with
  | zero => exact zero
  | @cons a b l m hab hrest ih =>
      rw [← Multiset.singleton_add, add_iff] at h ⊢
      refine ⟨singleton a, ih h.2.1, fun c hc d hd => ?_⟩
      obtain rfl := Multiset.mem_singleton.mp hc
      obtain ⟨e, he, hde⟩ := Multiset.exists_mem_of_rel_of_mem hrest hd
      have hbe := h.2.2 b (Multiset.mem_singleton_self b) e he
      exact symm_of (Apart pad) ((symm_of (Apart pad) (hbe.within hab)).within hde)

end Scattered

/-- How far down a branch has come, and what is reserved so far. -/
structure Front where
  reach : ℚ
  lanes : Lanes ℚ

/-- The ranges of a front are in order, and no range below its reach is out of bounds. -/
structure Front.Sound (s : Front) : Prop where
  west : RangeSet.Canonical s.lanes.west
  east : RangeSet.Canonical s.lanes.east
  floor : ∀ f ∈ s.lanes.west.floor, f ≤ s.reach
  eastFree : s.lanes.east.floor = none

/-- The lines between two fronts. Those that run out of the hull to the west dodge everything that
was reserved before, those that run out to the east are reserved against what comes later. -/
structure Layer (pad : ℚ) (hull : Set ℚ) (s t : Front) (lines : Multiset Hline) : Prop where
  sound : s.Sound → t.Sound
  floor : t.lanes.west.floor = s.lanes.west.floor
  reach : s.reach ≤ t.reach
  west : s.lanes.west.cover ⊆ t.lanes.west.cover
  east : s.lanes.east.cover ⊆ t.lanes.east.cover
  apart : Scattered pad lines
  below : ∀ a ∈ lines, s.reach + pad ≤ a.y
  above : ∀ a ∈ lines, a.y + pad ≤ t.reach
  held : ∀ a ∈ lines, a.band pad ⊆ t.lanes.west.cover
  clear : ∀ a ∈ lines, Disjoint (a.band pad) s.lanes.east.cover
  westward : ∀ a ∈ lines,
    (∃ m ∈ hull, a.range ⊆ Set.Ici m) ∨ Disjoint (a.band pad) s.lanes.west.cover
  eastward : ∀ a ∈ lines,
    (∃ m ∈ hull, a.range ⊆ Set.Iic m) ∨ a.band pad ⊆ t.lanes.east.cover

namespace Layer
variable {pad : ℚ} {hull hull' : Set ℚ} {s t u : Front} {lines others : Multiset Hline}

theorem refl (s : Front) : Layer pad hull s s 0 where
  sound := id
  floor := rfl
  reach := le_rfl
  west := subset_rfl
  east := subset_rfl
  apart := .zero
  below := by simp
  above := by simp
  held := by simp
  clear := by simp
  westward := by simp
  eastward := by simp

theorem mono (h : Layer pad hull s t lines) (hsub : hull ⊆ hull') :
    Layer pad hull' s t lines where
  sound := h.sound
  floor := h.floor
  reach := h.reach
  west := h.west
  east := h.east
  apart := h.apart
  below := h.below
  above := h.above
  held := h.held
  clear := h.clear
  westward a ha := (h.westward a ha).imp_left (Exists.imp fun _ hm => ⟨hsub hm.1, hm.2⟩)
  eastward a ha := (h.eastward a ha).imp_left (Exists.imp fun _ hm => ⟨hsub hm.1, hm.2⟩)

theorem le (h : Layer pad hull s t others) (hle : lines ≤ others) : Layer pad hull s t lines := by
  have hmem : ∀ a ∈ lines, a ∈ others := fun a ha => Multiset.mem_of_le hle ha
  exact
    { sound := h.sound, floor := h.floor, reach := h.reach, west := h.west, east := h.east,
      apart := h.apart.mono hle, below := fun a ha => h.below a (hmem a ha),
      above := fun a ha => h.above a (hmem a ha), held := fun a ha => h.held a (hmem a ha),
      clear := fun a ha => h.clear a (hmem a ha), westward := fun a ha => h.westward a (hmem a ha),
      eastward := fun a ha => h.eastward a (hmem a ha) }

theorem raise (h : Layer pad hull s t lines) {reach : ℚ} (ht : t.reach ≤ reach) :
    Layer pad hull s ⟨reach, t.lanes⟩ lines where
  sound hs := ⟨(h.sound hs).west, (h.sound hs).east,
    fun f hf => ((h.sound hs).floor f hf).trans ht, (h.sound hs).eastFree⟩
  floor := h.floor
  reach := h.reach.trans ht
  west := h.west
  east := h.east
  apart := h.apart
  below := h.below
  above a ha := (h.above a ha).trans ht
  held := h.held
  clear := h.clear
  westward := h.westward
  eastward := h.eastward

/-- What is laid out below a layer makes one layer with it. -/
theorem andThen (h : Layer pad hull s t lines) (k : Layer pad hull t u others) :
    Layer pad hull s u (lines + others) where
  sound := k.sound ∘ h.sound
  floor := k.floor.trans h.floor
  reach := h.reach.trans k.reach
  west := h.west.trans k.west
  east := h.east.trans k.east
  apart := Scattered.add_iff.mpr
    ⟨h.apart, k.apart, fun a ha b hb => apart_of_above (h.above a ha) (k.below b hb)⟩
  below a ha := by
    rcases Multiset.mem_add.mp ha with ha | ha
    · exact h.below a ha
    · exact (add_le_add_left h.reach pad).trans (k.below a ha)
  above a ha := by
    rcases Multiset.mem_add.mp ha with ha | ha
    · exact (h.above a ha).trans k.reach
    · exact k.above a ha
  held a ha := by
    rcases Multiset.mem_add.mp ha with ha | ha
    · exact (h.held a ha).trans k.west
    · exact k.held a ha
  clear a ha := by
    rcases Multiset.mem_add.mp ha with ha | ha
    · exact h.clear a ha
    · exact (k.clear a ha).mono_right h.east
  westward a ha := by
    rcases Multiset.mem_add.mp ha with ha | ha
    · exact h.westward a ha
    · exact (k.westward a ha).imp_right fun hd => hd.mono_right h.west
  eastward a ha := by
    rcases Multiset.mem_add.mp ha with ha | ha
    · exact (h.eastward a ha).imp_right fun hd => hd.trans k.east
    · exact k.eastward a ha

/-- What is laid out beside a layer, from the same height on and with what the layer has reserved,
makes one layer with it. -/
theorem beside (h : Layer pad hull s t lines) (k : Layer pad hull' ⟨s.reach, t.lanes⟩ u others)
    (hparted : ∀ l ∈ hull, ∀ r ∈ hull', l ≤ r) {reach : ℚ} (ht : t.reach ≤ reach)
    (hu : u.reach ≤ reach) :
    Layer pad (hull ∪ hull') s ⟨reach, u.lanes⟩ (lines + others) := by
  have hstart : s.Sound → (⟨s.reach, t.lanes⟩ : Front).Sound := fun hs =>
    ⟨(h.sound hs).west, (h.sound hs).east, h.floor.symm ▸ hs.floor, (h.sound hs).eastFree⟩
  refine
    { sound := fun hs => ?_, floor := k.floor.trans h.floor, reach := h.reach.trans ht,
      west := h.west.trans k.west, east := h.east.trans k.east,
      apart := Scattered.add_iff.mpr ⟨h.apart, k.apart, fun a ha b hb => ?_⟩,
      below := fun a ha => ?_, above := fun a ha => ?_, held := fun a ha => ?_,
      clear := fun a ha => ?_, westward := fun a ha => ?_, eastward := fun a ha => ?_ }
  · have hend := k.sound (hstart hs)
    exact ⟨hend.west, hend.east, fun f hf => (hend.floor f hf).trans hu, hend.eastFree⟩
  · -- a line that leaves its side for the other meets only lines that dodge it
    rcases h.eastward a ha with ⟨l, hl, hleft⟩ | hreserved
    · rcases k.westward b hb with ⟨r, hr, hright⟩ | hdodges
      · exact apart_of_beside hleft hright (hparted l hl r hr)
      · exact apart_of_held (h.held a ha) hdodges
    · exact apart_of_held hreserved (k.clear b hb)
  · rcases Multiset.mem_add.mp ha with ha | ha
    · exact h.below a ha
    · exact k.below a ha
  · rcases Multiset.mem_add.mp ha with ha | ha
    · exact (h.above a ha).trans ht
    · exact (k.above a ha).trans hu
  · rcases Multiset.mem_add.mp ha with ha | ha
    · exact (h.held a ha).trans k.west
    · exact k.held a ha
  · rcases Multiset.mem_add.mp ha with ha | ha
    · exact h.clear a ha
    · exact (k.clear a ha).mono_right h.east
  · rcases Multiset.mem_add.mp ha with ha | ha
    · exact (h.westward a ha).imp_left (Exists.imp fun _ hm => ⟨.inl hm.1, hm.2⟩)
    · exact (k.westward a ha).imp (Exists.imp fun _ hm => ⟨.inr hm.1, hm.2⟩)
        fun hd => hd.mono_right h.west
  · rcases Multiset.mem_add.mp ha with ha | ha
    · exact (h.eastward a ha).imp (Exists.imp fun _ hm => ⟨.inl hm.1, hm.2⟩)
        fun hd => hd.trans k.east
    · exact (k.eastward a ha).imp_left (Exists.imp fun _ hm => ⟨.inr hm.1, hm.2⟩)

theorem within (h : Layer pad hull s t (lines + others)) (hsub : hull ⊆ hull')
    {parts shown : Multiset Hline} (hrel : Multiset.Rel Within parts others) (hle : shown ≤ parts)
    (hinside : ∀ a ∈ shown, a.Inside hull') : Layer pad hull' s t (lines + shown) := by
  have hkept := (h.le (Multiset.le_add_right lines others)).mono hsub
  have hall : Multiset.Rel Within (lines + parts) (lines + others) :=
    (Multiset.rel_refl_of_refl_on fun a _ => .refl a).add hrel
  have hpart : ∀ a ∈ shown, ∃ b ∈ lines + others, a.Within b := fun a ha =>
    Multiset.exists_mem_of_rel_of_mem hall
      (Multiset.mem_add.mpr (.inr (Multiset.mem_of_le hle ha)))
  refine
    { sound := h.sound, floor := h.floor, reach := h.reach, west := h.west, east := h.east,
      apart := (h.apart.within hall).mono (add_le_add_right hle lines),
      below := forall_mem_add.mpr ⟨hkept.below, fun a ha => ?_⟩,
      above := forall_mem_add.mpr ⟨hkept.above, fun a ha => ?_⟩,
      held := forall_mem_add.mpr ⟨hkept.held, fun a ha => ?_⟩,
      clear := forall_mem_add.mpr ⟨hkept.clear, fun a ha => ?_⟩,
      westward := forall_mem_add.mpr ⟨hkept.westward, fun a ha => .inl (hinside a ha).west⟩,
      eastward := forall_mem_add.mpr ⟨hkept.eastward, fun a ha => .inl (hinside a ha).east⟩ }
  all_goals obtain ⟨b, hb, hab⟩ := hpart a ha
  · exact hab.1 ▸ h.below b hb
  · exact hab.1 ▸ h.above b hb
  · exact hab.band ▸ h.held b hb
  · exact hab.band ▸ h.clear b hb

theorem shift (h : Layer pad hull s t lines) (dx : ℚ) :
    Layer pad {x | x - dx ∈ hull} s t (lines.map (·.shift dx)) := by
  refine
    { sound := h.sound, floor := h.floor, reach := h.reach, west := h.west, east := h.east,
      apart := h.apart.shift dx, below := fun a ha => ?_, above := fun a ha => ?_,
      held := fun a ha => ?_, clear := fun a ha => ?_, westward := fun a ha => ?_,
      eastward := fun a ha => ?_ }
  all_goals obtain ⟨b, hb, rfl⟩ := Multiset.mem_map.mp ha
  · exact h.below b hb
  · exact h.above b hb
  · exact h.held b hb
  · exact h.clear b hb
  · refine (h.westward b hb).imp_left ?_
    rintro ⟨m, hm, hrange⟩
    refine ⟨m + dx, by simpa using hm, fun x hx => ?_⟩
    have hx' : m ≤ x - dx := hrange hx
    exact le_sub_iff_add_le.mp hx'
  · refine (h.eastward b hb).imp_left ?_
    rintro ⟨m, hm, hrange⟩
    refine ⟨m + dx, by simpa using hm, fun x hx => ?_⟩
    have hx' : x - dx ≤ m := hrange hx
    exact sub_le_iff_le_add.mp hx'

/-- A loop body has lanes of its own. Once it holds no pending jumps, it is a layer of the branch
around it. -/
theorem fold (h : Layer pad hull ⟨s.reach, s.lanes.inner s.reach⟩ t lines) (hs : s.Sound)
    (hinside : ∀ a ∈ lines, a.Inside hull) {reach : ℚ} (ht : t.reach ≤ reach) :
    Layer pad hull s ⟨reach, s.lanes.fold t.lanes⟩ lines := by
  obtain ⟨hwest, hwestKept, hwestFloor, hwestHeld⟩ := RangeSet.fold_spec hs.west t.lanes.west
  obtain ⟨heast, heastKept, heastFloor, -⟩ := RangeSet.fold_spec hs.east t.lanes.east
  have hreach : s.reach ≤ reach := h.reach.trans ht
  exact
    { sound := fun _ => ⟨hwest, heast, fun f hf => (hs.floor f (hwestFloor ▸ hf)).trans hreach,
        heastFloor.trans hs.eastFree⟩
      floor := hwestFloor
      reach := hreach
      west := hwestKept
      east := heastKept
      apart := h.apart
      below := h.below
      above := fun a ha => (h.above a ha).trans ht
      held := fun a ha y hy => by
        refine hwestHeld y (h.held a ha hy) fun f hf => ?_
        have hbelow : s.reach + pad ≤ a.y := h.below a ha
        linarith [hs.floor f hf, hy.1]
      clear := h.clear
      westward := fun a ha => .inl (hinside a ha).west
      eastward := fun a ha => .inl (hinside a ha).east }

end Layer

end Flowchart
