import Flowchart.Proofs.Shape.Boxes
/-! How drawings are built, and that what is built so lies in the bounds it carries. A group keeps
its bounds up to date as shapes arrive; what it holds is not moved afterwards, only the group is. -/
namespace Flowchart

section Building
variable {α : Type} [Scalar α]

def Shape.IsLeaf (s : Shape α) : Prop := ∀ ox oy, s.leaves ox oy = [⟨s, ox, oy⟩]

/-- Drawings that arise by adding leaves, and moved drawings, to nothing. -/
inductive Group.Made : Group α → Prop
  | empty : Made empty
  | leaf {g : Group α} {s : Shape α} : Made g → s.IsLeaf → Made (g.push s)
  | group {g h : Group α} {dx dy : α} : Made g → Made h → Made (g.push (h.shift dx dy).toShape)

theorem Group.made_around {outline : Shape α} (h : outline.IsLeaf) (caption : String) (tw th : α) :
    (around outline caption tw th).Made :=
  .leaf (.leaf .empty h) fun _ _ => rfl

theorem Group.made_boxAround (caption : String) (tw th padX padY : α) :
    (boxAround caption tw th padX padY).Made :=
  made_around (fun _ _ => rfl) caption tw th

theorem Group.made_decisionAround (caption : String) (tw th ratio : α) :
    (decisionAround caption tw th ratio).Made :=
  made_around (fun _ _ => rfl) caption tw th

end Building

namespace Bounds
variable {a b c : Bounds ℚ}

structure Inside (a b : Bounds ℚ) : Prop where
  minX : b.minX ≤ a.minX
  minY : b.minY ≤ a.minY
  maxX : a.maxX ≤ b.maxX
  maxY : a.maxY ≤ b.maxY

theorem Inside.refl (a : Bounds ℚ) : a.Inside a := ⟨le_rfl, le_rfl, le_rfl, le_rfl⟩

theorem Inside.trans (h : a.Inside b) (k : b.Inside c) : a.Inside c where
  minX := k.minX.trans h.minX
  minY := k.minY.trans h.minY
  maxX := h.maxX.trans k.maxX
  maxY := h.maxY.trans k.maxY

theorem Inside.offset (h : a.Inside b) (dx dy : ℚ) : (a.offset dx dy).Inside (b.offset dx dy) where
  minX := add_le_add_left h.minX dx
  minY := add_le_add_left h.minY dy
  maxX := add_le_add_left h.maxX dx
  maxY := add_le_add_left h.maxY dy

theorem inside_union_left (a b : Bounds ℚ) : a.Inside (a.union b) where
  minX := min_le_left _ _
  minY := min_le_left _ _
  maxX := le_max_left _ _
  maxY := le_max_left _ _

theorem inside_union_right (a b : Bounds ℚ) : b.Inside (a.union b) where
  minX := min_le_right _ _
  minY := min_le_right _ _
  maxX := le_max_right _ _
  maxY := le_max_right _ _

end Bounds

/-- A shape whose bounds reach around all of its leaves. -/
def Shape.Encloses (s : Shape ℚ) : Prop := ∀ p ∈ s.leaves 0 0, p.extent.Inside s.extent

/-- A group whose bounds reach around all leaves inside it, placeholders too. -/
def Group.Encloses (g : Group ℚ) : Prop :=
  ∀ p ∈ Shape.leavesAll 0 0 g.children, p.extent.Inside g.bounds

theorem Placed.extent_shift (p : Placed ℚ) (dx dy : ℚ) :
    (p.shift dx dy).extent = p.extent.offset dx dy := by
  unfold extent shift
  rw [Bounds.offset_offset]

theorem Shape.IsLeaf.encloses {s : Shape ℚ} (h : s.IsLeaf) : s.Encloses := by
  intro p hp
  rw [h, List.mem_singleton] at hp
  rw [hp]
  unfold Placed.extent
  rw [Bounds.offset_zero]
  exact .refl _

namespace Group
variable {g : Group ℚ}

/-- The leaves of a moved group lie where its bounds are moved to. -/
theorem Encloses.leaf_inside (h : g.Encloses) {p : Placed ℚ} (hp : p ∈ g.toShape.leaves 0 0) :
    p.extent.Inside g.extent := by
  unfold toShape at hp
  rw [Shape.leaves, Shape.leavesAll_shift Scalar.exact_rat] at hp
  obtain ⟨q, hq, rfl⟩ := List.mem_map.mp hp
  rw [Placed.extent_shift]
  exact (h q hq).offset g.x g.y

theorem Encloses.shift (h : g.Encloses) (dx dy : ℚ) : (g.shift dx dy).Encloses := h

theorem Encloses.toShape (h : g.Encloses) : g.toShape.Encloses := fun _ hp => h.leaf_inside hp

theorem encloses_empty : (empty : Group ℚ).Encloses := by
  intro p hp
  rw [List.mem_singleton.mp hp]
  change (((Bounds.zero : Bounds ℚ).offset 0 0).offset 0 0).Inside .zero
  rw [Bounds.offset_zero, Bounds.offset_zero]
  exact .refl _

theorem Encloses.push (hg : g.Encloses) {s : Shape ℚ} (hs : s.Encloses) : (g.push s).Encloses := by
  intro p hp
  unfold Group.push at hp ⊢
  split at hp
  · next hempty =>
      rw [if_pos hempty]
      rw [Shape.leavesAll, Shape.leavesAll, List.append_nil] at hp
      exact hs p hp
  · next hsome =>
      rw [if_neg hsome]
      rw [Shape.leavesAll_append, Shape.leavesAll, Shape.leavesAll, List.append_nil] at hp
      rcases List.mem_append.mp hp with hp | hp
      · exact (hg p hp).trans (Bounds.inside_union_left _ _)
      · exact (hs p hp).trans (Bounds.inside_union_right _ _)

theorem Made.encloses (h : g.Made) : g.Encloses := by
  induction h with
  | empty => exact encloses_empty
  | leaf _ hs ih => exact ih.push hs.encloses
  | group _ _ ihg ihh => exact ihg.push (ihh.shift _ _).toShape

end Group
end Flowchart
