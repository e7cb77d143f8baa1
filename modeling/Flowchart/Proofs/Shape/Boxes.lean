import Flowchart.Proofs.Lane.Order
import Flowchart.Proofs.Shape.Moved
/-! The boxes of a drawing: where its rectangles and diamonds lie, in drawing order. -/
namespace Flowchart

section Definitions
variable {α : Type} [Scalar α]

def Placed.box? (p : Placed α) : Option (Bounds α) :=
  match p.shape with
  | .rect _ | .diamond _ => some p.extent
  | .point _ | .path _ | .text _ | .frame _ | .group .. => none

def Layout.boxes (l : Layout α) : List (Bounds α) := l.leaves.filterMap Placed.box?

def Shape.boxes (s : Shape α) : List (Bounds α) := (s.leaves 0 0).filterMap Placed.box?

def Group.boxes (g : Group α) : List (Bounds α) :=
  (Shape.leavesAll 0 0 g.children).filterMap Placed.box?

theorem Shape.boxes_of_isPlaceholder {s : Shape α} (h : s.isPlaceholder = true) : s.boxes = [] := by
  cases s <;> first | rfl | cases h

@[simp]
theorem Group.boxes_empty : (empty : Group α).boxes = [] := rfl

@[simp]
theorem Group.boxes_shift (g : Group α) (dx dy : α) : (g.shift dx dy).boxes = g.boxes := rfl

theorem Shape.boxesAll_of_isPlaceholder (s : Shape α) (h : s.isPlaceholder = true) :
    (leavesAll 0 0 [s]).filterMap Placed.box? = [] := by
  rw [leavesAll, leavesAll, List.append_nil]
  exact boxes_of_isPlaceholder h

theorem Group.boxes_of_isEmpty {g : Group α} (h : g.isEmpty = true) : g.boxes = [] :=
  collect_of_isEmpty (fun shapes => (Shape.leavesAll 0 0 shapes).filterMap Placed.box?)
    Shape.boxesAll_of_isPlaceholder h

theorem Group.boxes_push (g : Group α) (s : Shape α) : (g.push s).boxes = g.boxes ++ s.boxes := by
  have hpush := collect_push (fun shapes => (Shape.leavesAll 0 0 shapes).filterMap Placed.box?)
    (fun shapes others => by rw [Shape.leavesAll_append, List.filterMap_append])
    Shape.boxesAll_of_isPlaceholder g s
  rwa [Shape.leavesAll, Shape.leavesAll, List.append_nil] at hpush

end Definitions

theorem Bounds.offset_offset (b : Bounds ℚ) (dx dy ex ey : ℚ) :
    (b.offset dx dy).offset ex ey = b.offset (dx + ex) (dy + ey) := by
  simp only [offset, add_assoc]

theorem Bounds.offset_zero (b : Bounds ℚ) : b.offset 0 0 = b := by
  simp only [offset, add_zero]

theorem Placed.box?_shift (p : Placed ℚ) (dx dy : ℚ) :
    (p.shift dx dy).box? = p.box?.map (·.offset dx dy) := by
  unfold box? shift
  cases hs : p.shape <;> simp only [Option.map_none, Option.map_some, extent, hs,
    Bounds.offset_offset]

theorem filterMap_box?_shift (leaves : List (Placed ℚ)) (dx dy : ℚ) :
    (leaves.map (·.shift dx dy)).filterMap Placed.box? =
      (leaves.filterMap Placed.box?).map (·.offset dx dy) := by
  rw [List.filterMap_map, List.map_filterMap]
  exact congrArg (leaves.filterMap ·) (funext fun p => p.box?_shift dx dy)

theorem Group.boxes_toShape (g : Group ℚ) : g.toShape.boxes = g.boxes.map (·.offset g.x g.y) := by
  unfold Shape.boxes boxes toShape
  rw [Shape.leaves, Shape.leavesAll_shift Scalar.exact_rat]
  exact filterMap_box?_shift _ _ _

theorem Layout.boxes_eq (l : Layout ℚ) :
    l.boxes = l.root.boxes.map (·.offset l.root.x l.root.y) := l.root.boxes_toShape

namespace Bounds
variable {a b : Bounds ℚ}

def interior (b : Bounds ℚ) : Set (ℚ × ℚ) := Set.Ioo b.minX b.maxX ×ˢ Set.Ioo b.minY b.maxY

/-- The first box lies west of the second or above it. -/
def Precedes (a b : Bounds ℚ) : Prop := a.maxX ≤ b.minX ∨ a.maxY ≤ b.minY

theorem Precedes.offset (h : a.Precedes b) (dx dy : ℚ) :
    (a.offset dx dy).Precedes (b.offset dx dy) :=
  h.imp (fun h => add_le_add_left h dx) fun h => add_le_add_left h dy

theorem Precedes.disjoint (h : a.Precedes b) : Disjoint a.interior b.interior := by
  refine Set.disjoint_left.mpr ?_
  rintro ⟨x, y⟩ ⟨⟨-, hx⟩, -, hy⟩ ⟨⟨hx', -⟩, hy', -⟩
  rcases h with h | h
  · exact absurd (hx.trans_le h) (not_lt.mpr hx'.le)
  · exact absurd (hy.trans_le h) (not_lt.mpr hy'.le)

end Bounds

structure Group.Snug (g : Group ℚ) : Prop where
  x : g.x = 0
  y : g.y = 0
  inside : ∀ b ∈ g.boxes, g.extent.minX ≤ b.minX ∧ b.maxX ≤ g.extent.maxX

def Shape.Snug (s : Shape ℚ) : Prop :=
  ∀ b ∈ s.boxes, s.extent.minX ≤ b.minX ∧ b.maxX ≤ s.extent.maxX

theorem Shape.snug_of_boxes {s : Shape ℚ} (h : s.boxes = []) : s.Snug := by
  intro b hb
  rw [h] at hb
  cases hb

namespace Group
variable {g : Group ℚ}

theorem snug_empty : (empty : Group ℚ).Snug := ⟨rfl, rfl, by simp⟩

theorem Snug.toShape (h : g.Snug) (dx dy : ℚ) : (g.shift dx dy).toShape.Snug := by
  intro b hb
  rw [boxes_toShape, boxes_shift] at hb
  obtain ⟨a, ha, rfl⟩ := List.mem_map.mp hb
  obtain ⟨hmin, hmax⟩ := h.inside a ha
  change g.bounds.minX + g.x ≤ a.minX at hmin
  change a.maxX ≤ g.bounds.maxX + g.x at hmax
  change g.bounds.minX + (g.x + dx) ≤ a.minX + (g.x + dx) ∧
    a.maxX + (g.x + dx) ≤ g.bounds.maxX + (g.x + dx)
  rw [h.x] at hmin hmax ⊢
  exact ⟨by linarith, by linarith⟩

theorem Snug.push (h : g.Snug) {s : Shape ℚ} (hs : s.Snug) : (g.push s).Snug := by
  have hplace : (g.push s).x = g.x ∧ (g.push s).y = g.y := by
    unfold Group.push
    split <;> exact ⟨rfl, rfl⟩
  refine ⟨hplace.1.trans h.x, hplace.2.trans h.y, fun b hb => ?_⟩
  rw [boxes_push] at hb
  cases hempty : g.isEmpty with
  | true =>
      rw [boxes_of_isEmpty hempty, List.nil_append] at hb
      obtain ⟨hmin, hmax⟩ := hs b hb
      unfold Group.push extent
      rw [if_pos hempty, h.x]
      exact ⟨(add_zero _).trans_le hmin, hmax.trans_eq (add_zero _).symm⟩
  | false =>
      unfold Group.push extent
      rw [if_neg (Bool.eq_false_iff.mp hempty), h.x]
      change min g.bounds.minX s.extent.minX + 0 ≤ b.minX ∧
        b.maxX ≤ max g.bounds.maxX s.extent.maxX + 0
      rw [add_zero, add_zero]
      rcases List.mem_append.mp hb with hb | hb
      · obtain ⟨hmin, hmax⟩ := h.inside b hb
        change g.bounds.minX + g.x ≤ b.minX at hmin
        change b.maxX ≤ g.bounds.maxX + g.x at hmax
        rw [h.x, add_zero] at hmin hmax
        exact ⟨min_le_of_left_le hmin, le_max_of_le_left hmax⟩
      · obtain ⟨hmin, hmax⟩ := hs b hb
        exact ⟨min_le_of_right_le hmin, le_max_of_le_right hmax⟩

/-- A group with one box, at its origin. It is at least as high as the box. -/
def OneBox (g : Group ℚ) : Prop := ∃ w h, g.Snug ∧ g.boxes = [⟨0, 0, w, h⟩] ∧ h ≤ g.bounds.height

theorem around_oneBox {outline : Shape ℚ} {w h : ℚ} (hsize : outline.extent = ⟨0, 0, w, h⟩)
    (hboxes : outline.boxes = [⟨0, 0, w, h⟩]) (caption : String) (tw th : ℚ) :
    (around outline caption tw th).OneBox := by
  have hsome : ((empty : Group ℚ).push outline).isEmpty = false := by
    change outline.isPlaceholder = false
    refine eq_false_of_ne_true fun hplace => ?_
    rw [Shape.boxes_of_isPlaceholder hplace] at hboxes
    cases hboxes
  have houtline : outline.Snug := by
    intro b hb
    rw [hboxes, List.mem_singleton] at hb
    rw [hb, hsize]
    exact ⟨le_rfl, le_rfl⟩
  obtain ⟨text, htext, haround⟩ : ∃ text : Shape ℚ, text.boxes = [] ∧
      around outline caption tw th = (empty.push outline).push text := ⟨.text _, rfl, rfl⟩
  rw [haround]
  refine ⟨w, h, (snug_empty.push houtline).push (Shape.snug_of_boxes htext), ?_, ?_⟩
  · rw [boxes_push, boxes_push, htext, hboxes]
    rfl
  · have hfirst : ((empty : Group ℚ).push outline).bounds = ⟨0, 0, w, h⟩ := hsize
    generalize (empty : Group ℚ).push outline = first at hsome hfirst ⊢
    unfold push
    rw [if_neg (Bool.eq_false_iff.mp hsome)]
    change h ≤ max first.bounds.maxY text.extent.maxY - min first.bounds.minY text.extent.minY
    rw [hfirst]
    exact (sub_zero h).ge.trans (sub_le_sub (le_max_left _ _) (min_le_left _ _))

theorem boxAround_oneBox (caption : String) (tw th padX padY : ℚ) :
    (boxAround caption tw th padX padY).OneBox := by
  have hextent (w h : ℚ) : (Shape.rect ⟨0, 0, w, h⟩).extent = ⟨0, 0, w, h⟩ :=
    Bounds.offset_zero (.ofSize w h)
  refine around_oneBox (hextent _ _) ?_ caption tw th
  change [(Shape.rect _).extent.offset 0 0] = _
  rw [hextent, Bounds.offset_zero]

theorem decisionAround_oneBox (caption : String) (tw th ratio : ℚ) :
    (decisionAround caption tw th ratio).OneBox := by
  have hextent (w h : ℚ) : (Shape.diamond ⟨0, 0, w, h⟩).extent = ⟨0, 0, w, h⟩ :=
    Bounds.offset_zero (.ofSize w h)
  refine around_oneBox (hextent _ _) ?_ caption tw th
  change [(Shape.diamond _).extent.offset 0 0] = _
  rw [hextent, Bounds.offset_zero]

end Group

end Flowchart
