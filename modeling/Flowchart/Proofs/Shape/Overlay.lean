import Flowchart.Proofs.Chart.Lines
import Flowchart.Proofs.Shape.Enclosed
/-! Drawings with debug marks in them. A mark that lies in the bounds of the group it is added to does
not change them, so everything else stays where it is. -/
namespace Flowchart

namespace Placed
variable {α : Type}

/-- Whether a leaf is part of the chart, rather than a frame, a marker or a placeholder. -/
def isDrawn (p : Placed α) : Bool :=
  match p.shape with
  | .rect _ | .diamond _ | .text _ | .path _ => true
  | .point _ | .frame _ | .group .. => false

def isFrame (p : Placed α) : Bool :=
  match p.shape with
  | .frame _ => true
  | .rect _ | .diamond _ | .text _ | .path _ | .point _ | .group .. => false

end Placed

namespace Layout
variable {α : Type} [Scalar α]

/-- The rectangles, diamonds, texts and connectors of a layout, in drawing order. -/
def drawn (l : Layout α) : List (Placed α) := l.leaves.filter Placed.isDrawn

def frames (l : Layout α) : List (Placed α) := l.leaves.filter Placed.isFrame

end Layout

namespace Shape
variable {α : Type} [Scalar α]

/-- What debugging adds to a drawing: a frame around a merged branch, or a marker at a jump. -/
inductive IsMark : Shape α → Prop
  | frame {o : Outline α} : IsMark (.frame o)
  | marker {x y : α} : IsMark (.point ⟨x, y, false⟩)

omit [Scalar α] in
theorem IsMark.not_isPlaceholder {s : Shape α} (h : s.IsMark) : s.isPlaceholder = false := by
  cases h <;> rfl

inductive Overlaid : List (Shape α) → List (Shape α) → Prop
  | nil : Overlaid [] []
  | leaf {s : Shape α} {shapes others : List (Shape α)} : s.IsLeaf → Overlaid shapes others →
      Overlaid (s :: shapes) (s :: others)
  | group {x y : α} {children marked : List (Shape α)} {b : Bounds α}
      {shapes others : List (Shape α)} : Overlaid children marked → Overlaid shapes others →
      Overlaid (.group x y children b :: shapes) (.group x y marked b :: others)
  | mark {s : Shape α} {shapes others : List (Shape α)} : s.IsMark → Overlaid shapes others →
      Overlaid shapes (s :: others)

theorem Overlaid.refl (shapes : List (Shape α)) : Overlaid shapes shapes := by
  match shapes with
  | [] => exact .nil
  | .group x y children b :: rest => exact .group (refl children) (refl rest)
  | .point p :: rest => exact .leaf (fun _ _ => rfl) (refl rest)
  | .path p :: rest => exact .leaf (fun _ _ => rfl) (refl rest)
  | .text t :: rest => exact .leaf (fun _ _ => rfl) (refl rest)
  | .rect o :: rest => exact .leaf (fun _ _ => rfl) (refl rest)
  | .frame o :: rest => exact .leaf (fun _ _ => rfl) (refl rest)
  | .diamond o :: rest => exact .leaf (fun _ _ => rfl) (refl rest)

theorem Overlaid.append {shapes others more marked : List (Shape α)} (h : Overlaid shapes others)
    (k : Overlaid more marked) : Overlaid (shapes ++ more) (others ++ marked) := by
  induction h with
  | nil => exact k
  | leaf hs _ ih => exact .leaf hs ih
  | group hc _ _ ih => exact .group hc ih
  | mark hs _ ih => exact .mark hs ih

/-- Marks leave the chart as it is, and its frames in order. -/
theorem Overlaid.leaves {shapes others : List (Shape α)} (h : Overlaid shapes others) (ox oy : α) :
    (leavesAll ox oy others).filter Placed.isDrawn =
        (leavesAll ox oy shapes).filter Placed.isDrawn ∧
      ((leavesAll ox oy shapes).filter Placed.isFrame).Sublist
        ((leavesAll ox oy others).filter Placed.isFrame) := by
  induction h generalizing ox oy with
  | nil => exact ⟨rfl, .refl _⟩
  | leaf hs _ ih =>
      obtain ⟨hdrawn, hframes⟩ := ih ox oy
      simp only [leavesAll, List.filter_append, hdrawn, true_and]
      exact (List.Sublist.refl _).append hframes
  | @group x y children marked b shapes others _ _ ihc ih =>
      obtain ⟨hinner, hinnerFrames⟩ := ihc (ox + x) (oy + y)
      obtain ⟨hdrawn, hframes⟩ := ih ox oy
      simp only [leavesAll, Shape.leaves, List.filter_append, hinner, hdrawn, true_and]
      exact hinnerFrames.append hframes
  | mark hs _ ih =>
      obtain ⟨hdrawn, hframes⟩ := ih ox oy
      rw [leavesAll, List.filter_append, List.filter_append, hdrawn]
      cases hs with
      | frame => exact ⟨rfl, (List.Sublist.cons _ hframes)⟩
      | marker => exact ⟨rfl, hframes⟩

end Shape

namespace Bounds
variable {a b : Bounds ℚ}

theorem union_of_inside (h : b.Inside a) : a.union b = a := by
  unfold union
  rw [min_eq_left h.minX, min_eq_left h.minY, max_eq_left h.maxX, max_eq_left h.maxY]

end Bounds

namespace Group
variable {g k : Group ℚ} {s t : Shape ℚ} {p : ℚ × ℚ}

/-- The second group differs from the first in the marks inside it only. -/
structure Overlaid (g k : Group ℚ) : Prop where
  x : k.x = g.x
  y : k.y = g.y
  bounds : k.bounds = g.bounds
  isEmpty : k.isEmpty = g.isEmpty
  children : Shape.Overlaid g.children k.children

theorem Overlaid.refl (g : Group ℚ) : g.Overlaid g := ⟨rfl, rfl, rfl, rfl, .refl _⟩

theorem Overlaid.extent (h : g.Overlaid k) : k.extent = g.extent := by
  unfold Group.extent
  rw [h.bounds, h.x, h.y]

theorem Overlaid.shift (h : g.Overlaid k) (dx dy : ℚ) : (g.shift dx dy).Overlaid (k.shift dx dy) :=
  ⟨congrArg (· + dx) h.x, congrArg (· + dy) h.y, h.bounds, h.isEmpty, h.children⟩

theorem Overlaid.push (h : g.Overlaid k) (hs : Shape.Overlaid [s] [t]) (hextent : t.extent = s.extent)
    (hshown : s.isPlaceholder = false) (hshown' : t.isPlaceholder = false) :
    (g.push s).Overlaid (k.push t) := by
  have hempty := (k.isEmpty_push hshown').trans (g.isEmpty_push hshown).symm
  revert hempty
  unfold Group.push
  rw [h.isEmpty]
  split
  · exact fun hempty => ⟨h.x, h.y, hextent, hempty, hs⟩
  · intro hempty
    refine ⟨h.x, h.y, ?_, hempty, h.children.append hs⟩
    rw [h.bounds, hextent]

theorem Overlaid.leaf (h : g.Overlaid k) (hs : s.IsLeaf) (hshown : s.isPlaceholder = false) :
    (g.push s).Overlaid (k.push s) :=
  h.push (.leaf hs .nil) rfl hshown hshown

theorem Overlaid.group {inner marked : Group ℚ} (h : g.Overlaid k) (hinner : inner.Overlaid marked) :
    (g.push inner.toShape).Overlaid (k.push marked.toShape) := by
  refine h.push ?_ hinner.extent rfl rfl
  unfold toShape
  rw [hinner.x, hinner.y, hinner.bounds]
  exact .group hinner.children .nil

/-- A mark within the bounds is not noticed. -/
theorem Overlaid.mark (h : g.Overlaid k) (hs : s.IsMark) (hsome : g.isEmpty = false)
    (hinside : s.extent.Inside g.bounds) : g.Overlaid (k.push s) := by
  have hempty := k.isEmpty_push hs.not_isPlaceholder
  revert hempty
  unfold Group.push
  rw [h.isEmpty, hsome]
  intro hempty
  refine ⟨h.x, h.y, ?_, hempty.trans hsome.symm, ?_⟩
  · exact (Bounds.union_of_inside (h.bounds.symm ▸ hinside)).trans h.bounds
  · have hadded := h.children.append (.mark hs .nil)
    rwa [List.append_nil] at hadded

/-- A drawing that reaches around a point. -/
structure Covers (g : Group ℚ) (p : ℚ × ℚ) : Prop where
  isEmpty : g.isEmpty = false
  inside : (Shape.point ⟨p.1, p.2, false⟩).extent.Inside g.bounds

theorem inside_push (g : Group ℚ) (s : Shape ℚ) : s.extent.Inside (g.push s).bounds := by
  unfold push
  split
  · exact .refl _
  · exact Bounds.inside_union_right _ _

theorem covers_push (hshown : s.isPlaceholder = false)
    (hinside : (Shape.point ⟨p.1, p.2, false⟩).extent.Inside s.extent) (g : Group ℚ) :
    (g.push s).Covers p :=
  ⟨g.isEmpty_push hshown, hinside.trans (g.inside_push s)⟩

theorem Covers.push (h : g.Covers p) (hshown : s.isPlaceholder = false) : (g.push s).Covers p := by
  refine ⟨g.isEmpty_push hshown, ?_⟩
  unfold Group.push
  rw [h.isEmpty]
  exact h.inside.trans (Bounds.inside_union_left _ _)

theorem Overlaid.marker (h : g.Overlaid k) (hp : g.Covers p) :
    g.Overlaid (k.push (.point ⟨p.1, p.2, false⟩)) :=
  h.mark .marker hp.isEmpty hp.inside

end Group

theorem Path.down_reaches (x y d : ℚ) :
    (Shape.point ⟨x, y + d, false⟩).extent.Inside (Shape.path (Path.down x y d)).extent := by
  have hpoint : (Shape.point ⟨x, y + d, false⟩).extent = (⟨0, d, 0, d⟩ : Bounds ℚ).offset x y := by
    change (⟨0 + x, 0 + (y + d), 0 + x, 0 + (y + d)⟩ : Bounds ℚ) = ⟨0 + x, d + y, 0 + x, d + y⟩
    rw [zero_add (y + d), add_comm y d]
  rw [hpoint]
  unfold down vertical push
  split
  · next hnone =>
      have hd : d = 0 := beq_iff_eq.mp hnone
      rw [hd]
      exact .refl _
  · refine Bounds.Inside.offset ⟨min_le_left _ _, ?_, le_max_left _ _, ?_⟩ x y
    · exact (min_le_right _ _).trans (zero_add d).le
    · exact (zero_add d).ge.trans (le_max_right _ _)

end Flowchart
