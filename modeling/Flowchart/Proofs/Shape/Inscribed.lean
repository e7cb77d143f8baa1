import Mathlib.Analysis.Convex.Hull
import Mathlib.Tactic.Linarith
import Flowchart.Output.Svg
/-! A caption fits its decision. The outline of a decision is wider and higher than its caption by just so
much that the corners of the caption touch the four sides of the diamond that is drawn. -/
namespace Flowchart

def Bounds.corners (b : Bounds ℚ) : List (ℚ × ℚ) :=
  [(b.minX, b.minY), (b.maxX, b.minY), (b.maxX, b.maxY), (b.minX, b.maxY)]

def Bounds.Holds (b : Bounds ℚ) (p : ℚ × ℚ) : Prop :=
  p.1 ∈ Set.Icc b.minX b.maxX ∧ p.2 ∈ Set.Icc b.minY b.maxY

/-- A point of a rectangle that lies on none of its sides. -/
def Bounds.HoldsInside (b : Bounds ℚ) (p : ℚ × ℚ) : Prop :=
  p.1 ∈ Set.Ioo b.minX b.maxX ∧ p.2 ∈ Set.Ioo b.minY b.maxY

def sidesOf (corners : List (ℚ × ℚ)) : List ((ℚ × ℚ) × (ℚ × ℚ)) := corners.zip (corners.rotate 1)

/-- A rectangle in a polygon that it just fits into: its corners lie on the sides, none of its points
lies outside, and no point within it lies on a side. -/
structure Bounds.Inscribed (b : Bounds ℚ) (polygon : List (ℚ × ℚ)) : Prop where
  touches : ∀ p ∈ b.corners, ∃ side ∈ sidesOf polygon, p ∈ segment ℚ side.1 side.2
  inside : ∀ p, b.Holds p → p ∈ convexHull ℚ {corner | corner ∈ polygon}
  clear : ∀ p, b.HoldsInside p → ∀ side ∈ sidesOf polygon, p ∉ segment ℚ side.1 side.2

namespace Svg
variable {x y w h u v : ℚ} {p : ℚ × ℚ}

/-- A rectangle in the middle of a box, `u` times as wide and `v` times as high. -/
def middle (x y w h u v : ℚ) : Bounds ℚ :=
  ⟨x + w / 2 - u * w / 2, y + h / 2 - v * h / 2, x + w / 2 + u * w / 2, y + h / 2 + v * h / 2⟩

theorem sidesOf_corners : sidesOf (corners x y w h) =
    [((x + w / 2, y), (x + w, y + h / 2)), ((x + w, y + h / 2), (x + w / 2, y + h)),
      ((x + w / 2, y + h), (x, y + h / 2)), ((x, y + h / 2), (x + w / 2, y))] := by
  have two : (2.0 : ℚ) = 2 := by norm_num
  change [((x + w / 2.0, y), (x + w, y + h / 2.0)), ((x + w, y + h / 2.0), (x + w / 2.0, y + h)),
    ((x + w / 2.0, y + h), (x, y + h / 2.0)), ((x, y + h / 2.0), (x + w / 2.0, y))] = _
  rw [two]

theorem corners_on_sides (hu : 0 ≤ u) (hv : 0 ≤ v) (whole : u + v = 1) :
    ∀ p ∈ (middle x y w h u v).corners,
      ∃ side ∈ sidesOf (corners x y w h), p ∈ segment ℚ side.1 side.2 := by
  have eq : v = 1 - u := by linarith
  have whole' : v + u = 1 := by linarith
  rw [sidesOf_corners]
  simp only [Bounds.corners, middle, List.forall_mem_cons, List.exists_mem_cons_iff]
  refine ⟨.inr (.inr (.inr (.inl ?_))), .inl ?_, .inr (.inl ?_), .inr (.inr (.inl ?_)), by simp⟩
  · exact ⟨u, v, hu, hv, whole, by ext <;> simp [eq] <;> ring⟩
  · exact ⟨v, u, hv, hu, whole', by ext <;> simp [eq] <;> ring⟩
  · exact ⟨u, v, hu, hv, whole, by ext <;> simp [eq] <;> ring⟩
  · exact ⟨v, u, hv, hu, whole', by ext <;> simp [eq] <;> ring⟩

theorem sides_clear (hw : 0 < w) (hh : 0 < h) (whole : u + v = 1)
    (inside : (middle x y w h u v).HoldsInside p) :
    ∀ side ∈ sidesOf (corners x y w h), p ∉ segment ℚ side.1 side.2 := by
  obtain ⟨⟨west, east⟩, north, south⟩ := inside
  simp only [middle] at west east north south
  -- On a side the distances from the middle make up a whole; within the rectangle they do not.
  have within {s t : ℚ} (sum : s + t = 1) (across : s * w < u * w) (down : t * h < v * h) :
      False := by
    have hs : s < u := lt_of_mul_lt_mul_right across hw.le
    have ht : t < v := lt_of_mul_lt_mul_right down hh.le
    linarith
  rw [sidesOf_corners]
  simp only [List.forall_mem_cons]
  refine ⟨?_, ?_, ?_, ?_, by simp⟩
  all_goals
    rintro ⟨s, t, -, -, sum, rfl⟩
    obtain rfl : s = 1 - t := by linarith
    simp only [Prod.smul_mk, Prod.mk_add_mk, smul_eq_mul] at west east north south
  · exact within (s := t) (t := 1 - t) (by ring) (by linarith) (by linarith)
  · exact within (s := 1 - t) (t := t) (by ring) (by linarith) (by linarith)
  · exact within (s := t) (t := 1 - t) (by ring) (by linarith) (by linarith)
  · exact within (s := 1 - t) (t := t) (by ring) (by linarith) (by linarith)

/-- The rectangle lies in the polygon. -/
theorem middle_in_polygon (hu : 0 ≤ u) (hv : 0 ≤ v) (whole : u + v = 1)
    (held : (middle x y w h u v).Holds p) :
    p ∈ convexHull ℚ {corner | corner ∈ corners x y w h} := by
  have convex : Convex ℚ (convexHull ℚ {corner | corner ∈ corners x y w h}) := convex_convexHull ..
  have touched : ∀ q ∈ (middle x y w h u v).corners,
      q ∈ convexHull ℚ {corner | corner ∈ corners x y w h} := by
    intro q mem
    obtain ⟨side, among, on⟩ := corners_on_sides hu hv whole q mem
    have ends : side.1 ∈ corners x y w h ∧ side.2 ∈ corners x y w h := by
      obtain ⟨first, second⟩ := List.of_mem_zip among
      exact ⟨first, List.mem_rotate.mp second⟩
    exact convex.segment_subset (subset_convexHull _ _ ends.1) (subset_convexHull _ _ ends.2) on
  obtain ⟨a, b⟩ := p
  obtain ⟨across, down⟩ := held
  have wide : (middle x y w h u v).minX ≤ (middle x y w h u v).maxX := across.1.trans across.2
  have high : (middle x y w h u v).minY ≤ (middle x y w h u v).maxY := down.1.trans down.2
  generalize middle x y w h u v = box at *
  -- From the ends of the upper and the lower side to a point of each, and from there to the point.
  rw [← segment_eq_Icc wide] at across
  rw [← segment_eq_Icc high] at down
  have level : ∀ c, (box.minX, c) ∈ convexHull ℚ {corner | corner ∈ corners x y w h} →
      (box.maxX, c) ∈ convexHull ℚ {corner | corner ∈ corners x y w h} →
      (a, c) ∈ convexHull ℚ {corner | corner ∈ corners x y w h} := by
    intro c west east
    refine convex.segment_subset west east ?_
    rw [← Prod.image_mk_segment_left]
    exact ⟨a, across, rfl⟩
  have above := level box.minY (touched _ (by simp [Bounds.corners]))
    (touched _ (by simp [Bounds.corners]))
  have below := level box.maxY (touched _ (by simp [Bounds.corners]))
    (touched _ (by simp [Bounds.corners]))
  refine convex.segment_subset above below ?_
  rw [← Prod.image_mk_segment_right]
  exact ⟨b, down, rfl⟩

theorem middle_inscribed (hu : 0 ≤ u) (hv : 0 ≤ v) (hw : 0 < w) (hh : 0 < h) (whole : u + v = 1) :
    (middle x y w h u v).Inscribed (corners x y w h) where
  touches := corners_on_sides hu hv whole
  inside _ := middle_in_polygon hu hv whole
  clear _ := sides_clear hw hh whole

end Svg

namespace Group
variable {tw th ratio : ℚ}

theorem height_of_decision (hr : ratio ≠ 0) : th + tw * ratio = (tw + th / ratio) * ratio := by
  rw [add_mul, div_mul_cancel₀ th hr, add_comm]

/-- The caption takes up a part of the width and a part of the height, and the two make up a whole. -/
theorem parts_of_decision (hr : ratio ≠ 0) (hw : tw + th / ratio ≠ 0) :
    tw / (tw + th / ratio) + th / (th + tw * ratio) = 1 := by
  have hh : th + tw * ratio ≠ 0 := by
    rw [height_of_decision hr]
    exact mul_ne_zero hw hr
  calc tw / (tw + th / ratio) + th / (th + tw * ratio)
      = tw * ratio / (th + tw * ratio) + th / (th + tw * ratio) := by
        rw [height_of_decision hr, mul_div_mul_right _ _ hr]
    _ = (th + tw * ratio) / (th + tw * ratio) := by rw [← add_div, add_comm]
    _ = 1 := div_self hh

theorem extent_middle (caption : String) {w h : ℚ} (hw : w ≠ 0) (hh : h ≠ 0) (px py : ℚ) :
    (⟨.text ⟨w / 2.0, h / 2.0, tw, th, caption, false⟩, px, py⟩ : Placed ℚ).extent =
      Svg.middle (px + 0) (py + 0) w h (tw / w) (th / h) := by
  have two : (2.0 : ℚ) = 2 := by norm_num
  change (⟨-tw / 2.0 + w / 2.0 + px, -th / 2.0 + h / 2.0 + py, tw / 2.0 + w / 2.0 + px,
    th / 2.0 + h / 2.0 + py⟩ : Bounds ℚ) = _
  rw [Svg.middle, div_mul_cancel₀ tw hw, div_mul_cancel₀ th hh, two, Bounds.mk.injEq]
  refine ⟨?_, ?_, ?_, ?_⟩ <;> ring

/-- Wherever a decision is placed, its caption is inscribed in the polygon that is drawn for it. -/
theorem decisionAround_inscribed (caption : String) (ratio x y ox oy : ℚ) (htw : 0 ≤ tw)
    (hth : 0 ≤ th) (seen : tw ≠ 0 ∨ th ≠ 0) :
    ∃ (o : Outline ℚ) (t : Caption ℚ),
      ((decisionAround caption tw th ratio).shift x y).toShape.leaves ox oy =
        [⟨.diamond o, ox + x, oy + y⟩, ⟨.text t, ox + x, oy + y⟩] ∧
      (o.width = tw + th / max ratio leastRatio ∧ o.height = th + tw * max ratio leastRatio) ∧
      (t.content = caption ∧ t.width = tw ∧ t.height = th) ∧
      (⟨.text t, ox + x, oy + y⟩ : Placed ℚ).extent.Inscribed
        (Svg.corners (ox + x + o.x) (oy + y + o.y) o.width o.height) := by
  have hr : 0 < max ratio leastRatio :=
    lt_max_of_lt_right (by change (0 : ℚ) < 0.05; norm_num)
  unfold decisionAround
  dsimp only
  generalize max ratio leastRatio = r at hr ⊢
  have hw : 0 < tw + th / r := by
    obtain htw' | hth' := seen
    · exact add_pos_of_pos_of_nonneg (htw.lt_of_ne' htw') (div_nonneg hth hr.le)
    · exact add_pos_of_nonneg_of_pos htw (div_pos (hth.lt_of_ne' hth') hr)
  have hh : 0 < th + tw * r := by
    rw [height_of_decision hr.ne']
    exact mul_pos hw hr
  have whole := parts_of_decision hr.ne' hw.ne'
  refine ⟨⟨0, 0, tw + th / r, th + tw * r⟩,
    ⟨(tw + th / r) / 2.0, (th + tw * r) / 2.0, tw, th, caption, false⟩, ?_, ⟨rfl, rfl⟩,
    ⟨rfl, rfl, rfl⟩, ?_⟩
  · change [(⟨_, ox + (0 + x), oy + (0 + y)⟩ : Placed ℚ), ⟨_, ox + (0 + x), oy + (0 + y)⟩] = _
    rw [zero_add, zero_add]
  · change Bounds.Inscribed _ (Svg.corners (ox + x + 0) (oy + y + 0) (tw + th / r) (th + tw * r))
    rw [extent_middle caption hw.ne' hh.ne']
    exact Svg.middle_inscribed (div_nonneg htw hw.le) (div_nonneg hth hh.le) hw hh whole

/-- A caption that is wider than high, in a decision whose aspect ratio is raised. -/
theorem decisionAround_inscribed_flat :
    ∃ (o : Outline ℚ) (t : Caption ℚ),
      ((decisionAround "ready" 40 10 0).shift 3 5).toShape.leaves 20 20 =
        [⟨.diamond o, 20 + 3, 20 + 5⟩, ⟨.text t, 20 + 3, 20 + 5⟩] ∧
      (o.width = 40 + 10 / max 0 leastRatio ∧ o.height = 10 + 40 * max 0 leastRatio) ∧
      (t.content = "ready" ∧ t.width = 40 ∧ t.height = 10) ∧
      (⟨.text t, 20 + 3, 20 + 5⟩ : Placed ℚ).extent.Inscribed
        (Svg.corners (20 + 3 + o.x) (20 + 5 + o.y) o.width o.height) :=
  decisionAround_inscribed "ready" 0 3 5 20 20 (by norm_num) (by norm_num) (.inl (by norm_num))

end Group
end Flowchart
