import Flowchart.Proofs.Chart.Converging
import Flowchart.Proofs.Chart.Tidied
import Flowchart.Proofs.Chart.Told
/-! The arrows of a drawing and the nodes that they lead into. An arrow ends where its path does, and a
node is entered at the middle of its upper side. Both move with the drawing and lie in its span. -/
namespace Flowchart
open Set (Icc Ioo)

def Bounds.topMiddle (b : Bounds ℚ) : ℚ × ℚ := ((b.minX + b.maxX) / 2, b.minY)

/-- Where an arrow ends, if the shape is one. -/
def Placed.arrowEnd? {α : Type} [Scalar α] (p : Placed α) : Option (α × α) :=
  match p.shape with
  | .path line => if line.isArrow then p.stop? else none
  | .point _ | .text _ | .rect _ | .frame _ | .diamond _ | .group .. => none

def Layout.arrowEnds {α : Type} [Scalar α] (l : Layout α) : List (α × α) :=
  l.leaves.filterMap Placed.arrowEnd?

def Shape.arrowEnds (s : Shape ℚ) : List (ℚ × ℚ) := (s.leaves 0 0).filterMap Placed.arrowEnd?

def Group.arrowEnds (g : Group ℚ) : List (ℚ × ℚ) :=
  (Shape.leavesAll 0 0 g.children).filterMap Placed.arrowEnd?

def Shape.tops (s : Shape ℚ) : List (ℚ × ℚ) := s.boxes.map Bounds.topMiddle

def Group.tops (g : Group ℚ) : List (ℚ × ℚ) := g.boxes.map Bounds.topMiddle

def movedBy (dx dy : ℚ) (p : ℚ × ℚ) : ℚ × ℚ := (p.1 + dx, p.2 + dy)

theorem movedBy_injective (dx dy : ℚ) : Function.Injective (movedBy dx dy) := by
  intro p q h
  exact Prod.ext (add_left_injective dx (congrArg Prod.fst h))
    (add_left_injective dy (congrArg Prod.snd h))

theorem Bounds.topMiddle_offset (b : Bounds ℚ) (dx dy : ℚ) :
    (b.offset dx dy).topMiddle = movedBy dx dy b.topMiddle := by
  unfold topMiddle offset movedBy
  refine Prod.ext ?_ rfl
  ring

theorem Placed.arrowEnd?_shift (p : Placed ℚ) (dx dy : ℚ) :
    (p.shift dx dy).arrowEnd? = p.arrowEnd?.map (movedBy dx dy) := by
  unfold arrowEnd? stop? shift
  cases hs : p.shape with
  | path line =>
      dsimp only
      split
      · rw [Option.map_map]
        refine congrArg (Option.map · line.vertices.getLast?) (funext fun v => ?_)
        exact Prod.ext (add_right_comm _ _ _) (add_right_comm _ _ _)
      · rfl
  | _ => rfl

namespace Group

theorem arrowEnds_push (g : Group ℚ) (s : Shape ℚ) :
    (g.push s).arrowEnds = g.arrowEnds ++ s.arrowEnds := by
  have hpush := collect_push
    (fun shapes => (Shape.leavesAll 0 0 shapes).filterMap Placed.arrowEnd?)
    (fun shapes others => by rw [Shape.leavesAll_append, List.filterMap_append])
    (fun t ht => by cases t <;> first | rfl | cases ht) g s
  rwa [Shape.leavesAll, Shape.leavesAll, List.append_nil] at hpush

theorem arrowEnds_toShape (g : Group ℚ) :
    g.toShape.arrowEnds = g.arrowEnds.map (movedBy g.x g.y) := by
  unfold Shape.arrowEnds arrowEnds toShape
  rw [Shape.leaves, Shape.leavesAll_shift Scalar.exact_rat, List.filterMap_map, List.map_filterMap]
  exact congrArg (List.filterMap · _) (funext fun p => p.arrowEnd?_shift g.x g.y)

theorem tops_push (g : Group ℚ) (s : Shape ℚ) : (g.push s).tops = g.tops ++ s.tops := by
  unfold tops
  rw [boxes_push, List.map_append]
  rfl

theorem tops_toShape (g : Group ℚ) : g.toShape.tops = g.tops.map (movedBy g.x g.y) := by
  unfold Shape.tops tops
  rw [boxes_toShape, List.map_map, List.map_map]
  exact List.map_congr_left fun b _ => b.topMiddle_offset g.x g.y

end Group

theorem Layout.arrowEnds_eq (l : Layout ℚ) :
    l.arrowEnds = l.root.arrowEnds.map (movedBy l.root.x l.root.y) := l.root.arrowEnds_toShape

theorem Path.push_isArrow (p : Path ℚ) (m : Move ℚ) : (p.push m).isArrow = p.isArrow := by
  unfold push
  split <;> rfl

theorem Path.Snug.arrowEnds {p : Path ℚ} (h : p.Snug) :
    (Shape.path p).arrowEnds = if p.isArrow then [p.stop] else [] := by
  change [(⟨.path p, 0, 0⟩ : Placed ℚ)].filterMap Placed.arrowEnd? = _
  cases harrow : p.isArrow with
  | false => simp [Placed.arrowEnd?, harrow]
  | true => simp [Placed.arrowEnd?, Placed.stop?, harrow, h.last]

theorem Path.Snug.arrowEnds_line {p : Path ℚ} (h : p.Snug) (hline : p.isArrow = false) :
    (Shape.path p).arrowEnds = [] := by
  rw [h.arrowEnds, hline]
  rfl

theorem Path.stop_drop (x tip y d : ℚ) :
    (((start x tip).vertical (y - tip)).horizontal d).stop.2 = y := by
  unfold horizontal vertical
  rw [stop_push, stop_push, stop_start]
  exact add_sub_cancel tip y

/-- A shape whose bounds reach around its arrows and beyond the points where its nodes are entered. -/
structure Shape.Fenced (s : Shape ℚ) : Prop where
  tops : ∀ p ∈ s.tops, p.1 ∈ Ioo s.extent.minX s.extent.maxX
  ends : ∀ p ∈ s.arrowEnds, p.1 ∈ Icc s.extent.minX s.extent.maxX

/-- A drawing that has not been moved, and whose bounds reach around its arrows and beyond the points
where its nodes are entered. -/
structure Group.Fenced (g : Group ℚ) : Prop where
  x : g.x = 0
  y : g.y = 0
  tops : ∀ p ∈ g.tops, p.1 ∈ Ioo g.extent.minX g.extent.maxX
  ends : ∀ p ∈ g.arrowEnds, p.1 ∈ Icc g.extent.minX g.extent.maxX

theorem Shape.fenced_of_nothing {s : Shape ℚ} (htops : s.tops = []) (hends : s.arrowEnds = []) :
    s.Fenced := ⟨by simp [htops], by simp [hends]⟩

theorem Path.Snug.fenced {p : Path ℚ} (h : p.Snug) : (Shape.path p).Fenced where
  tops := nofun
  ends q hq := by
    rw [h.arrowEnds] at hq
    split at hq
    · rw [List.mem_singleton.mp hq]
      exact Path.stop_mem h
    · cases hq

namespace Group
variable {g h k : Group ℚ} {s : Shape ℚ}

theorem fenced_empty : (empty : Group ℚ).Fenced := ⟨rfl, rfl, nofun, nofun⟩

theorem Fenced.moved_east (h : g.Fenced) (dx : ℚ) :
    (∀ p ∈ g.tops.map (movedBy dx 0), p.1 < dx + g.extent.maxX) ∧
      ∀ p ∈ g.arrowEnds.map (movedBy dx 0), p.1 ≤ dx + g.extent.maxX := by
  constructor
  · intro p hp
    obtain ⟨q, hq, rfl⟩ := List.mem_map.mp hp
    exact (add_lt_add_left (h.tops q hq).2 dx).trans_eq (add_comm _ _)
  · intro p hp
    obtain ⟨q, hq, rfl⟩ := List.mem_map.mp hp
    exact (add_le_add_left (h.ends q hq).2 dx).trans_eq (add_comm _ _)

theorem Fenced.toShape (h : g.Fenced) (dx dy : ℚ) : (g.shift dx dy).toShape.Fenced := by
  have hminX : (g.shift dx dy).toShape.extent.minX = g.extent.minX + dx := (add_assoc _ _ _).symm
  have hmaxX : (g.shift dx dy).toShape.extent.maxX = g.extent.maxX + dx := (add_assoc _ _ _).symm
  have hplace : (g.shift dx dy).x = dx := (congrArg (· + dx) h.x).trans (zero_add dx)
  constructor
  · rw [tops_toShape, hplace, hminX, hmaxX]
    intro p hp
    obtain ⟨q, hq, rfl⟩ := List.mem_map.mp hp
    exact ⟨add_lt_add_left (h.tops q hq).1 dx, add_lt_add_left (h.tops q hq).2 dx⟩
  · rw [arrowEnds_toShape, hplace, hminX, hmaxX]
    intro p hp
    obtain ⟨q, hq, rfl⟩ := List.mem_map.mp hp
    exact ⟨add_le_add_left (h.ends q hq).1 dx, add_le_add_left (h.ends q hq).2 dx⟩

theorem arrowEnds_of_isEmpty (h : g.isEmpty = true) : g.arrowEnds = [] :=
  collect_of_isEmpty (fun shapes => (Shape.leavesAll 0 0 shapes).filterMap Placed.arrowEnd?)
    (fun t ht => by cases t <;> first | rfl | cases ht) h

theorem span_push (hg : g.x = 0) (s : Shape ℚ) :
    ((g.push s).extent.minX ≤ s.extent.minX ∧ s.extent.maxX ≤ (g.push s).extent.maxX) ∧
      (g.isEmpty = false →
        (g.push s).extent.minX ≤ g.extent.minX ∧ g.extent.maxX ≤ (g.push s).extent.maxX) := by
  cases hempty : g.isEmpty with
  | true =>
      obtain ⟨hminX, hmaxX⟩ := extent_push_first hg s hempty
      exact ⟨⟨hminX.le, hmaxX.ge⟩, nofun⟩
  | false =>
      obtain ⟨hminX, hmaxX⟩ := extent_push hg s hempty
      rw [hminX, hmaxX]
      exact ⟨⟨min_le_right _ _, le_max_right _ _⟩, fun _ => ⟨min_le_left _ _, le_max_left _ _⟩⟩

theorem Fenced.push (hg : g.Fenced) (hs : s.Fenced) : (g.push s).Fenced := by
  obtain ⟨⟨hleft, hright⟩, hbefore⟩ := span_push hg.x s
  have hplace : (g.push s).x = g.x ∧ (g.push s).y = g.y := by
    unfold Group.push
    split <;> exact ⟨rfl, rfl⟩
  refine ⟨hplace.1.trans hg.x, hplace.2.trans hg.y, fun p hp => ?_, fun p hp => ?_⟩
  · rw [tops_push] at hp
    rcases List.mem_append.mp hp with hp | hp
    · cases hempty : g.isEmpty with
      | true =>
          rw [Group.tops, boxes_of_isEmpty hempty] at hp
          cases hp
      | false =>
          obtain ⟨hleft', hright'⟩ := hbefore hempty
          exact ⟨hleft'.trans_lt (hg.tops p hp).1, (hg.tops p hp).2.trans_le hright'⟩
    · exact ⟨hleft.trans_lt (hs.tops p hp).1, (hs.tops p hp).2.trans_le hright⟩
  · rw [arrowEnds_push] at hp
    rcases List.mem_append.mp hp with hp | hp
    · cases hempty : g.isEmpty with
      | true =>
          rw [arrowEnds_of_isEmpty hempty] at hp
          cases hp
      | false =>
          obtain ⟨hleft', hright'⟩ := hbefore hempty
          exact ⟨hleft'.trans (hg.ends p hp).1, (hg.ends p hp).2.trans hright'⟩
    · exact ⟨hleft.trans (hs.ends p hp).1, (hs.ends p hp).2.trans hright⟩

/-- The second drawing has more nodes, entered at `tops`, and more arrows, ending at `ends`, and its
bounds reach around them as well. -/
structure Collects (tops ends : List (ℚ × ℚ)) (g h : Group ℚ) : Prop where
  tops : h.tops = g.tops ++ tops
  ends : h.arrowEnds = g.arrowEnds ++ ends
  fenced : g.Fenced → h.Fenced

theorem Collects.refl (g : Group ℚ) : Collects [] [] g g :=
  ⟨(List.append_nil _).symm, (List.append_nil _).symm, id⟩

theorem Collects.trans {tops tops' ends ends' : List (ℚ × ℚ)} (hg : Collects tops ends g h)
    (hh : Collects tops' ends' h k) : Collects (tops ++ tops') (ends ++ ends') g k :=
  ⟨by rw [hh.tops, hg.tops, List.append_assoc], by rw [hh.ends, hg.ends, List.append_assoc],
    hh.fenced ∘ hg.fenced⟩

theorem push_collects (g : Group ℚ) (hs : s.Fenced) : Collects s.tops s.arrowEnds g (g.push s) :=
  ⟨g.tops_push s, g.arrowEnds_push s, fun hg => hg.push hs⟩

theorem push_collects_nothing (g : Group ℚ) (htops : s.tops = []) (hends : s.arrowEnds = []) :
    Collects [] [] g (g.push s) := by
  have hpush := g.push_collects (Shape.fenced_of_nothing htops hends)
  rwa [htops, hends] at hpush

def PointsTo (y : ℚ) (g h : Group ℚ) : Prop := ∃ ends, Collects [] ends g h ∧ ∀ p ∈ ends, p.2 = y

namespace PointsTo
variable {y : ℚ}

theorem refl (y : ℚ) (g : Group ℚ) : PointsTo y g g := ⟨[], .refl g, nofun⟩

theorem trans (hg : PointsTo y g h) (hh : PointsTo y h k) : PointsTo y g k := by
  obtain ⟨ends, hends, hall⟩ := hg
  obtain ⟨ends', hends', hall'⟩ := hh
  refine ⟨ends ++ ends', hends.trans hends', fun p hp => ?_⟩
  exact (List.mem_append.mp hp).elim (hall p) (hall' p)

end PointsTo

theorem pushPath_pointsTo (g : Group ℚ) {p : Path ℚ} (hp : p.Snug) {y : ℚ} (hstop : p.stop.2 = y) :
    PointsTo y g (g.push (.path p)) := by
  refine ⟨_, g.push_collects hp.fenced, fun q hq => ?_⟩
  rw [hp.arrowEnds] at hq
  split at hq
  · rw [List.mem_singleton.mp hq, hstop]
  · cases hq

/-- One node with its caption: a box at the origin, as wide as the group, that has a width. -/
structure IsNode (g : Group ℚ) : Prop where
  x : g.x = 0
  y : g.y = 0
  minX : g.bounds.minX = 0
  wide : 0 < g.bounds.width
  boxes : ∃ height, g.boxes = [⟨0, 0, g.bounds.width, height⟩]
  ends : g.arrowEnds = []

theorem IsNode.shift (h : g.IsNode) (top : ℚ) :
    (g.shift (-g.bounds.width / 2.0) top).toShape.tops = [(0, top)] ∧
      (g.shift (-g.bounds.width / 2.0) top).toShape.arrowEnds = [] ∧
      (g.shift (-g.bounds.width / 2.0) top).toShape.Fenced := by
  obtain ⟨height, hboxes⟩ := h.boxes
  have hx : (g.shift (-g.bounds.width / 2.0) top).x = -g.bounds.width / 2 := by
    change g.x + -g.bounds.width / 2.0 = _
    rw [h.x]
    norm_num
  have hy : (g.shift (-g.bounds.width / 2.0) top).y = top := (congrArg (· + top) h.y).trans (zero_add top)
  have htops : (g.shift (-g.bounds.width / 2.0) top).toShape.tops = [(0, top)] := by
    rw [tops_toShape, hx, hy, tops, boxes_shift, hboxes]
    refine congrArg (fun p => [p]) (Prod.ext ?_ (zero_add top))
    change (0 + g.bounds.width) / 2 + -g.bounds.width / 2 = 0
    ring
  have hends : (g.shift (-g.bounds.width / 2.0) top).toShape.arrowEnds = [] := by
    rw [arrowEnds_toShape]
    exact List.map_eq_nil_iff.mpr h.ends
  refine ⟨htops, hends, ?_, by simp [hends]⟩
  rw [htops]
  intro p hp
  rw [List.mem_singleton.mp hp]
  have hwide := h.wide
  have hwidth : g.bounds.maxX = g.bounds.width := by
    rw [Bounds.width, h.minX, sub_zero]
  change g.bounds.minX + (g.shift (-g.bounds.width / 2.0) top).x < 0 ∧
    0 < g.bounds.maxX + (g.shift (-g.bounds.width / 2.0) top).x
  rw [hx, h.minX, hwidth]
  constructor <;> linarith

theorem isNode_of_bounds {outline : Shape ℚ} {w height : ℚ} (hx : g.x = 0) (hy : g.y = 0)
    {text : Caption ℚ} (hchildren : g.children = [outline, .text text])
    (hbounds : g.bounds = ⟨0, 0, w, height⟩) (hboxes : outline.boxes = [⟨0, 0, w, height⟩])
    (hends : outline.arrowEnds = []) (hw : 0 < w) : g.IsNode := by
  have hwidth : g.bounds.width = w := by
    rw [hbounds]
    exact sub_zero w
  refine ⟨hx, hy, by rw [hbounds], hw.trans_eq hwidth.symm, ⟨height, ?_⟩, ?_⟩
  · rw [hwidth, Group.boxes, hchildren, Shape.leavesAll, List.filterMap_append]
    change outline.boxes ++ [] = _
    rw [hboxes, List.append_nil]
  · rw [Group.arrowEnds, hchildren, Shape.leavesAll, List.filterMap_append]
    change outline.arrowEnds ++ [] = _
    rw [hends, List.append_nil]

end Group
end Flowchart
