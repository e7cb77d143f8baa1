import Flowchart.Shape.Layout
import Flowchart.Proofs.Lane.Order
/-! The horizontal edges of a drawing: the level pieces of its connectors and the upper and lower
sides of its boxes and frames. -/
namespace Flowchart

structure Edge (α : Type) where
  left : α
  right : α
  y : α
deriving BEq, DecidableEq, Repr

section Definitions
variable {α : Type} [Scalar α]

def Edge.shift (e : Edge α) (dx dy : α) : Edge α := ⟨e.left + dx, e.right + dx, e.y + dy⟩

def Edge.between? (a b : α × α) : Option (Edge α) :=
  if a.2 == b.2 then some ⟨min a.1 b.1, max a.1 b.1, a.2⟩ else none

def Path.edges (p : Path α) : List (Edge α) :=
  p.segments.filterMap fun s => Edge.between? s.1 s.2

def Outline.edges (o : Outline α) : List (Edge α) :=
  [⟨o.x, o.x + o.width, o.y⟩, ⟨o.x, o.x + o.width, o.y + o.height⟩]

def Shape.ownEdges : Shape α → List (Edge α)
  | .path p => p.edges
  | .rect o | .frame o => o.edges
  | .point _ | .text _ | .diamond _ | .group .. => []

def Layout.edges (l : Layout α) : List (Edge α) :=
  l.leaves.flatMap fun p => p.shape.ownEdges.map (·.shift p.x p.y)

mutual

def Shape.edges : Shape α → List (Edge α)
  | .group x y children _ => (Shape.edgesAll children).map (·.shift x y)
  | .point p => Shape.ownEdges (.point p)
  | .path p => Shape.ownEdges (.path p)
  | .text t => Shape.ownEdges (.text t)
  | .rect o => Shape.ownEdges (.rect o)
  | .frame o => Shape.ownEdges (.frame o)
  | .diamond o => Shape.ownEdges (.diamond o)

def Shape.edgesAll : List (Shape α) → List (Edge α)
  | [] => []
  | s :: rest => Shape.edges s ++ Shape.edgesAll rest

end

def Group.edges (g : Group α) : List (Edge α) := Shape.edgesAll g.children

theorem Shape.edgesAll_append (shapes others : List (Shape α)) :
    edgesAll (shapes ++ others) = edgesAll shapes ++ edgesAll others := by
  induction shapes with
  | nil => rfl
  | cons s rest ih => simp only [List.cons_append, edgesAll, ih, List.append_assoc]

theorem Shape.edges_eq_nil_of_isPlaceholder {s : Shape α} (h : s.isPlaceholder = true) :
    s.edges = [] := by
  cases s <;> first | rfl | cases h

theorem Group.edges_toShape (g : Group α) : g.toShape.edges = g.edges.map (·.shift g.x g.y) := by
  rw [toShape, Shape.edges, edges]

@[simp]
theorem Group.edges_empty : (empty : Group α).edges = [] := rfl

@[simp]
theorem Group.edges_shift (g : Group α) (dx dy : α) : (g.shift dx dy).edges = g.edges := rfl

theorem Shape.edgesAll_of_isPlaceholder (s : Shape α) (h : s.isPlaceholder = true) :
    edgesAll [s] = [] := by
  rw [edgesAll, edgesAll, List.append_nil]
  exact edges_eq_nil_of_isPlaceholder h

theorem Group.edges_push (g : Group α) (s : Shape α) : (g.push s).edges = g.edges ++ s.edges := by
  have hpush := collect_push Shape.edgesAll Shape.edgesAll_append Shape.edgesAll_of_isPlaceholder g s
  rwa [Shape.edgesAll, Shape.edgesAll, List.append_nil] at hpush

end Definitions

theorem Edge.shift_shift (e : Edge ℚ) (dx dy ex ey : ℚ) :
    (e.shift dx dy).shift ex ey = e.shift (ex + dx) (ey + dy) := by
  unfold shift
  congr 1 <;> linarith

mutual

theorem Shape.flatMap_leaves (s : Shape ℚ) (ox oy : ℚ) :
    (s.leaves ox oy).flatMap (fun p => p.shape.ownEdges.map (·.shift p.x p.y)) =
      s.edges.map (·.shift ox oy) := by
  match s with
  | .group x y children b =>
      rw [leaves, edges, Shape.flatMap_leavesAll children, List.map_map]
      exact List.map_congr_left fun e _ => (e.shift_shift x y ox oy).symm
  | .point p => exact List.append_nil _
  | .path p => exact List.append_nil _
  | .text t => exact List.append_nil _
  | .rect o => exact List.append_nil _
  | .frame o => exact List.append_nil _
  | .diamond o => exact List.append_nil _

theorem Shape.flatMap_leavesAll (shapes : List (Shape ℚ)) (ox oy : ℚ) :
    (leavesAll ox oy shapes).flatMap (fun p => p.shape.ownEdges.map (·.shift p.x p.y)) =
      (edgesAll shapes).map (·.shift ox oy) := by
  match shapes with
  | [] => rfl
  | s :: rest =>
      rw [leavesAll, edgesAll, List.flatMap_append, List.map_append, Shape.flatMap_leaves s,
        Shape.flatMap_leavesAll rest]

end

theorem Layout.edges_eq (l : Layout ℚ) : l.edges = l.root.toShape.edges.map (·.shift 0 0) :=
  Shape.flatMap_leaves _ _ _

namespace Path

def stop (p : Path ℚ) : ℚ × ℚ := (p.x + p.tip.1, p.y + p.tip.2)

theorem stop_start (x y : ℚ) : (start x y).stop = (x, y) := by simp [start, stop]

/-- A path ends where it says, and its bounds hold both its ends and its edges. -/
structure Snug (p : Path ℚ) : Prop where
  last : p.vertices.getLast? = some p.stop
  minX : p.bounds.minX ≤ min 0 p.tip.1
  maxX : max 0 p.tip.1 ≤ p.bounds.maxX
  edges : ∀ e ∈ p.edges,
    p.x + p.bounds.minX ≤ e.left ∧ e.left ≤ e.right ∧ e.right ≤ p.x + p.bounds.maxX

theorem start_snug (x y : ℚ) : (start x y).Snug where
  last := by simp [vertices, trace, start, stop]
  minX := by simp [start, Bounds.zero]
  maxX := by simp [start, Bounds.zero]
  edges e he := by simp [edges, segments, vertices, trace, start] at he

theorem trace_snoc {q last : ℚ × ℚ} {moves : List (Move ℚ)} (m : Move ℚ)
    (h : (q :: trace q moves).getLast? = some last) :
    trace q (moves ++ [m]) = trace q moves ++ [m.apply last] := by
  induction moves generalizing q with
  | nil =>
      cases h
      rfl
  | cons n rest ih =>
      rw [List.cons_append, trace, trace, ih, List.cons_append]
      rwa [trace, List.getLast?_cons_cons] at h

theorem zip_tail_snoc {β : Type} {l : List β} {last : β} (a : β) (h : l.getLast? = some last) :
    (l ++ [a]).zip (l ++ [a]).tail = l.zip l.tail ++ [(last, a)] := by
  induction l with
  | nil => cases h
  | cons b rest ih =>
      cases rest with
      | nil =>
          cases h
          rfl
      | cons c rest =>
          rw [List.getLast?_cons_cons] at h
          have htail := ih h
          simp only [List.cons_append, List.tail_cons, List.zip_cons_cons] at htail ⊢
          rw [htail]

theorem push_of_zero (p : Path ℚ) {m : Move ℚ} (hm : m.distance = 0) : p.push m = p :=
  if_pos (beq_iff_eq.mpr hm)

theorem stop_push (p : Path ℚ) (m : Move ℚ) : (p.push m).stop = m.apply p.stop := by
  unfold push
  split
  · next hzero =>
      have hd := beq_iff_eq.mp hzero
      cases m with
      | horizontal d =>
          change d = 0 at hd
          simp [Move.apply, hd]
      | vertical d =>
          change d = 0 at hd
          simp [Move.apply, hd]
  · cases m with
    | horizontal d => exact Prod.ext (add_assoc _ _ _).symm rfl
    | vertical d => exact Prod.ext rfl (add_assoc _ _ _).symm

theorem vertices_push {p : Path ℚ} (h : p.Snug) {m : Move ℚ} (hm : m.distance ≠ 0) :
    (p.push m).vertices = p.vertices ++ [(p.push m).stop] := by
  rw [stop_push]
  unfold push
  rw [if_neg (by simpa using hm)]
  exact congrArg ((p.x, p.y) :: ·) (trace_snoc m h.last)

theorem edges_push {p : Path ℚ} (h : p.Snug) {m : Move ℚ} (hm : m.distance ≠ 0) :
    (p.push m).edges = p.edges ++ (Edge.between? p.stop (p.push m).stop).toList := by
  unfold edges segments
  rw [vertices_push h hm, zip_tail_snoc _ h.last, List.filterMap_append]
  cases hb : Edge.between? p.stop (p.push m).stop <;> simp [hb]

theorem push_snug {p : Path ℚ} (h : p.Snug) (m : Move ℚ) : (p.push m).Snug := by
  by_cases hm : m.distance = 0
  · rw [push_of_zero p hm]
    exact h
  · have hminX : (p.push m).bounds.minX = min p.bounds.minX (p.push m).tip.1 := by
      unfold push
      rw [if_neg (by simpa using hm)]
    have hmaxX : (p.push m).bounds.maxX = max p.bounds.maxX (p.push m).tip.1 := by
      unfold push
      rw [if_neg (by simpa using hm)]
    have hx : (p.push m).x = p.x := by
      unfold push
      rw [if_neg (by simpa using hm)]
    obtain ⟨hmin, hmax⟩ := And.intro h.minX h.maxX
    rw [le_min_iff] at hmin
    rw [max_le_iff] at hmax
    constructor
    · rw [vertices_push h hm, List.getLast?_concat]
    · rw [hminX]
      exact le_min (min_le_of_left_le hmin.1) (min_le_right _ _)
    · rw [hmaxX]
      exact max_le (le_max_of_le_left hmax.1) (le_max_right _ _)
    · intro e he
      rw [edges_push h hm, List.mem_append, Option.mem_toList] at he
      rw [hminX, hmaxX, hx]
      rcases he with he | he
      · obtain ⟨hleft, hle, hright⟩ := h.edges e he
        have hl := min_le_left p.bounds.minX (p.push m).tip.1
        have hr := le_max_left p.bounds.maxX (p.push m).tip.1
        exact ⟨by linarith, hle, by linarith⟩
      · unfold Edge.between? at he
        split at he
        · cases he
          have hl := min_le_left p.bounds.minX (p.push m).tip.1
          have hr := le_max_left p.bounds.maxX (p.push m).tip.1
          have hl' := min_le_right p.bounds.minX (p.push m).tip.1
          have hr' := le_max_right p.bounds.maxX (p.push m).tip.1
          have hstop : p.stop.1 = p.x + p.tip.1 := rfl
          have hstop' : (p.push m).stop.1 = p.x + (p.push m).tip.1 := by
            rw [← hx]
            rfl
          refine ⟨le_min ?_ ?_, min_le_max, max_le ?_ ?_⟩ <;> linarith
        · cases he

theorem vertical_spec {p : Path ℚ} (h : p.Snug) (d : ℚ) :
    (p.vertical d).Snug ∧ (p.vertical d).edges = p.edges ∧
      (p.vertical d).stop = (p.stop.1, p.stop.2 + d) := by
  refine ⟨push_snug h _, ?_, stop_push p _⟩
  by_cases hd : (Move.vertical d).distance = 0
  · unfold vertical
    rw [push_of_zero p hd]
  · have hapart : ¬ p.stop.2 = p.stop.2 + d := by
      intro heq
      have hzero : d = 0 := by linarith
      exact hd hzero
    have hnone : Edge.between? p.stop (p.push (.vertical d)).stop = none := by
      rw [stop_push]
      exact if_neg fun heq => hapart (beq_iff_eq.mp heq)
    unfold vertical
    rw [edges_push h hd, hnone]
    exact List.append_nil _

theorem horizontal_spec {p : Path ℚ} (h : p.Snug) (d : ℚ) :
    (p.horizontal d).Snug ∧
      (p.horizontal d).edges.Sublist (p.edges ++ [⟨min p.stop.1 (p.stop.1 + d),
        max p.stop.1 (p.stop.1 + d), p.stop.2⟩]) ∧
      (p.horizontal d).stop = (p.stop.1 + d, p.stop.2) := by
  refine ⟨push_snug h _, ?_, stop_push p _⟩
  by_cases hd : (Move.horizontal d).distance = 0
  · unfold horizontal
    rw [push_of_zero p hd]
    exact List.sublist_append_left _ _
  · have hsome : Edge.between? p.stop (p.push (.horizontal d)).stop =
        some ⟨min p.stop.1 (p.stop.1 + d), max p.stop.1 (p.stop.1 + d), p.stop.2⟩ := by
      rw [stop_push]
      exact if_pos (beq_self_eq_true _)
    unfold horizontal
    rw [edges_push h hd, hsome]
    exact List.Sublist.refl _

end Path

end Flowchart
