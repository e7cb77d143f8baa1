import Flowchart.Chart.Context
import Flowchart.Proofs.Shape.Edges
import Mathlib.Algebra.Order.Group.Unbundled.Abs
import Mathlib.Data.List.Destutter
import Mathlib.Order.Interval.Set.UnorderedInterval
/-! Points that are routed to one place. The point farthest from the target draws the whole way along the
lane. If no point lies beyond the target, the way of every other one into the lane meets it there. -/
namespace Flowchart

/-- The points lie on one side of the target and, with the trunk, on one side of the lane, which keeps a
step from everything in the drawing. -/
structure Converges (step : ℚ) (points : List (ℚ × ℚ)) (lane target : ℚ) (drawing : Group ℚ) :
    Prop where
  some : points ≠ []
  level : (∀ p ∈ points, p.2 ≤ target) ∨ ∀ p ∈ points, target ≤ p.2
  outside :
    (0 ≤ lane ∧ (∀ p ∈ points, p.1 ≤ lane) ∧
      ∀ leaf ∈ drawing.toShape.leaves 0 0, leaf.extent.maxX + step ≤ lane) ∨
    (lane ≤ 0 ∧ (∀ p ∈ points, lane ≤ p.1) ∧
      ∀ leaf ∈ drawing.toShape.leaves 0 0, lane + step ≤ leaf.extent.minX)

/-- The first path leads from a point farthest from the target into the lane, along the lane to the
height of the target and there to the trunk. Every other path leads from one of the other points into
the lane, between the heights at which the first one enters and leaves it. -/
def Converge (points : List (ℚ × ℚ)) (lane target : ℚ) (paths : List (Path ℚ)) : Prop :=
  ∃ far rest whole stubs, paths = whole :: stubs ∧ (far :: rest).Perm points ∧
    (∀ p ∈ rest, |p.2 - target| ≤ |far.2 - target|) ∧ whole.isArrow = true ∧
    whole.vertices = [far, (lane, far.2), (lane, target), (0, target)].destutter (· ≠ ·) ∧
    List.Forall₂ (fun p stub => stub.vertices = [p, (lane, p.2)].destutter (· ≠ ·) ∧
      p.2 ∈ Set.uIcc far.2 target) rest stubs

/-- What is appended to a list of which repetitions are left out is left out if it repeats the last
entry. -/
theorem destutter'_concat {β : Type} [DecidableEq β] (a b : β) (l : List β) :
    (l ++ [b]).destutter' (· ≠ ·) a =
      if (a :: l).getLast? = some b then l.destutter' (· ≠ ·) a else l.destutter' (· ≠ ·) a ++ [b] := by
  induction l generalizing a with
  | nil => by_cases h : a = b <;> simp [h]
  | cons c rest ih =>
      rw [List.cons_append, List.destutter'_cons, List.destutter'_cons, List.getLast?_cons_cons, ih, ih]
      by_cases h : a = c
      · simp [h]
      · simp only [ne_eq, h, not_false_eq_true, if_true]
        split <;> rfl

theorem destutter_concat {β : Type} [DecidableEq β] {l : List β} (b : β) (h : l ≠ []) :
    (l ++ [b]).destutter (· ≠ ·) =
      if l.getLast? = some b then l.destutter (· ≠ ·) else l.destutter (· ≠ ·) ++ [b] := by
  cases l with
  | nil => exact absurd rfl h
  | cons a rest => exact destutter'_concat a b rest

namespace Path

/-- The vertices of a path are the points that it visits, without repetitions. -/
structure Visits (points : List (ℚ × ℚ)) (p : Path ℚ) : Prop where
  snug : p.Snug
  last : points.getLast? = some p.stop
  vertices : p.vertices = points.destutter (· ≠ ·)

theorem visits_start (x y : ℚ) : (start x y).Visits [(x, y)] where
  snug := start_snug x y
  last := by simp [stop, start]
  vertices := rfl

theorem Visits.push {points : List (ℚ × ℚ)} {p : Path ℚ} (h : p.Visits points) (m : Move ℚ) :
    (p.push m).Visits (points ++ [m.apply p.stop]) where
  snug := push_snug h.snug m
  last := by rw [List.getLast?_concat, stop_push]
  vertices := by
    have hsome : points ≠ [] := by
      rintro rfl
      cases h.last
    rw [destutter_concat _ hsome, ← h.vertices, h.last, ← stop_push]
    by_cases hm : m.distance = 0
    · rw [push_of_zero p hm, if_pos rfl]
    · have hmoved : p.stop ≠ (p.push m).stop := by
        rw [stop_push]
        intro hsame
        cases m with
        | horizontal d => exact hm (left_eq_add.mp (congrArg Prod.fst hsame))
        | vertical d => exact hm (left_eq_add.mp (congrArg Prod.snd hsame))
      rw [vertices_push h.snug hm, if_neg fun heq => hmoved (Option.some.inj heq)]

theorem Visits.horizontal {points : List (ℚ × ℚ)} {p : Path ℚ} (h : p.Visits points) {x : ℚ} :
    (p.horizontal (x - p.stop.1)).Visits (points ++ [(x, p.stop.2)]) := by
  have hpush := h.push (.horizontal (x - p.stop.1))
  rwa [Move.apply, add_sub_cancel] at hpush

theorem Visits.vertical {points : List (ℚ × ℚ)} {p : Path ℚ} (h : p.Visits points) {y : ℚ} :
    (p.vertical (y - p.stop.2)).Visits (points ++ [(p.stop.1, y)]) := by
  have hpush := h.push (.vertical (y - p.stop.2))
  rwa [Move.apply, add_sub_cancel] at hpush

theorem Visits.stop {points : List (ℚ × ℚ)} {p : Path ℚ} {q : ℚ × ℚ} (h : p.Visits (points ++ [q])) :
    p.stop = q := by
  have hlast := h.last
  rw [List.getLast?_concat] at hlast
  exact (Option.some.inj hlast).symm

theorem visits_across (x y lane : ℚ) : (across x y (lane - x)).Visits [(x, y), (lane, y)] := by
  have hlane := (visits_start x y).horizontal (x := lane)
  rwa [stop_start] at hlane

theorem visits_detour (x y lane target : ℚ) :
    ((((start x y).horizontal (lane - x)).vertical (target - y)).horizontal (-lane)).Visits
      [(x, y), (lane, y), (lane, target), (0, target)] := by
  have hlane : ((start x y).horizontal (lane - x)).Visits ([(x, y)] ++ [(lane, y)]) :=
    visits_across x y lane
  have hdown := hlane.vertical (y := target)
  rw [hlane.stop] at hdown
  have hback := hdown.horizontal (x := 0)
  rw [hdown.stop, zero_sub] at hback
  exact hback

end Path

namespace Strand

theorem distance_eq (target : ℚ) (p : ℚ × ℚ) : distance target p = |p.2 - target| := by
  unfold distance Scalar.magnitude
  split
  · next h => exact (abs_of_neg h).symm
  · next h => exact (abs_of_nonneg (not_lt.mp h)).symm

/-- Among points that are put in order, the first one is a farthest. -/
theorem far_of_farthestFirst {target : ℚ} {points rest : List (ℚ × ℚ)} {far : ℚ × ℚ}
    (h : farthestFirst target points = far :: rest) :
    (far :: rest).Perm points ∧ ∀ p ∈ rest, |p.2 - target| ≤ |far.2 - target| := by
  have hle (p q : ℚ × ℚ) : Scalar.notFarther (distance target q) (distance target p) = true ↔
      distance target q ≤ distance target p := by simp [Scalar.notFarther, Scalar.isNumber]
  have hsorted : (farthestFirst target points).Pairwise fun p q =>
      Scalar.notFarther (distance target q) (distance target p) = true := by
    refine List.pairwise_mergeSort (fun a b c hab hbc => ?_) (fun a b => ?_) points
    · exact (hle _ _).mpr (((hle _ _).mp hbc).trans ((hle _ _).mp hab))
    · rw [Bool.or_eq_true, hle, hle]
      exact le_total _ _
  rw [h] at hsorted
  refine ⟨h ▸ List.mergeSort_perm _ _, fun p hp => ?_⟩
  have hfar := (hle _ _).mp ((List.pairwise_cons.mp hsorted).1 p hp)
  rwa [distance_eq, distance_eq] at hfar

def connectors (points : List (ℚ × ℚ)) (lane target : ℚ) : List (Path ℚ) :=
  match farthestFirst target points with
  | [] => []
  | (x, y) :: rest =>
    ((((Path.start x y).horizontal (lane - x)).vertical (target - y)).horizontal (-lane)).withArrow ::
      rest.map fun p => Path.across p.1 p.2 (lane - p.1)

theorem route_group (c : Strand ℚ) (role : RouteRole) (points : List (ℚ × ℚ)) (lane target : ℚ) :
    (c.route role points lane target).group =
      (connectors points lane target).foldl (fun g p => g.push (.path p)) c.group := by
  have hstubs (rest : List (ℚ × ℚ)) (d : Strand ℚ) :
      (rest.foldl (fun d p => d.draw (.path (Path.across p.1 p.2 (lane - p.1)))) d).group =
        (rest.map fun p => Path.across p.1 p.2 (lane - p.1)).foldl (fun g p => g.push (.path p))
          d.group := by
    induction rest generalizing d with
    | nil => rfl
    | cons p rest ih => exact ih _
  unfold route connectors
  cases farthestFirst target points with
  | nil => rfl
  | cons far rest => exact hstubs _ _

/-- Points that converge are led together by the paths that are drawn. -/
theorem connectors_converge {step : ℚ} {points : List (ℚ × ℚ)} {lane target : ℚ} {drawing : Group ℚ}
    (h : Converges step points lane target drawing) :
    Converge points lane target (connectors points lane target) := by
  unfold connectors
  split
  · next hnone =>
      have hperm : (farthestFirst target points).Perm points := List.mergeSort_perm _ _
      rw [hnone] at hperm
      exact absurd hperm.symm.eq_nil h.some
  · next x y rest hsorted =>
      obtain ⟨hperm, hfar⟩ := far_of_farthestFirst hsorted
      refine ⟨(x, y), rest, _, _, rfl, hperm, hfar, rfl, (Path.visits_detour x y lane target).vertices,
        List.forall₂_map_right_iff.mpr (List.forall₂_same.mpr fun p hp => ?_)⟩
      refine ⟨(Path.visits_across p.1 p.2 lane).vertices, ?_⟩
      have hnear := hfar p hp
      have hmem : p ∈ points := hperm.subset (List.mem_cons_of_mem _ hp)
      have hfarMem : (x, y) ∈ points := hperm.subset List.mem_cons_self
      rcases h.level with hlevel | hlevel
      · have hp' := hlevel p hmem
        have hy := hlevel _ hfarMem
        rw [abs_of_nonpos (sub_nonpos.mpr hp'), abs_of_nonpos (sub_nonpos.mpr hy)] at hnear
        exact Set.mem_uIcc_of_le (by linarith) hp'
      · have hp' := hlevel p hmem
        have hy := hlevel _ hfarMem
        rw [abs_of_nonneg (sub_nonneg.mpr hp'), abs_of_nonneg (sub_nonneg.mpr hy)] at hnear
        exact Set.mem_uIcc_of_ge hp' (by linarith)

end Strand
end Flowchart
