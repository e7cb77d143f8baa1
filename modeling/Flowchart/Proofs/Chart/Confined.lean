import Flowchart.Proofs.Chart.Stacked
import Flowchart.Proofs.Chart.Told
import Flowchart.Proofs.Chart.Widened
/-! Drawings between two heights. Everything that a strand draws but its labels and markers lies between
the height at which it began and the lowest y in use, and so do the points from which its trunk and its
pending jumps go on. -/
namespace Flowchart
open Set (Icc)

/-- Neither a marker nor a label beside a connector. -/
def Shape.isSolid {α : Type} : Shape α → Bool
  | .path _ | .rect _ | .frame _ | .diamond _ => true
  | .text t => !t.isLabel
  | .point _ | .group .. => false

/-- The solid leaves of a shape lie between two heights. -/
def Shape.Between (low high : ℚ) (s : Shape ℚ) : Prop :=
  ∀ p ∈ s.visible, p.shape.isSolid = true → low ≤ p.extent.minY ∧ p.extent.maxY ≤ high

structure Group.Between (low high : ℚ) (g : Group ℚ) : Prop where
  x : g.x = 0
  y : g.y = 0
  drawn : ∀ p ∈ g.visible, p.shape.isSolid = true → low ≤ p.extent.minY ∧ p.extent.maxY ≤ high

structure Path.Between (low high : ℚ) (p : Path ℚ) : Prop where
  minY : low ≤ p.y + p.bounds.minY
  maxY : p.y + p.bounds.maxY ≤ high
  stop : p.stop.2 ∈ Icc low high

variable {low high high' y : ℚ}

namespace Path.Between
variable {p : Path ℚ}

theorem start (x : ℚ) (hy : y ∈ Icc low high) : (Path.start x y).Between low high where
  minY := hy.1.trans (add_zero y).ge
  maxY := (add_zero y).trans_le hy.2
  stop := by
    rw [stop_start]
    exact hy

theorem push (h : p.Between low high) {m : Move ℚ} (hm : (m.apply p.stop).2 ∈ Icc low high) :
    (p.push m).Between low high := by
  have hstop := stop_push p m
  rw [← hstop] at hm
  unfold Path.push at hm ⊢
  split at hm
  · next hzero => rwa [if_pos hzero]
  · next hmoved =>
      rw [if_neg hmoved]
      refine ⟨?_, ?_, hm⟩
      · rw [← min_add_add_left]
        exact le_min h.minY hm.1
      · rw [← max_add_add_left]
        exact max_le h.maxY hm.2

theorem horizontal (h : p.Between low high) (d : ℚ) : (p.horizontal d).Between low high := h.push h.stop

theorem vertical (h : p.Between low high) (hy : y ∈ Icc low high) :
    (p.vertical (y - p.stop.2)).Between low high := by
  refine h.push ?_
  rwa [Move.apply, add_sub_cancel]

theorem withArrow (h : p.Between low high) : p.withArrow.Between low high := ⟨h.minY, h.maxY, h.stop⟩

theorem down (x : ℚ) {tip : ℚ} (htip : tip ∈ Icc low high) (hy : y ∈ Icc low high) :
    (Path.down x tip (y - tip)).Between low high := by
  have hdown := (start x htip).vertical hy
  rwa [stop_start] at hdown

theorem drop (x d : ℚ) {tip : ℚ} (htip : tip ∈ Icc low high) (hy : y ∈ Icc low high) :
    (((Path.start x tip).vertical (y - tip)).horizontal d).Between low high :=
  (down x htip hy).horizontal d

theorem across (x d : ℚ) (hy : y ∈ Icc low high) : (Path.across x y d).Between low high :=
  (start x hy).horizontal d

theorem detour (x d e : ℚ) {target : ℚ} (hy : y ∈ Icc low high) (ht : target ∈ Icc low high) :
    ((((Path.start x y).horizontal d).vertical (target - y)).horizontal e).Between low high := by
  have hdown := ((start x hy).horizontal d).vertical ht
  have hstop : ((Path.start x y).horizontal d).stop.2 = y := by
    unfold Path.horizontal
    rw [stop_push, stop_start]
    rfl
  rw [hstop] at hdown
  exact hdown.horizontal e

theorem shape (h : p.Between low high) : (Shape.path p).Between low high := by
  intro q hq _
  rw [List.mem_singleton.mp (List.mem_filter.mp hq).1]
  change low ≤ p.bounds.minY + p.y + 0 ∧ p.bounds.maxY + p.y + 0 ≤ high
  rw [add_zero, add_zero, add_comm p.bounds.minY, add_comm p.bounds.maxY]
  exact ⟨h.minY, h.maxY⟩

end Path.Between

theorem Shape.between_label {t : Caption ℚ} (h : t.isLabel = true) : (Shape.text t).Between low high := by
  intro p hp hsolid
  rw [List.mem_singleton.mp (List.mem_filter.mp hp).1] at hsolid
  simp [isSolid, h] at hsolid

theorem Shape.between_frame {left top right bottom : ℚ} (htop : low ≤ top) (hbottom : bottom ≤ high) :
    (Shape.frame ⟨left, top, right - left, bottom - top⟩).Between low high := by
  intro p hp _
  rw [List.mem_singleton.mp (List.mem_filter.mp hp).1]
  change low ≤ 0 + top + 0 ∧ bottom - top + top + 0 ≤ high
  rw [zero_add, add_zero, sub_add_cancel, add_zero]
  exact ⟨htop, hbottom⟩

namespace Group.Between
variable {g h : Group ℚ}

theorem empty : (Group.empty : Group ℚ).Between low high := ⟨rfl, rfl, nofun⟩

theorem raise (hg : g.Between low high) (hle : high ≤ high') : g.Between low high' :=
  ⟨hg.x, hg.y, fun p hp hsolid => (hg.drawn p hp hsolid).imp_right fun hmax => hmax.trans hle⟩

theorem push (hg : g.Between low high) {s : Shape ℚ} (hs : s.Between low high) :
    (g.push s).Between low high where
  x := (Strand.push_left g s).trans hg.x
  y := by
    refine Eq.trans ?_ hg.y
    unfold Group.push
    split <;> rfl
  drawn p hp := by
    rw [visible_push] at hp
    exact (List.mem_append.mp hp).elim (hg.drawn p) (hs p)

theorem shift (hg : g.Between low high) (dx : ℚ) : (g.shift dx 0).toShape.Between low high := by
  intro p hp hsolid
  rw [visible_shift Scalar.exact_rat hg.x hg.y] at hp
  obtain ⟨q, hq, rfl⟩ := List.mem_map.mp hp
  rw [Placed.extent_shift]
  change low ≤ q.extent.minY + 0 ∧ q.extent.maxY + 0 ≤ high
  rw [add_zero, add_zero]
  exact hg.drawn q hq hsolid

end Group.Between

theorem Group.Made.between {g : Group ℚ} (hg : g.Made) {w h : ℚ} (hy : g.y = 0)
    (hbounds : g.bounds = ⟨0, 0, w, h⟩) (dx : ℚ) {top : ℚ} (htop : low ≤ top)
    (hbottom : top + h ≤ high) : (g.shift dx top).toShape.Between low high := by
  intro p hp _
  have hinside := (hg.encloses.shift dx top).leaf_inside (List.mem_filter.mp hp).1
  have hminY : (g.shift dx top).extent.minY = top := by
    change g.bounds.minY + (g.y + top) = top
    rw [hbounds, hy, zero_add, zero_add]
  have hmaxY : (g.shift dx top).extent.maxY = top + h := by
    change g.bounds.maxY + (g.y + top) = top + h
    rw [hbounds, hy, zero_add, add_comm]
  exact ⟨(htop.trans hminY.ge).trans hinside.minY, hinside.maxY.trans (hmaxY.trans_le hbottom)⟩

namespace Strand

structure Confined (low high : ℚ) (c : Strand ℚ) : Prop where
  order : low ≤ high
  group : c.group.Between low high
  tip : ∀ t ∈ c.tip, t ∈ Icc low high
  breaks : ∀ p ∈ c.breaks, p.2 ∈ Icc low high
  continues : ∀ p ∈ c.continues, p.2 ∈ Icc low high

namespace Confined
variable {c d arm : Strand ℚ}

theorem raise (h : c.Confined low high) (hle : high ≤ high') : c.Confined low high' where
  order := h.order.trans hle
  group := h.group.raise hle
  tip t ht := Set.Icc_subset_Icc_right hle (h.tip t ht)
  breaks p hp := Set.Icc_subset_Icc_right hle (h.breaks p hp)
  continues p hp := Set.Icc_subset_Icc_right hle (h.continues p hp)

theorem of_redraws (h : d.Confined low c.reach) (k : c.Redraws d) : d.Confined low d.reach :=
  h.raise k.reach.ge

theorem blank (hle : low ≤ high) (hgroup : c.group = .empty) (htip : ∀ t ∈ c.tip, t ∈ Icc low high)
    (hbreaks : c.breaks = []) (hcontinues : c.continues = []) : c.Confined low high where
  order := hle
  group := hgroup ▸ .empty
  tip := htip
  breaks := by simp [hbreaks]
  continues := by simp [hcontinues]

theorem fork (h : c.Confined low high) : c.fork.Confined low high :=
  blank h.order rfl h.tip rfl rfl

theorem revise (h : c.Confined low high) {reach : ℚ} {tip : Option ℚ} {lanes : Lanes ℚ}
    {breakTarget continueTarget : Option JumpTarget} {breaks continues : List (ℚ × ℚ)}
    {alive : Bool} {pad : ℚ} {debug : Bool} {journal : List (Stroke ℚ)}
    (htip : ∀ t ∈ tip, t ∈ Icc low high) (hbreaks : breaks ⊆ c.breaks)
    (hcontinues : continues ⊆ c.continues) :
    Confined low high ⟨c.group, reach, tip, lanes, breakTarget, continueTarget, breaks, continues,
      alive, pad, debug, journal⟩ :=
  ⟨h.order, h.group, htip, fun p hp => h.breaks p (hbreaks hp),
    fun p hp => h.continues p (hcontinues hp)⟩

theorem draw (h : c.Confined low high) {s : Shape ℚ} (hs : s.Between low high) :
    (c.draw s).Confined low high := ⟨h.order, h.group.push hs, h.tip, h.breaks, h.continues⟩

theorem drawPath (h : c.Confined low high) {p : Path ℚ} (hp : p.Between low high) :
    (c.draw (.path p)).Confined low high := h.draw hp.shape

theorem foldl {β : Type} (f : Strand ℚ → β → Strand ℚ) (l : List β) (h : c.Confined low high)
    (hf : ∀ b ∈ l, ∀ c : Strand ℚ, c.Confined low high → (f c b).Confined low high) :
    (l.foldl f c).Confined low high := by
  induction l generalizing c with
  | nil => exact h
  | cons b rest ih =>
      exact ih (hf b List.mem_cons_self c h) fun b' hb' => hf b' (List.mem_cons_of_mem _ hb')

theorem trunkTo (h : c.Confined low high) (hy : y ∈ Icc low high) (arrow : Bool) :
    (c.trunkTo y arrow).Confined low high := by
  have hend : ∀ t ∈ some y, t ∈ Icc low high := fun t ht => Option.some.inj ht ▸ hy
  unfold Strand.trunkTo
  split
  · next tip htip =>
      have hline := Path.Between.down 0 (h.tip tip htip) hy
      refine (h.drawPath ?_).revise hend (List.Subset.refl _) (List.Subset.refl _)
      split
      · exact hline.withArrow
      · exact hline
  · exact h.revise hend (List.Subset.refl _) (List.Subset.refl _)

theorem dropDeadTip (h : c.Confined low high) : c.dropDeadTip.Confined low high := by
  unfold Strand.dropDeadTip
  split
  · exact h
  · exact h.revise nofun (List.Subset.refl _) (List.Subset.refl _)

theorem takeExit (h : c.Confined low high) {start size pos : ℚ} {east : Bool}
    (htake : c.takeExit start size east = .ok (pos, d)) : d.Confined low high := by
  unfold Strand.takeExit at htake
  split at htake
  · cases htake
    exact h.revise h.tip (List.Subset.refl _) (List.Subset.refl _)
  · cases htake

theorem labelExit (h : c.Confined low high) (text : String) (size : Size ℚ) (d : Direction)
    (box : DecisionBox ℚ) : (c.labelExit text size d box).Confined low high := by
  unfold Strand.labelExit
  split
  · exact h
  · cases d <;> exact h.draw (Shape.between_label rfl)

theorem noteJump (h : c.Confined low high) (debug : c.debug = false) (j : Jump) {p : ℚ × ℚ}
    (hp : p.2 ∈ Icc low high) : (c.noteJump j p).Confined low high := by
  have hnoted (points : List (ℚ × ℚ)) (hpoints : ∀ q ∈ points, q.2 ∈ Icc low high) :
      ∀ q ∈ points ++ [p], q.2 ∈ Icc low high := by
    intro q hq
    rcases List.mem_append.mp hq with hq | hq
    · exact hpoints q hq
    · rwa [List.mem_singleton.mp hq]
  rw [noteJump_eq debug]
  cases j with
  | leave => exact ⟨h.order, h.group, h.tip, hnoted _ h.breaks, h.continues⟩
  | resume => exact ⟨h.order, h.group, h.tip, h.breaks, hnoted _ h.continues⟩

theorem route (h : c.Confined low high) (role : RouteRole) {points : List (ℚ × ℚ)} (lane : ℚ)
    {target : ℚ} (hpoints : ∀ p ∈ points, p.2 ∈ Icc low high) (ht : target ∈ Icc low high) :
    (c.route role points lane target).Confined low high := by
  have hperm : (farthestFirst target points).Perm points := List.mergeSort_perm _ _
  have hnoted : Confined low high
      { c with journal := c.journal ++ [.route role points lane target c.group] } :=
    h.revise h.tip (List.Subset.refl _) (List.Subset.refl _)
  unfold Strand.route
  dsimp only
  split
  · exact hnoted
  · next x y rest hsorted =>
      have hmem (q : ℚ × ℚ) (hq : q ∈ (x, y) :: rest) : q.2 ∈ Icc low high :=
        hpoints q (hperm.subset (hsorted ▸ hq))
      refine foldl _ rest (hnoted.drawPath ?_) fun q hq c hc => ?_
      · exact (Path.Between.detour x _ _ (hmem _ List.mem_cons_self) ht).withArrow
      · exact hc.drawPath (.across _ _ (hmem q (List.mem_cons_of_mem _ hq)))

theorem absorb (h : c.Confined low high) (debug : c.debug = false) (harm : arm.Confined low high)
    (dx : ℚ) : (c.absorb arm dx).Confined low high := by
  have heast (points : List (ℚ × ℚ)) (hpoints : ∀ p ∈ points, p.2 ∈ Icc low high) :
      ∀ p ∈ points.map fun p => (p.1 + dx, p.2), p.2 ∈ Icc low high := by
    intro p hp
    obtain ⟨q, hq, rfl⟩ := List.mem_map.mp hp
    exact hpoints q hq
  rw [absorb_eq debug]
  refine ⟨h.order, h.group.push (harm.group.shift dx), h.tip, fun p hp => ?_, fun p hp => ?_⟩
  · exact (List.mem_append.mp hp).elim (h.breaks p) (heast _ harm.breaks p)
  · exact (List.mem_append.mp hp).elim (h.continues p) (heast _ harm.continues p)

theorem liveTip (h : c.Confined low high) : ∀ t ∈ c.liveTip, t ∈ Icc low high := by
  unfold Strand.liveTip
  split
  · exact h.tip
  · exact nofun

end Confined
end Strand
end Flowchart
