import Flowchart.Proofs.Chart.Lines
import Flowchart.Proofs.Chart.Shown
/-! The lines of what is drawn in several pieces: boxes and frames, routes to a lane, joined branches
and merged drawings. -/
namespace Flowchart
open Hline (between)

namespace Strand
variable {c d e : Strand ℚ} {ls ms : Multiset Hline}

theorem drawBox_draws (hc : c.group.Upright) {g : Group ℚ} {w h : ℚ} (hx : g.x = 0) (hy : g.y = 0)
    (hw : 0 ≤ w) (hbounds : g.bounds = ⟨0, 0, w, h⟩) (hedges : g.edges = [⟨0, w, 0⟩, ⟨0, w, h⟩])
    (top : ℚ) :
    c.Draws ({between (-(w / 2)) (w / 2) top} + {between (-(w / 2)) (w / 2) (top + h)})
      (c.draw (g.shift (-w / 2.0) top).toShape) := by
  obtain ⟨hminX, hmaxX, hstraddles, hshifted⟩ := Group.centred_spec hx hy hbounds hw top
  have hside : ∀ y : ℚ, ((⟨0, w, y⟩ : Edge ℚ).shift (-(w / 2)) top).hline =
      between (-(w / 2)) (w / 2) (top + y) := by
    intro y
    rw [← Edge.hline_eq (by linarith)]
    unfold Edge.shift Edge.hline
    rw [zero_add, add_comm y top]
    ring_nf
  have hlines : (g.shift (-w / 2.0) top).toShape.lines =
      {between (-(w / 2)) (w / 2) top} + {between (-(w / 2)) (w / 2) (top + h)} := by
    rw [Shape.lines, hshifted, hedges]
    have hupper := hside 0
    rw [add_zero] at hupper
    simp only [List.map_cons, List.map_nil, hupper, hside]
    rfl
  have hdraws := draw_draws hc (s := (g.shift (-w / 2.0) top).toShape) rfl (.inl hstraddles) ?_
  · rwa [hlines] at hdraws
  · rw [hlines, hminX, hmaxX]
    intro a ha
    have hends : -(w / 2) ∈ Set.Icc (-(w / 2)) (w / 2) ∧ w / 2 ∈ Set.Icc (-(w / 2)) (w / 2) := by
      refine ⟨⟨?_, ?_⟩, ?_, ?_⟩ <;> linarith
    rcases Multiset.mem_add.mp ha with ha | ha <;> rw [Multiset.mem_singleton.mp ha] <;>
      exact Hline.between_inside hends.1 hends.2

theorem drawFrame_draws (hc : c.group.Upright) {left right : ℚ} (hleft : left ≤ 0)
    (hright : 0 ≤ right) (top bottom : ℚ) :
    c.Draws ({between left right top} + {between left right bottom})
      (c.draw (.frame ⟨left, top, right - left, bottom - top⟩)) := by
  have hlines : (Shape.frame ⟨left, top, right - left, bottom - top⟩).lines =
      {between left right top} + {between left right bottom} := by
    have hside : ∀ y : ℚ, (⟨left, left + (right - left), y⟩ : Edge ℚ).hline =
        between left right y := by
      intro y
      rw [add_sub_cancel, Edge.hline_eq (hleft.trans hright)]
    change (({(⟨left, left + (right - left), top⟩ : Edge ℚ).hline} : Multiset Hline) +
      {(⟨left, left + (right - left), top + (bottom - top)⟩ : Edge ℚ).hline}) = _
    rw [hside, hside, add_sub_cancel]
  have hminX : (Shape.frame ⟨left, top, right - left, bottom - top⟩).extent.minX = left := zero_add _
  have hmaxX : (Shape.frame ⟨left, top, right - left, bottom - top⟩).extent.maxX = right :=
    sub_add_cancel _ _
  have hdraws := draw_draws hc (s := .frame ⟨left, top, right - left, bottom - top⟩) rfl (.inl ?_) ?_
  · rwa [hlines] at hdraws
  · refine ⟨?_, ?_⟩
    · rw [hminX]
      exact hleft.trans Context.labelGap_nonneg
    · rwa [hmaxX]
  · rw [hlines, hminX, hmaxX]
    intro a ha
    have hends : left ∈ Set.Icc left right ∧ right ∈ Set.Icc left right := by
      refine ⟨⟨?_, ?_⟩, ?_, ?_⟩ <;> linarith
    rcases Multiset.mem_add.mp ha with ha | ha <;> rw [Multiset.mem_singleton.mp ha] <;>
      exact Hline.between_inside hends.1 hends.2

theorem foldl_across (lane : ℚ) (points : List (ℚ × ℚ)) (hc : c.group.Upright)
    (hsome : c.group.hull.Nonempty) :
    ∃ ls, c.Draws ls (points.foldl (fun c p => c.draw (.path (Path.across p.1 p.2 (lane - p.1)))) c) ∧
      ls ≤ (points.map fun p => between p.1 lane p.2 : List Hline) := by
  induction points generalizing c with
  | nil => exact ⟨0, .refl c, le_rfl⟩
  | cons p rest ih =>
      have hfirst := drawPath_draws (Path.across_snug p.1 p.2 (lane - p.1)) hc (.inr hsome)
      have hlines := Path.lines_across p.1 p.2 (lane - p.1)
      rw [add_sub_cancel] at hlines
      obtain ⟨ls, hrest, hle⟩ := ih (hfirst.upright hc) (hsome.mono hfirst.hull)
      refine ⟨_, hfirst.trans hrest, ?_⟩
      rw [List.map_cons, ← Multiset.cons_coe, ← Multiset.singleton_add]
      exact add_le_add hlines hle

theorem route_draws (hc : c.group.Upright) (hsome : c.group.hull.Nonempty) (role : RouteRole)
    (points : List (ℚ × ℚ)) (lane target : ℚ) :
    ∃ ls ms, c.Draws (ls + ms) (c.route role points lane target) ∧
      ls ≤ (points.map fun p => between p.1 lane p.2 : List Hline) ∧
      ms ≤ {between lane 0 target} := by
  have hperm : (farthestFirst target points).Perm points := List.mergeSort_perm _ _
  rw [← Multiset.coe_eq_coe.mpr (hperm.map fun p => between p.1 lane p.2)]
  unfold route
  dsimp only
  generalize farthestFirst target points = sorted
  cases sorted with
  | nil => exact ⟨0, 0, (Draws.refl c).revise, Multiset.zero_le _, Multiset.zero_le _⟩
  | cons p rest =>
      obtain ⟨x, y⟩ := p
      dsimp only
      obtain ⟨hsnug, hlines⟩ := Path.detour_spec x y lane target
      obtain ⟨noted, hnote⟩ : ∃ noted : Strand ℚ, noted =
        { c with journal := c.journal ++ [.route role points lane target c.group] } := ⟨_, rfl⟩
      have hnoted : c.Draws 0 noted := hnote ▸ (Draws.refl c).revise
      have hwhole := drawPath_draws hsnug.withArrow (hnoted.upright hc)
        (.inr (hsome.mono hnoted.hull))
      have hdrawn := hnoted.trans hwhole
      obtain ⟨ls, hrest, hle⟩ := foldl_across lane rest (hdrawn.upright hc)
        (hsome.mono hdrawn.hull)
      obtain ⟨out, hout, back, hback, hboth⟩ := exists_add_of_le_add hlines
      rw [← hnote]
      refine ⟨out + ls, back, ?_, ?_, hback⟩
      · have hall := hdrawn.trans hrest
        rw [zero_add, Path.lines_withArrow, hboth, add_right_comm] at hall
        exact hall
      · rw [List.map_cons, ← Multiset.cons_coe, ← Multiset.singleton_add]
        exact add_le_add hout hle

theorem foldl_join (far y : ℚ) (ends : List (ℚ × ℚ)) (hc : c.group.Upright)
    (hsome : c.group.hull.Nonempty) :
    ∃ ls, c.Draws ls (ends.foldl (fun h (dx, tip) =>
        if dx == far && decide (0 < dx) then
          h.draw (.path (((Path.start dx tip).vertical (y - tip)).horizontal (-dx)).withArrow)
        else h.draw (.path (Path.down dx tip (y - tip)))) c) ∧
      ls ≤ Multiset.replicate ((ends.map Prod.fst).count far) (between far 0 y) := by
  induction ends generalizing c with
  | nil => exact ⟨0, .refl c, Multiset.zero_le _⟩
  | cons p rest ih =>
      obtain ⟨dx, tip⟩ := p
      rw [List.foldl_cons, List.map_cons]
      dsimp only
      split
      · next hfar =>
          have hdx : dx = far := by
            rw [Bool.and_eq_true] at hfar
            exact beq_iff_eq.mp hfar.1
          obtain ⟨hsnug, hlines⟩ := Path.drop_spec dx tip y (-dx)
          have hfirst := drawPath_draws hsnug.withArrow hc (.inr hsome)
          obtain ⟨ls, hrest, hle⟩ := ih (hfirst.upright hc) (hsome.mono hfirst.hull)
          refine ⟨_, hfirst.trans hrest, ?_⟩
          rw [add_neg_cancel, hdx] at hlines
          rw [hdx, List.count_cons_self, Multiset.replicate_succ, ← Multiset.singleton_add,
            Path.lines_withArrow]
          exact add_le_add hlines hle
      · have hfirst := drawPath_draws (Path.down_snug dx tip (y - tip)) hc (.inr hsome)
        rw [Path.lines_down] at hfirst
        obtain ⟨ls, hrest, hle⟩ := ih (hfirst.upright hc) (hsome.mono hfirst.hull)
        refine ⟨_, hfirst.trans hrest, ?_⟩
        rw [zero_add]
        refine hle.trans (Multiset.replicate_le_replicate _ |>.mpr ?_)
        exact List.count_le_count_cons

theorem joinEnds_draws {holder : Strand ℚ} {ends : List (ℚ × ℚ)} (hc : holder.group.Upright)
    (hsome : holder.group.hull.Nonempty) (hends : (ends.map Prod.fst).Nodup) :
    ∃ joined ls, (holder.takeLine holder.reach).2.Draws ls joined ∧
      Context.joinEnds ends holder =
        { joined with tip := some (holder.takeLine holder.reach).1, alive := true } ∧
      ∃ far, ls ≤ {between far 0 (holder.takeLine holder.reach).1} := by
  obtain ⟨ls, hdraws, hle⟩ := foldl_join ((ends.map Prod.fst).foldl max 0)
    (holder.takeLine holder.reach).1 ends (c := (holder.takeLine holder.reach).2) hc hsome
  refine ⟨_, ls, hdraws, rfl, (ends.map Prod.fst).foldl max 0, hle.trans ?_⟩
  rw [← Multiset.replicate_one]
  exact (Multiset.replicate_le_replicate _).mpr (List.nodup_iff_count_le_one.mp hends _)

theorem absorb_spec {child : Strand ℚ} {dx : ℚ} (debug : c.debug = false) (hc : c.group.Upright)
    (hchild : child.group.Upright) (hplace : dx = 0 ∨ c.group.hull.Nonempty) :
    (c.absorb child dx).group.lines = c.group.lines + child.group.lines.map (·.shift dx) ∧
      c.group.hull ⊆ (c.absorb child dx).group.hull ∧
      {x | x - dx ∈ child.group.hull} ⊆ (c.absorb child dx).group.hull ∧
      (c.absorb child dx).group.Upright := by
  rw [absorb_eq debug]
  dsimp only
  have hminX : (child.group.shift dx 0).toShape.extent.minX = child.group.extent.minX + dx := by
    change child.group.bounds.minX + (child.group.x + dx) =
      child.group.bounds.minX + child.group.x + dx
    rw [add_assoc]
  have hmaxX : (child.group.shift dx 0).toShape.extent.maxX = child.group.extent.maxX + dx := by
    change child.group.bounds.maxX + (child.group.x + dx) =
      child.group.bounds.maxX + child.group.x + dx
    rw [add_assoc]
  have hstretch : {x | x - dx ∈ child.group.hull} ⊆
      Set.Icc (child.group.shift dx 0).toShape.extent.minX
        (child.group.shift dx 0).toShape.extent.maxX := by
    rintro y ⟨-, hmin, hmax⟩
    rw [hminX, hmaxX]
    constructor <;> linarith
  obtain ⟨hkept, hadded⟩ := Group.hull_push hc.x (s := (child.group.shift dx 0).toShape) rfl
  refine ⟨?_, hkept, hstretch.trans hadded, ?_⟩
  · rw [Group.lines_push, Group.lines_toShape hchild]
  · refine Group.upright_push hc rfl ?_ ?_
    · refine hplace.imp_left fun hzero => ?_
      rw [Shape.Straddles, hminX, hmaxX, hzero, add_zero, add_zero]
      exact ⟨hchild.minX, hchild.maxX⟩
    · intro a ha
      rw [Group.lines_toShape hchild] at ha
      obtain ⟨b, hb, rfl⟩ := Multiset.mem_map.mp ha
      exact ((hchild.inside b hb).shift dx).mono hstretch

end Strand
end Flowchart
