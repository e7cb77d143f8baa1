import Flowchart.Proofs.Chart.Tallied
/-! Arrows that each construct leads into its nodes. All lines that a construct draws arrows along are
taken below what it has drawn, or above the first of its nodes. -/
namespace Flowchart
open Strand Sheet
open Set (Icc)

namespace Context
variable {x : Context ℚ} {c d t arm body holder : Strand ℚ} {s : Sheet} {flags flags' : List Bool}
  {low y : ℚ}

namespace Generous

theorem sizes (hx : x.Generous) (text : String) (attrs : Attrs) :
    0 ≤ (x.measure text attrs).width ∧ 0 ≤ (x.measure text attrs).height :=
  ⟨(hx.measure text attrs).1.le, (hx.measure text attrs).2.le⟩

theorem ample (hx : x.Generous) : x.Ample :=
  ⟨fun text attrs => (hx.sizes text attrs).2, hx.margin.le, hx.stepX, hx.stepY, hx.frameY⟩

theorem halfGap (hx : x.Generous) : 0 ≤ x.halfGap := hx.ample.halfGap

theorem diamond (hx : x.Generous) (test : String) :
    (x.diamond test).IsNode ∧ 0 ≤ (x.diamond test).bounds.height := by
  obtain ⟨w, h, text, -, hh, hx0, hy0, hchildren, hbounds⟩ := diamond_bounds hx.sizes test
  have hsize : 0 < w := by
    obtain ⟨hwidth, hheight⟩ := hx.measure test x.config.text.attrs
    have hratio : 0 < max x.config.diamond.aspectRatio Group.leastRatio :=
      lt_max_of_lt_right leastRatio_pos
    injection hchildren with hfirst
    injection hfirst with houtline
    injection houtline with _ _ hw
    rw [← hw]
    exact add_pos hwidth (div_pos hheight hratio)
  have hboxes : (Shape.diamond ⟨0, 0, w, h⟩).boxes = [⟨0, 0, w, h⟩] := by
    change [(⟨0 + 0 + 0, 0 + 0 + 0, w + 0 + 0, h + 0 + 0⟩ : Bounds ℚ)] = _
    simp only [add_zero]
  refine ⟨Group.isNode_of_bounds hx0 hy0 hchildren hbounds hboxes rfl hsize, ?_⟩
  rw [hbounds]
  exact sub_nonneg.mpr hh

theorem box (hx : x.Generous) (content : String) :
    (Group.boxAround content (x.captionSize content).width (x.captionSize content).height
        x.config.rect.padX x.config.rect.padY).IsNode ∧
      0 ≤ (Group.boxAround content (x.captionSize content).width (x.captionSize content).height
        x.config.rect.padX x.config.rect.padY).bounds.height := by
  obtain ⟨hwidth, hheight⟩ := hx.measure content x.config.text.attrs
  change 0 < (x.captionSize content).width at hwidth
  change 0 < (x.captionSize content).height at hheight
  have hpadX := hx.rectX
  have hpadY := hx.rectY
  obtain ⟨w, hw⟩ : ∃ w, w = (x.captionSize content).width + 2.0 * x.config.rect.padX := ⟨_, rfl⟩
  obtain ⟨h, hh⟩ : ∃ h, h = (x.captionSize content).height + 2.0 * x.config.rect.padY := ⟨_, rfl⟩
  obtain ⟨hx0, hy0, hbounds, -⟩ := box_bounds hx.sizes hpadX hpadY content hw hh
  have hboxes : (Shape.rect ⟨0, 0, w, h⟩).boxes = [⟨0, 0, w, h⟩] := by
    change [(⟨0 + 0 + 0, 0 + 0 + 0, w + 0 + 0, h + 0 + 0⟩ : Bounds ℚ)] = _
    simp only [add_zero]
  obtain ⟨text, hchildren⟩ : ∃ text, (Group.boxAround content (x.captionSize content).width
      (x.captionSize content).height x.config.rect.padX x.config.rect.padY).children =
        [.rect ⟨0, 0, w, h⟩, .text text] := ⟨_, by rw [hw, hh]; rfl⟩
  refine ⟨Group.isNode_of_bounds hx0 hy0 hchildren hbounds hboxes rfl (by linarith), ?_⟩
  rw [hbounds]
  change 0 ≤ h - 0
  linarith

end Generous

theorem drawNode_counts (hpad : 0 < c.pad) {node : Group ℚ} (hnode : node.IsNode)
    (hheight : 0 ≤ node.bounds.height) {pos size : ℚ} (hpos : c.reach ≤ pos)
    (hsize : node.bounds.height + 2 * c.pad ≤ size) (hroom : pos + size ≤ t.reach)
    (hgroup : t.group = c.group) :
    c.sheet.Counts [t.tip.isSome] ((t.trunkTo (pos + c.pad) true).draw
      (node.shift (-node.bounds.width / 2.0) (pos + c.pad)).toShape).sheet := by
  refine Counts.node hnode hgroup ?_ ?_
  · change c.reach < pos + c.pad
    linarith
  · linarith

theorem takeTest_counts (hx : x.Generous) (hpad : 0 < c.pad) (test : String) {start size : ℚ}
    (hstart : c.reach ≤ start) (hsize : (x.diamond test).bounds.height + 2 * c.pad ≤ size)
    (hgroup : t.group = c.group) (hreach : t.reach = (c.takeBand start size).2.reach) :
    c.sheet.Counts [t.tip.isSome]
      (t.drawDecision (x.diamond test) ((c.takeBand start size).1 + c.pad)).2.sheet := by
  obtain ⟨hnode, hheight⟩ := hx.diamond test
  obtain ⟨hlow, hhigh⟩ := takeBand_bounds c start size
  exact drawNode_counts hpad hnode hheight (hstart.trans hlow) hsize (hhigh.trans_eq hreach.symm) hgroup

theorem arrangeText_counts (hx : x.Generous) (hpad : 0 < c.pad) (content : String) :
    c.sheet.Counts [c.tip.isSome] (x.arrangeText content c).sheet := by
  obtain ⟨hnode, hheight⟩ := hx.box content
  unfold arrangeText
  dsimp only
  generalize (Group.boxAround content _ _ _ _ : Group ℚ) = box at hnode hheight ⊢
  obtain ⟨hlow, hhigh⟩ := takeBand_bounds c (c.startBelow x.config.stepY)
    (box.bounds.height + 2.0 * c.pad)
  exact drawNode_counts hpad hnode hheight ((c.reach_le_startBelow hx.stepY).trans hlow)
    (by norm_num) hhigh rfl

theorem takeLine_lowers (c : Strand ℚ) (start : ℚ) : c.sheet.Counts [] (c.takeLine start).2.sheet :=
  .lower c.sheet (le_max_left _ _)

theorem takeLine_counts (hpad : 0 ≤ c.pad) {start : ℚ} (hstart : c.reach ≤ start) :
    c.sheet.Counts [] (c.takeLine start).2.sheet ∧
      (c.takeLine start).1 ∈ Icc c.reach (c.takeLine start).2.reach := by
  obtain ⟨hlow, hhigh⟩ := takeLine_spec hpad start
  exact ⟨takeLine_lowers c start, hstart.trans hlow, hhigh⟩

theorem takeExit_advances {start size pos : ℚ} {east : Bool}
    (h : c.takeExit start size east = .ok (pos, d)) : c.Advances d := by
  unfold takeExit at h
  split at h
  · cases h
    exact ⟨rfl, rfl, rfl, rfl, rfl, ⟨rfl, rfl, rfl, rfl⟩⟩
  · cases h

theorem takeExit_counts {start size pos : ℚ} {east : Bool}
    (h : c.takeExit start size east = .ok (pos, d)) : c.sheet.Counts [] d.sheet := by
  have hlower := Counts.lower c.sheet (takeExit_bounds h).1.reach
  change Counts [] c.sheet ⟨c.group, d.reach⟩ at hlower
  rwa [← (takeExit_advances h).group] at hlower

theorem arrangeJump_counts {j : Jump} (h : x.arrangeJump j c = .ok d) : c.sheet.Counts [] d.sheet := by
  obtain ⟨heading, -, h⟩ := exists_of_bind_eq_ok h
  obtain ⟨⟨pos, t⟩, htake, h⟩ := exists_of_bind_eq_ok h
  cases h
  exact (noteJump_pointsTo _ j _ _).quiet ((trunkTo_pointsTo t _ _).quiet (takeExit_counts htake))

theorem takeDecision_band (hx : x.Generous) {test : String} {exits : Exit × Exit} {pos : ℚ}
    (h : x.takeDecision test exits c = .ok (pos, t)) :
    c.Advances t ∧ c.reach ≤ pos ∧
      pos + ((x.diamond test).bounds.height + 2 * c.pad) ≤ t.reach := by
  have hstart := c.reach_le_startBelow hx.stepY
  have hlabel : 0 ≤ max x.yesSize.height x.noSize.height := le_max_of_le_left (hx.ample.labelSize _)
  unfold takeDecision at h
  dsimp only at h
  split at h
  · cases h
    obtain ⟨hlow, hhigh⟩ := takeBand_bounds c (c.startBelow x.config.stepY)
      ((x.diamond test).bounds.height + 2.0 * c.pad + max x.yesSize.height x.noSize.height)
    refine ⟨takeBand_advances _ _ _, hstart.trans hlow, le_trans ?_ hhigh⟩
    exact add_le_add_right (by linarith) _
  · obtain ⟨-, hlow, hhigh⟩ := takeExit_bounds h
    exact ⟨takeExit_advances h, hstart.trans hlow, by linarith⟩

theorem claimEast_advances (exits : Exit × Exit) (middle : ℚ) (c : Strand ℚ) :
    c.Advances (claimEast exits middle c) := by
  unfold claimEast
  split <;> exact ⟨rfl, rfl, rfl, rfl, rfl, ⟨rfl, rfl, rfl, rfl⟩⟩

theorem openDecision_counts (hx : x.Generous) (hpad : 0 < c.pad) {test : String} {exits : Exit × Exit}
    {box : DecisionBox ℚ} (h : x.openDecision test exits c = .ok (box, d)) :
    c.sheet.Counts [c.tip.isSome] d.sheet := by
  obtain ⟨⟨pos, t⟩, htake, h⟩ := exists_of_bind_eq_ok h
  cases h
  obtain ⟨hnode, hheight⟩ := hx.diamond test
  obtain ⟨htaken, hlow, hhigh⟩ := takeDecision_band hx htake
  obtain ⟨claimed, hclaim⟩ : ∃ claimed, claimed = claimEast exits
    (pos + t.pad + (x.diamond test).bounds.height / 2.0) t := ⟨_, rfl⟩
  have hclaimed : c.Advances claimed ∧ claimed.reach = t.reach := by
    rw [hclaim]
    exact ⟨htaken.trans (claimEast_advances _ _ _), congrArg Sheet.reach (claimEast_sheet _ _ t)⟩
  have hdecided := drawNode_counts hpad hnode hheight hlow le_rfl
    (hhigh.trans_eq hclaimed.2.symm) hclaimed.1.group
  rw [hclaimed.1.tip, ← htaken.keeps.pad] at hdecided
  rw [← hclaim]
  refine (foldl_pointsTo _ (fun c e => noteJump_pointsTo c _ _ _) _ _).quiet ?_
  exact (labelExit_pointsTo _ _ _ _ _ _).quiet ((labelExit_pointsTo _ _ _ _ _ _).quiet hdecided)

theorem closeBelow_counts (harm : Counts flags ⟨.empty, c.reach⟩ arm.sheet) :
    c.sheet.Counts flags (closeBelow arm c).sheet :=
  Counts.below harm (c.absorb_collects harm.fenced 0) (le_max_right _ _)

theorem mergeBeside_counts (hx : x.Generous) {south east : Strand ℚ}
    (hsouth : Counts flags ⟨.empty, c.reach⟩ south.sheet)
    (heast : Counts flags' ⟨.empty, c.reach⟩ east.sheet) (box : DecisionBox ℚ) {dx : ℚ}
    (hdx : dx = x.eastShift box (max (box.width / 2.0) south.group.extent.maxX) east) :
    c.sheet.Counts (flags ++ flags') ⟨(((closeBelow south c).draw (.path (Path.across (box.width / 2.0)
      box.middle (dx - box.width / 2.0)))).absorb east dx).group,
        max (closeBelow south c).reach east.reach⟩ := by
  have hsouthFence := hsouth.fenced
  have heastFence := heast.fenced
  obtain ⟨tops, ends, hbelow⟩ := hsouth
  obtain ⟨tops', ends', hbeside⟩ := heast
  obtain rfl : south.group.tops = tops := hbelow.drawing.tops
  obtain rfl : south.group.arrowEnds = ends := hbelow.drawing.ends
  obtain ⟨hsouthTops, hsouthEnds⟩ := hsouthFence.moved_east 0
  have hclosed := (Tallies.refl c.sheet).beside hbelow nofun nofun (add_zero _).ge
    (c.absorb_collects hsouthFence 0) ⟨le_max_left c.reach south.reach, le_max_right _ _⟩
  have hright : 0 + south.group.extent.maxX ≤ east.group.extent.minX + dx := by
    have hmax : south.group.extent.maxX ≤ max (max (box.width / 2.0) south.group.extent.maxX)
        (box.width / 2.0 + x.noSize.width + 2.0 * labelGap) :=
      (le_max_right _ _).trans (le_max_left _ _)
    have hstep := hx.stepX
    unfold eastShift at hdx
    linarith
  have hline := Path.across_snug (box.width / 2.0) box.middle (dx - box.width / 2.0)
  have hdrawn := (closeBelow south c).group.push_collects_nothing rfl
    (hline.arrowEnds_line (Path.push_isArrow _ _))
  exact Tallies.counts (hclosed.beside hbeside hsouthTops hsouthEnds hright
    (hdrawn.trans (absorb_collects ((closeBelow south c).draw (.path _)) heastFence dx))
    ⟨le_max_left (max c.reach south.reach) east.reach, le_max_right _ _⟩)

theorem closeBeside_counts (hx : x.Generous) (hpad : 0 ≤ c.pad) {south east : Strand ℚ}
    (hsouth : Counts flags ⟨.empty, c.reach⟩ south.sheet)
    (heast : Counts flags' ⟨.empty, c.reach⟩ east.sheet) (box : DecisionBox ℚ) :
    c.sheet.Counts (flags ++ flags') (x.closeBeside box south east (closeBelow south c)).sheet := by
  have hcounts := mergeBeside_counts hx hsouth heast box rfl
  have hkeeps (p : Path ℚ) (dx : ℚ) := ((closeBelow_keeps south c).trans
    (draw_redraws _ (.path p)).keeps).trans (absorb_redraws _ east dx).keeps
  unfold closeBeside
  dsimp only
  generalize x.eastShift box (max (box.width / 2.0) south.group.extent.maxX) east = dx at hcounts ⊢
  have hmergedPad := hpad.trans_eq (hkeeps (Path.across (box.width / 2.0) box.middle
    (dx - box.width / 2.0)) dx).pad.symm
  generalize ((closeBelow south c).draw (.path (Path.across (box.width / 2.0) box.middle
    (dx - box.width / 2.0)))).absorb east dx = merged at hcounts hmergedPad ⊢
  split
  · generalize east.tip.getD box.middle = tip
    obtain ⟨-, hy⟩ := takeLine_counts (c := { merged with
      reach := max (closeBelow south c).reach east.reach, lanes := east.lanes }) hmergedPad le_rfl
    exact (trunkTo_pointsTo _ _ _).quiet (hcounts.lead hy (merged.group.pushPath_pointsTo
      (Path.drop_spec dx tip _ (-dx)).1.withArrow (Path.stop_drop _ _ _ _)))
  · exact hcounts

theorem enter_counts (hx : x.Generous) (hpad : 0 ≤ c.pad) :
    c.sheet.Counts [] ⟨(x.enter c).2.group, c.reach⟩ ∧
      (x.enter c).1 ∈ Icc c.reach (x.enter c).2.reach := by
  obtain ⟨-, hlow, hhigh⟩ := takeLine_counts hpad (c.reach_le_startBelow hx.halfGap)
  have htrunk := trunkTo_pointsTo (c.takeLine (c.startBelow x.halfGap)).2
    (c.takeLine (c.startBelow x.halfGap)).1 c.reach
  exact ⟨(Counts.refl c.sheet).lead ⟨le_rfl, le_rfl⟩ htrunk.drawing, hlow,
    hhigh.trans htrunk.reach.ge⟩

theorem openWhile_counts (hx : x.Generous) (hpad : 0 < c.pad) (test : String) :
    Counts [c.tip.isSome] ⟨.empty, c.reach⟩ (x.openWhile test c).2.sheet := by
  have hlabel : 0 ≤ x.yesSize.height := hx.ample.labelSize _
  have hstart : (c.loopBody .whileLoop).reach ≤ c.reach + x.halfGap :=
    le_add_of_nonneg_right hx.halfGap
  have hsize : (x.diamond test).bounds.height + 2 * c.pad ≤
      (x.diamond test).bounds.height + 2.0 * c.pad + x.yesSize.height := by linarith
  have hdecided := takeTest_counts (c := c.loopBody .whileLoop) hx hpad test hstart hsize
    (t := ((c.loopBody .whileLoop).takeBand (c.reach + x.halfGap) _).2) rfl rfl
  unfold openWhile
  dsimp only
  exact (labelExit_pointsTo _ _ _ _ _ _).quiet ((labelExit_pointsTo _ _ _ _ _ _).quiet hdecided)

theorem gatherBack_counts {back : List (ℚ × ℚ)} (h : x.gatherBack c = .ok (back, d)) :
    c.sheet.Counts [] d.sheet := by
  unfold gatherBack at h
  dsimp only at h
  split at h
  · obtain ⟨⟨pos, t⟩, htake, h⟩ := exists_of_bind_eq_ok h
    cases h
    exact (trunkTo_pointsTo t _ _).quiet (takeExit_counts (c := { c with continues := [] }) htake)
  · cases h
    exact .refl c.sheet

theorem routeBack_pointsTo (x : Context ℚ) (back : List (ℚ × ℚ)) (entry : ℚ) (c : Strand ℚ) :
    c.PointsTo entry (x.routeBack back entry c) := by
  unfold routeBack
  split
  · exact .refl entry c
  · exact c.route_pointsTo _ _ _ _

theorem closeWhile_counts (hpad : 0 ≤ c.pad) {entry : ℚ} (hentry : entry ∈ Icc low c.reach)
    (h : Counts flags ⟨.empty, c.reach⟩ body.sheet) (box : DecisionBox ℚ) (back : List (ℚ × ℚ)) :
    Counts flags ⟨c.group, low⟩ (x.closeWhile entry box back body c).sheet := by
  have hback := (routeBack_pointsTo x back entry body).back h hentry
  unfold closeWhile
  dsimp only
  generalize x.routeBack back entry body = routed at hback ⊢
  obtain ⟨left, hleft⟩ : ∃ left : Strand ℚ, left = { routed with breaks := [] } := ⟨_, rfl⟩
  rw [← hleft]
  have hsame : left.sheet = routed.sheet := hleft ▸ rfl
  rw [← hsame] at hback
  obtain ⟨-, hlow, hhigh⟩ := takeLine_counts (c := c.reclaim left) hpad le_rfl
  have hout := (left.route_pointsTo .out ((box.width / 2.0, box.middle) :: routed.breaks)
    (left.eastLane x.config.stepX) _).out hback ⟨(le_max_right c.reach left.reach).trans hlow, hhigh⟩
  exact absorb_counts rfl hout le_rfl

theorem gatherOnward_counts (hx : x.Generous) (hpad : 0 ≤ c.pad) :
    c.sheet.Counts [] (x.gatherOnward c).sheet := by
  unfold gatherOnward
  dsimp only
  split
  · exact .refl c.sheet
  · obtain ⟨-, hy⟩ := takeLine_counts (c := { c with continues := [] }) hpad
      (le_add_of_nonneg_right (a := c.reach) hx.halfGap)
    exact (gather_pointsTo _ _ _ _ _).along (Counts.refl c.sheet) hy

theorem dropDeadTip_tip (c : Strand ℚ) : c.dropDeadTip.tip = c.liveTip := by
  unfold dropDeadTip liveTip
  split <;> rfl

theorem testDo_counts (hx : x.Generous) (hpad : 0 < c.pad) {mid entry : ℚ}
    (hentry : entry ∈ Icc low mid) (h : Counts flags ⟨.empty, mid⟩ c.sheet) (test : String) :
    Counts (flags ++ [c.liveTip.isSome]) ⟨.empty, low⟩ (x.testDo test entry c).2.sheet := by
  have hlabel : 0 ≤ x.noSize.height := hx.ample.labelSize _
  have hsize : (x.diamond test).bounds.height + 2 * c.pad ≤
      (x.diamond test).bounds.height + 2.0 * c.pad + x.noSize.height := by linarith
  obtain ⟨taken, htaken⟩ : ∃ taken, taken = (c.takeBand (c.reach + x.config.stepY)
    ((x.diamond test).bounds.height + 2.0 * c.pad + x.noSize.height)).2 := ⟨_, rfl⟩
  have hdropped := taken.dropDeadTip_sheet
  have hdecided := takeTest_counts (t := taken.dropDeadTip) hx hpad test
    (le_add_of_nonneg_right hx.stepY) hsize ((congrArg Sheet.drawing hdropped).trans (htaken ▸ rfl))
    ((congrArg Sheet.reach hdropped).trans (htaken ▸ rfl))
  rw [dropDeadTip_tip, htaken] at hdecided
  refine (route_pointsTo _ _ _ _ _).back ?_ hentry
  refine (labelExit_pointsTo _ _ _ _ _ _).quiet ((labelExit_pointsTo _ _ _ _ _ _).quiet ?_)
  exact h.trans hdecided

theorem closeDo_counts (hx : x.Generous) (hpad : 0 ≤ c.pad) (harmPad : 0 < arm.pad) {entry : ℚ}
    (hentry : entry ∈ Icc low c.reach) (h : Counts flags ⟨.empty, c.reach⟩ arm.sheet) (test : String) :
    Counts (flags ++ [(x.gatherOnward arm).liveTip.isSome]) ⟨c.group, low⟩
      (x.closeDo test entry arm c).sheet := by
  have hgathered := h.quiet (gatherOnward_counts hx harmPad.le)
  have htested := testDo_counts hx (harmPad.trans_eq (x.gatherOnward_keeps arm).pad.symm) hentry
    hgathered test
  unfold closeDo
  dsimp only
  generalize x.testDo test entry (x.gatherOnward arm) = tested at htested ⊢
  obtain ⟨box, body⟩ := tested
  obtain ⟨left, hleft⟩ : ∃ left : Strand ℚ, left = { body with breaks := [] } := ⟨_, rfl⟩
  dsimp only at htested ⊢
  rw [← hleft]
  have hsame : left.sheet = body.sheet := hleft ▸ rfl
  rw [← hsame] at htested
  split
  · exact absorb_counts rfl htested (le_max_right _ _)
  · obtain ⟨-, hlow, hhigh⟩ := takeLine_counts (c := c.reclaim left) hpad le_rfl
    have hout := ((left.trunkTo_pointsTo ((c.reclaim left).takeLine (c.reclaim left).reach).1 _).trans
      (route_pointsTo _ .out body.breaks (left.eastLane x.config.stepX) _)).out htested
        ⟨(le_max_right c.reach left.reach).trans hlow, hhigh⟩
    exact absorb_counts rfl hout le_rfl

end Context

structure Fan.Tallied (s : Sheet) (tops ends : List (ℚ × ℚ)) (flags : List Bool) (index : Nat)
    (f : Fan ℚ) : Prop where
  finish : s.Tallies tops ends flags f.finish.sheet
  reach : f.holder.reach = s.reach
  westTops : ∀ p ∈ tops, p.1 < f.right
  westEnds : ∀ p ∈ ends, p.1 ≤ f.right
  first : index = 0 → tops = [] ∧ ends = []

/-- A fan whose arrows lead into its nodes as the flags say. -/
def Fan.Counted (s : Sheet) (flags : List Bool) (index : Nat) (f : Fan ℚ) : Prop :=
  ∃ tops ends, f.Tallied s tops ends flags index

namespace Context
variable {x : Context ℚ} {c arm body holder : Strand ℚ} {s : Sheet} {flags flags' : List Bool}
  {index : Nat} {f : Fan ℚ} {plan : FanPlan ℚ}

theorem start_counted (c : Strand ℚ) (right : ℚ) : (Fan.start c right).Counted c.sheet [] 0 :=
  ⟨[], [], .refl c.sheet, rfl, nofun, nofun, fun _ => ⟨rfl, rfl⟩⟩

theorem labelBranch_counts (x : Context ℚ) (text : String) (c : Strand ℚ) :
    c.sheet.Counts [] (x.labelBranch text c).sheet := by
  unfold labelBranch
  split
  · exact .refl c.sheet
  · exact (draw_pointsTo _ rfl rfl _).quiet (Counts.lower c.sheet (le_max_left _ _))

theorem openBranch_counts (x : Context ℚ) (hf : f.Counted s flags index) (plan : FanPlan ℚ)
    (label : String) : Counts [] ⟨.empty, s.reach⟩ (x.openBranch plan label f).sheet := by
  obtain ⟨tops, ends, hf⟩ := hf
  rw [← hf.reach]
  exact labelBranch_counts x label { f.holder.fork with tip := some plan.tap }

theorem branchDx_border (hx : x.Generous) {tops ends : List (ℚ × ℚ)}
    (hf : f.Tallied s tops ends flags index) (plan : FanPlan ℚ) (arm : Strand ℚ) :
    ∃ right, (∀ p ∈ tops, p.1 < right) ∧ (∀ p ∈ ends, p.1 ≤ right) ∧
      right ≤ arm.group.extent.minX + x.branchDx plan index arm f := by
  unfold branchDx
  split
  · -- the first branch is placed where nothing lies yet
    obtain ⟨hnoTops, hnoEnds⟩ := hf.first rfl
    exact ⟨_, by simp [hnoTops], by simp [hnoEnds], le_rfl⟩
  · have hstep := hx.stepX
    exact ⟨f.right, hf.westTops, hf.westEnds, by linarith⟩

theorem closeBranch_counted (hx : x.Generous) (hf : f.Counted s flags index)
    (harm : Counts flags' ⟨.empty, s.reach⟩ arm.sheet) (plan : FanPlan ℚ) :
    (x.closeBranch plan index arm f).Counted s (flags ++ flags') (index + 1) := by
  have hfence := harm.fenced
  obtain ⟨tops, ends, hf⟩ := hf
  obtain ⟨tops', ends', harm⟩ := harm
  obtain rfl : arm.group.tops = tops' := harm.drawing.tops
  obtain rfl : arm.group.arrowEnds = ends' := harm.drawing.ends
  obtain ⟨right, hclearTops, hclearEnds, hclear⟩ := branchDx_border hx hf plan arm
  have hmerged : Group.Collects (arm.group.tops.map (movedBy (x.branchDx plan index arm f) 0))
      (arm.group.arrowEnds.map (movedBy (x.branchDx plan index arm f) 0)) f.holder.group
        (x.closeBranch plan index arm f).holder.group := by
    unfold closeBranch
    dsimp only
    cases plan.takesBreaks with
    | true => exact @absorb_collects f.holder { arm with breaks := [] } hfence _
    | false => exact absorb_collects f.holder hfence _
  obtain ⟨hmovedTops, hmovedEnds⟩ := hfence.moved_east (x.branchDx plan index arm f)
  have hright : (x.closeBranch plan index arm f).right =
      max f.right (x.branchDx plan index arm f + arm.group.extent.maxX) := rfl
  refine ⟨_, _, hf.finish.beside harm hclearTops hclearEnds hclear hmerged
    ⟨le_max_left _ _, le_max_right _ _⟩, (absorb_redraws f.holder _ _).reach.trans hf.reach,
    fun p hp => ?_, fun p hp => ?_, nofun⟩
  · rw [hright]
    exact (List.mem_append.mp hp).elim (fun hp => lt_max_of_lt_left (hf.westTops p hp))
      fun hp => lt_max_of_lt_right (hmovedTops p hp)
  · rw [hright]
    exact (List.mem_append.mp hp).elim (fun hp => le_max_of_le_left (hf.westEnds p hp))
      fun hp => le_max_of_le_right (hmovedEnds p hp)

theorem joinEnds_counts (hpad : 0 ≤ c.pad) (ends : List (ℚ × ℚ)) :
    c.sheet.Counts [] (joinEnds ends c).sheet := by
  obtain ⟨-, hy⟩ := takeLine_counts hpad (le_refl c.reach)
  have hfold (f : Strand ℚ → ℚ × ℚ → Strand ℚ)
      (hf : ∀ h e, PointsTo (c.takeLine c.reach).1 h (f h e)) :=
    (foldl_pointsTo f hf ends (c.takeLine c.reach).2).along (Counts.refl c.sheet) hy
  unfold joinEnds
  refine hfold _ fun h e => ?_
  obtain ⟨dx, tip⟩ := e
  dsimp only
  split
  · exact h.drawArrow_pointsTo (Path.drop_spec _ _ _ _).1.withArrow (Path.stop_drop _ _ _ _)
  · exact h.drawLine_pointsTo (Path.down_snug _ _ _) (Path.push_isArrow _ _) _

theorem settleEnds_counts (hpad : 0 ≤ c.pad) (ends : List (BranchEnd ℚ)) :
    c.sheet.Counts [] (settleEnds ends c).sheet := by
  unfold settleEnds
  split
  · exact .refl c.sheet
  · exact .refl c.sheet
  · exact joinEnds_counts hpad _

theorem drawTap_pointsTo (tap lastDx : ℚ) (c : Strand ℚ) (y : ℚ) :
    c.PointsTo y (drawTap tap lastDx c) := by
  unfold drawTap
  split
  · exact c.drawAcross_pointsTo _ _ _ y
  · exact .refl y c

theorem gatherBreaks_counts (hpad : 0 ≤ c.pad) (breaks : List (ℚ × ℚ)) :
    c.sheet.Counts [] (x.gatherBreaks breaks c).sheet := by
  unfold gatherBreaks
  split
  · exact .refl c.sheet
  · obtain ⟨-, hy⟩ := takeLine_counts hpad (le_refl c.reach)
    exact (gather_pointsTo _ _ _ _ _).along (Counts.refl c.sheet) hy

theorem adopt_counts (h : Counts flags ⟨.empty, c.reach⟩ holder.sheet) :
    c.sheet.Counts flags (adopt holder c).sheet :=
  Counts.below h (c.absorb_collects h.fenced 0) (le_max_right _ _)

theorem openSwitch_counts (hx : x.Generous) (hpad : 0 < c.pad) (subject : String) :
    Counts [c.tip.isSome] ⟨.empty, c.reach⟩ (x.openSwitch subject c).2.2.sheet := by
  have hsize : (x.diamond subject).bounds.height + 2 * c.pad ≤
      (x.diamond subject).bounds.height + 2.0 * c.pad := by norm_num
  have hdecided := takeTest_counts (c := c.switchHolder) hx hpad subject
    (reach_le_startBelow _ hx.stepY) hsize
    (t := (c.switchHolder.takeBand (c.switchHolder.startBelow x.config.stepY) _).2) rfl rfl
  unfold openSwitch
  dsimp only
  refine (trunkTo_pointsTo _ _ _).quiet ?_
  exact hdecided.quiet (Counts.lower _ (le_max_left _ _))

theorem closeSwitch_counts (hpad : 0 ≤ f.holder.pad) (hopen : Counts flags ⟨.empty, c.reach⟩ s)
    (hf : f.Counted s flags' index) (tap : ℚ) :
    c.sheet.Counts (flags ++ flags') (x.closeSwitch tap f c).sheet := by
  obtain ⟨tops, ends, hf⟩ := hf
  have htap := drawTap_pointsTo tap f.lastDx f.finish f.finish.reach
  have hpad' := hpad.trans_eq ((drawTap_widens tap f.lastDx f.finish).keeps.pad).symm
  have hsettled := hpad'.trans_eq
    ((settleEnds_widens f.ends (drawTap tap f.lastDx f.finish)).keeps.pad).symm
  exact adopt_counts (((htap.quiet (hopen.trans hf.finish.counts)).quiet
    (settleEnds_counts hpad' f.ends)).quiet (gatherBreaks_counts hsettled f.breaks))

theorem openTry_counts (hx : x.Generous) (c : Strand ℚ) :
    Counts [] ⟨.empty, c.reach⟩ (x.openTry c).2.1.sheet ∧
      Counts [] ⟨.empty, (x.openTry c).2.1.reach⟩ (x.openTry c).2.2.sheet := by
  constructor
  · exact (trunkTo_pointsTo _ _ _).quiet (takeLine_lowers c.fork _)
  · exact Counts.lower ⟨.empty, _⟩ (le_add_of_nonneg_right hx.frameY)

theorem closeFrame_counts (h : Counts flags ⟨.empty, holder.reach⟩ body.sheet) (top : ℚ) :
    holder.sheet.Counts flags (x.closeFrame top body holder).holder.sheet := by
  unfold closeFrame
  dsimp only
  have hline := h.quiet (takeLine_lowers body (body.reach + x.config.frame.padY))
  generalize body.takeLine _ = taken at hline ⊢
  obtain ⟨bottom, lined⟩ := taken
  dsimp only at hline ⊢
  have hended : Counts flags ⟨.empty, holder.reach⟩
      (if lined.alive then lined.trunkTo bottom false else lined).sheet := by
    split
    · exact (trunkTo_pointsTo _ _ _).quiet hline
    · exact hline
  generalize (if lined.alive then lined.trunkTo bottom false else lined) = ended at hended ⊢
  exact (draw_pointsTo _ rfl rfl _).quiet (absorb_counts (s := holder.sheet)
    (t := { holder with reach := max holder.reach ended.reach, lanes := ended.lanes }) rfl hended
      (le_max_right _ _))

theorem closeTry_counts {framed : Framed ℚ} (hpad : 0 ≤ f.holder.pad)
    (hopen : Counts flags ⟨.empty, c.reach⟩ s) (hf : f.Counted s flags' index) (tap : ℚ) :
    c.sheet.Counts (flags ++ flags') (closeTry tap framed f c).sheet := by
  obtain ⟨tops, ends, hf⟩ := hf
  obtain ⟨hbus, -⟩ := Path.drop_spec framed.right framed.bottom tap (f.lastDx - framed.right)
  have hdrawn := (f.finish.drawLine_pointsTo hbus ((Path.push_isArrow _ _).trans
    (Path.push_isArrow _ _)) _).quiet (hopen.trans hf.finish.counts)
  refine adopt_counts ?_
  split
  · exact hdrawn
  · exact hdrawn.quiet (joinEnds_counts (c := f.finish.draw _) hpad _)

end Context
end Flowchart
