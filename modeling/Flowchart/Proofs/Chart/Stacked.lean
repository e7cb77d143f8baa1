import Flowchart.Proofs.Chart.Bands
import Flowchart.Proofs.Chart.Sheet
import Flowchart.Proofs.Chart.Faithful
/-! No two boxes of a chart overlap. What follows on a trunk lies below what was drawn, and a branch
beside others is moved east of all of them. -/
namespace Flowchart
open Strand Sheet

structure Context.Ample (x : Context ℚ) : Prop where
  height : ∀ text attrs, 0 ≤ (x.measure text attrs).height
  margin : 0 ≤ x.config.hlineMargin
  stepX : 0 ≤ x.config.stepX
  stepY : 0 ≤ x.config.stepY
  frameY : 0 ≤ x.config.frame.padY

namespace Context
variable {x : Context ℚ} {c d t arm : Strand ℚ} {s : Sheet}

namespace Ample

theorem labelSize (hx : x.Ample) (text : String) : 0 ≤ (x.labelSize text).height := by
  unfold Context.labelSize
  split
  · exact le_rfl
  · exact hx.height _ _

theorem halfGap (hx : x.Ample) : 0 ≤ x.halfGap := div_nonneg hx.stepY (by norm_num)

end Ample

theorem takeBand_room (hpad : 0 ≤ c.pad) {start size high : ℚ} (hstart : c.reach ≤ start)
    (hsize : high + 2 * c.pad ≤ size) :
    c.reach ≤ (c.takeBand start size).1 + c.pad ∧
      (c.takeBand start size).1 + c.pad + high ≤ (c.takeBand start size).2.reach := by
  obtain ⟨hlow, hhigh⟩ := takeBand_bounds c start size
  constructor <;> linarith

theorem drawDecision_grows (h : s.Stacks [] t.sheet) (test : String) {top : ℚ} (hlow : s.reach ≤ top)
    (hhigh : top + (x.diamond test).bounds.height ≤ t.reach) :
    s.Grows (t.drawDecision (x.diamond test) top).2.sheet := by
  refine drawBox_grows (h.trans (t.trunkTo_stacks top true))
    (Group.decisionAround_oneBox _ _ _ _) hlow ?_
  rw [(t.trunkTo_redraws top true).reach]
  exact hhigh

theorem takeTest_grows (hpad : 0 ≤ c.pad) (test : String) {start size : ℚ} (hstart : c.reach ≤ start)
    (hsize : (x.diamond test).bounds.height + 2 * c.pad ≤ size)
    (ht : t.sheet = (c.takeBand start size).2.sheet) :
    c.sheet.Grows (t.drawDecision (x.diamond test) ((c.takeBand start size).1 + c.pad)).2.sheet := by
  obtain ⟨hlow, hhigh⟩ := takeBand_room hpad hstart hsize
  refine drawDecision_grows (ht ▸ takeBand_stacks c start size) test hlow ?_
  exact hhigh.trans_eq (congrArg Sheet.reach ht).symm

theorem arrangeText_grows (hx : x.Ample) (hpad : 0 ≤ c.pad) (content : String) :
    c.sheet.Grows (x.arrangeText content c).sheet := by
  unfold arrangeText
  dsimp only
  generalize hbox : (Group.boxAround content _ _ _ _ : Group ℚ) = box
  have hone : box.OneBox := hbox ▸ Group.boxAround_oneBox _ _ _ _ _
  obtain ⟨hlow, hhigh⟩ := takeBand_room hpad (c.reach_le_startBelow hx.stepY)
    (by norm_num : box.bounds.height + 2 * c.pad ≤ box.bounds.height + 2.0 * c.pad)
  have hband := c.takeBand_stacks (c.startBelow x.config.stepY) (box.bounds.height + 2.0 * c.pad)
  refine drawBox_grows (hband.trans (trunkTo_stacks _ _ _)) hone hlow ?_
  rw [(trunkTo_redraws _ _ _).reach]
  exact hhigh

theorem arrangeJump_stacks {j : Jump} (h : x.arrangeJump j c = .ok d) :
    c.sheet.Stacks [] d.sheet := by
  obtain ⟨heading, -, h⟩ := exists_of_bind_eq_ok h
  obtain ⟨⟨pos, t⟩, htake, h⟩ := exists_of_bind_eq_ok h
  cases h
  exact ((takeExit_bounds htake).1.trans (trunkTo_stacks t _ false)).trans (noteJump_stacks _ j _)

theorem takeDecision_room (hx : x.Ample) (hpad : 0 ≤ c.pad) {test : String} {exits : Exit × Exit}
    {pos : ℚ} (h : x.takeDecision test exits c = .ok (pos, t)) :
    c.sheet.Stacks [] t.sheet ∧ c.reach ≤ pos + c.pad ∧
      pos + c.pad + (x.diamond test).bounds.height ≤ t.reach := by
  have hstart := c.reach_le_startBelow hx.stepY
  have hlabel : 0 ≤ max x.yesSize.height x.noSize.height := le_max_of_le_left (hx.labelSize _)
  unfold takeDecision at h
  dsimp only at h
  split at h
  · cases h
    exact ⟨takeBand_stacks _ _ _, takeBand_room hpad hstart (by linarith)⟩
  · obtain ⟨hband, hlow, hhigh⟩ := takeExit_bounds h
    exact ⟨hband, by linarith, by linarith⟩

theorem claimEast_sheet (exits : Exit × Exit) (middle : ℚ) (c : Strand ℚ) :
    (claimEast exits middle c).sheet = c.sheet := by
  unfold claimEast
  split <;> rfl

theorem openDecision_grows (hx : x.Ample) (hpad : 0 ≤ c.pad) {test : String} {exits : Exit × Exit}
    {box : DecisionBox ℚ} (h : x.openDecision test exits c = .ok (box, d)) :
    c.sheet.Grows d.sheet := by
  obtain ⟨⟨pos, t⟩, htake, h⟩ := exists_of_bind_eq_ok h
  cases h
  obtain ⟨hband, hlow, hhigh⟩ := takeDecision_room hx hpad htake
  have htpad : t.pad = c.pad := (x.takeDecision_keeps htake).pad
  obtain ⟨middle, hmiddle⟩ : ∃ y, y = pos + t.pad + (x.diamond test).bounds.height / 2.0 := ⟨_, rfl⟩
  rw [← htpad] at hlow hhigh
  rw [← claimEast_sheet exits middle t] at hband
  have hreach : (claimEast exits middle t).reach = t.reach :=
    congrArg Sheet.reach (claimEast_sheet exits middle t)
  have hdecided := drawDecision_grows hband test hlow (hhigh.trans_eq hreach.symm)
  rw [hmiddle] at hdecided
  exact ((hdecided.trans (labelExit_stacks _ _ _ _ _).grows).trans
    (labelExit_stacks _ _ _ _ _).grows).trans
    (foldl_stacks _ (fun c _ => noteJump_stacks c _ _) _ _).grows

theorem closeBelow_grows (harm : Grows ⟨.empty, c.reach⟩ arm.sheet) :
    c.sheet.Grows (closeBelow arm c).sheet :=
  Grows.below (.refl c.sheet) harm (c.absorb_gains harm.snug 0) ⟨le_max_left _ _, le_max_right _ _⟩

theorem joinBeside_stacks (c : Strand ℚ) (p : Path ℚ) (start y : ℚ) (below : Option ℚ) :
    c.sheet.Stacks [] { ({ (c.takeLine start).2.draw (.path p) with tip := below } : Strand ℚ).trunkTo
      y false with alive := true }.sheet :=
  ((takeLine_stacks c start).trans (drawPath_stacks _ p)).trans
    (trunkTo_stacks { (c.takeLine start).2.draw (.path p) with tip := below } y false)

theorem closeBeside_grows (hx : x.Ample) {south east : Strand ℚ}
    (hsouth : Grows ⟨.empty, c.reach⟩ south.sheet) (heast : Grows ⟨.empty, c.reach⟩ east.sheet)
    (box : DecisionBox ℚ) :
    c.sheet.Grows (x.closeBeside box south east (closeBelow south c)).sheet := by
  have hsouthSnug := hsouth.snug
  have heastSnug := heast.snug
  obtain ⟨as, has⟩ := hsouth
  obtain ⟨bs, hbs⟩ := heast
  have hbelow : c.sheet.Stacks _ (closeBelow south c).sheet :=
    (Stacks.refl c.sheet).beside has nofun (c.absorb_gains hsouthSnug 0)
      ⟨le_max_left _ _, le_max_right _ _⟩
  obtain ⟨dx, hdx⟩ : ∃ dx, dx = x.eastShift box (max (box.width / 2.0) south.group.extent.maxX) east :=
    ⟨_, rfl⟩
  have hclear : ∀ a ∈ [] ++ as.map (·.offset 0 0), ∀ b ∈ bs, a.maxX ≤ b.minX + dx := by
    intro moved hmoved b hb
    obtain ⟨a, ha, rfl⟩ := List.mem_map.mp hmoved
    obtain ⟨-, hmaxX⟩ := hsouthSnug.inside a (has.drawing.boxes ▸ ha)
    obtain ⟨hminX, -⟩ := heastSnug.inside b (hbs.drawing.boxes ▸ hb)
    have hright : south.group.extent.maxX ≤ max (max (box.width / 2.0) south.group.extent.maxX)
        (box.width / 2.0 + x.noSize.width + 2.0 * labelGap) :=
      (le_max_right _ _).trans (le_max_left _ _)
    have hstep := hx.stepX
    change a.maxX + 0 ≤ b.minX + dx
    change a.maxX ≤ south.group.extent.maxX at hmaxX
    change east.group.extent.minX ≤ b.minX at hminX
    unfold eastShift at hdx
    linarith
  have hmerged : c.sheet.Grows { ((closeBelow south c).draw (.path (Path.across (box.width / 2.0)
      box.middle (dx - box.width / 2.0)))).absorb east dx with
        reach := max (closeBelow south c).reach east.reach, lanes := east.lanes }.sheet :=
    ((hbelow.quiet (drawPath_stacks _ _)).beside hbs hclear (absorb_gains _ heastSnug dx)
      ⟨le_max_left _ _, le_max_right _ _⟩).grows
  unfold closeBeside
  dsimp only
  rw [← hdx]
  split
  · exact hmerged.trans (joinBeside_stacks _ _ _ _ _).grows
  · exact hmerged

theorem enter_stacks (x : Context ℚ) (c : Strand ℚ) : c.sheet.Stacks [] (x.enter c).2.sheet :=
  (takeLine_stacks c _).trans (trunkTo_stacks _ _ _)

theorem openWhile_grows (hx : x.Ample) (hpad : 0 ≤ c.pad) (test : String) :
    Grows ⟨.empty, c.reach⟩ (x.openWhile test c).2.sheet := by
  have hlabel : 0 ≤ x.yesSize.height := hx.labelSize _
  have hstart : (c.loopBody .whileLoop).reach ≤ c.reach + x.halfGap :=
    le_add_of_nonneg_right hx.halfGap
  have hsize : (x.diamond test).bounds.height + 2 * c.pad ≤
      (x.diamond test).bounds.height + 2.0 * c.pad + x.yesSize.height := by linarith
  have hdecided := takeTest_grows (c := c.loopBody .whileLoop) hpad test hstart hsize rfl
  unfold openWhile
  dsimp only
  change Grows ⟨.empty, c.reach⟩ (labelExit _ _ _ _ _).sheet
  exact (hdecided.trans (labelExit_stacks _ _ _ _ _).grows).trans
    (labelExit_stacks _ _ _ _ _).grows

theorem gatherBack_stacks {back : List (ℚ × ℚ)} (h : x.gatherBack c = .ok (back, d)) :
    c.sheet.Stacks [] d.sheet := by
  unfold gatherBack at h
  dsimp only at h
  split at h
  · obtain ⟨⟨pos, t⟩, htake, h⟩ := exists_of_bind_eq_ok h
    cases h
    exact (takeExit_bounds htake).1.trans (trunkTo_stacks t _ false)
  · cases h
    exact .refl c.sheet

theorem routeBack_stacks (x : Context ℚ) (back : List (ℚ × ℚ)) (entry : ℚ) (c : Strand ℚ) :
    c.sheet.Stacks [] (x.routeBack back entry c).sheet := by
  unfold routeBack
  split
  · exact .refl c.sheet
  · exact route_stacks c _ _ _ _

theorem closeWhile_grows {body : Strand ℚ} (h : Grows ⟨.empty, c.reach⟩ body.sheet) (entry : ℚ)
    (box : DecisionBox ℚ) (back : List (ℚ × ℚ)) :
    c.sheet.Grows (x.closeWhile entry box back body c).sheet := by
  have hback := h.trans (routeBack_stacks x back entry body).grows
  unfold closeWhile
  dsimp only
  generalize x.routeBack back entry body = routed at hback ⊢
  obtain ⟨left, hleft⟩ : ∃ left : Strand ℚ, left = { routed with breaks := [] } := ⟨_, rfl⟩
  rw [← hleft]
  have hsame : left.sheet = routed.sheet := hleft ▸ rfl
  rw [← hsame] at hback
  have hline := takeLine_stacks (c.reclaim left) (c.reclaim left).reach
  refine absorb_grows ((reclaim_stacks c left).trans hline)
    (hback.trans (route_stacks left _ _ _ _).grows) ?_
  rw [(route_redraws left _ _ _ _).reach]
  exact (le_max_right _ _).trans hline.reach

theorem gather_stacks (c : Strand ℚ) (role : RouteRole) (points : List (ℚ × ℚ)) (lane y : ℚ) :
    c.sheet.Stacks [] ((c.dropDeadTip.trunkTo y false).route role points lane y).sheet := by
  rw [← c.dropDeadTip_sheet]
  exact (trunkTo_stacks _ y false).trans (route_stacks _ role points lane y)

theorem gatherOnward_stacks (x : Context ℚ) (c : Strand ℚ) :
    c.sheet.Stacks [] (x.gatherOnward c).sheet := by
  unfold gatherOnward
  dsimp only
  split
  · exact .refl c.sheet
  · exact (takeLine_stacks { c with continues := [] } _).trans (gather_stacks _ _ _ _ _)

theorem testDo_grows (hx : x.Ample) (hpad : 0 ≤ c.pad) (test : String) (entry : ℚ) :
    c.sheet.Grows (x.testDo test entry c).2.sheet := by
  have hlabel : 0 ≤ x.noSize.height := hx.labelSize _
  have hsize : (x.diamond test).bounds.height + 2 * c.pad ≤
      (x.diamond test).bounds.height + 2.0 * c.pad + x.noSize.height := by linarith
  have hdecided := takeTest_grows hpad test (le_add_of_nonneg_right hx.stepY) hsize
    (dropDeadTip_sheet _)
  exact ((hdecided.trans (labelExit_stacks _ _ _ _ _).grows).trans
    (labelExit_stacks _ _ _ _ _).grows).trans (route_stacks _ _ _ _ _).grows

theorem closeDo_grows (hx : x.Ample) (hpad : 0 ≤ arm.pad) (h : Grows ⟨.empty, c.reach⟩ arm.sheet)
    (test : String) (entry : ℚ) : c.sheet.Grows (x.closeDo test entry arm c).sheet := by
  have hgathered := h.trans (gatherOnward_stacks x arm).grows
  have htested := hgathered.trans (testDo_grows hx
    (hpad.trans_eq (x.gatherOnward_keeps arm).pad.symm) test entry)
  unfold closeDo
  dsimp only
  generalize x.testDo test entry (x.gatherOnward arm) = tested at htested ⊢
  obtain ⟨box, body⟩ := tested
  obtain ⟨left, hleft⟩ : ∃ left : Strand ℚ, left = { body with breaks := [] } := ⟨_, rfl⟩
  dsimp only at htested ⊢
  rw [← hleft]
  have hsame : left.sheet = body.sheet := hleft ▸ rfl
  rw [← hsame] at htested
  split
  · exact absorb_grows (reclaim_stacks c left) htested (le_max_right _ _)
  · have hline := takeLine_stacks (c.reclaim left) (c.reclaim left).reach
    refine absorb_grows ((reclaim_stacks c left).trans hline)
      ((htested.trans (trunkTo_stacks left _ _).grows).trans (route_stacks _ _ _ _ _).grows) ?_
    rw [(route_redraws _ _ _ _ _).reach, (trunkTo_redraws left _ _).reach]
    exact (le_max_right _ _).trans hline.reach

end Context

structure Fan.Stacked (s : Sheet) (bs : List (Bounds ℚ)) (index : Nat) (f : Fan ℚ) : Prop where
  finish : s.Stacks bs f.finish.sheet
  reach : f.holder.reach = s.reach
  right : ∀ b ∈ bs, b.maxX ≤ f.right
  first : index = 0 → bs = []

namespace Context
variable {x : Context ℚ} {c arm : Strand ℚ} {s : Sheet} {bs : List (Bounds ℚ)} {index : Nat}
  {f : Fan ℚ} {plan : FanPlan ℚ}

theorem start_stacked (c : Strand ℚ) (right : ℚ) : (Fan.start c right).Stacked c.sheet [] 0 :=
  ⟨.refl c.sheet, rfl, nofun, fun _ => rfl⟩

theorem labelBranch_stacks (x : Context ℚ) (text : String) (c : Strand ℚ) :
    c.sheet.Stacks [] (x.labelBranch text c).sheet := by
  unfold labelBranch
  split
  · exact .refl c.sheet
  · exact (takeBand_stacks c _ _).trans (draw_stacks _ rfl)

theorem openBranch_stacks (x : Context ℚ) (hf : f.Stacked s bs index) (plan : FanPlan ℚ)
    (label : String) : Sheet.Stacks [] ⟨.empty, s.reach⟩ (x.openBranch plan label f).sheet := by
  rw [← hf.reach]
  exact labelBranch_stacks x label { f.holder.fork with tip := some plan.tap }

theorem branchDx_clear (hx : x.Ample) (hf : f.Stacked s bs index) (plan : FanPlan ℚ)
    (harm : arm.group.Snug) : ∀ a ∈ bs, ∀ b ∈ arm.group.boxes,
      a.maxX ≤ b.minX + x.branchDx plan index arm f := by
  intro a ha b hb
  have hright := hf.right a ha
  obtain ⟨hminX, -⟩ := harm.inside b hb
  have hstep := hx.stepX
  unfold branchDx
  split
  · rw [hf.first rfl] at ha
    cases ha
  · linarith

theorem closeBranch_stacked (hx : x.Ample) (hf : f.Stacked s bs index)
    (harm : Grows ⟨.empty, s.reach⟩ arm.sheet) (plan : FanPlan ℚ) :
    ∃ bs', (x.closeBranch plan index arm f).Stacked s bs' (index + 1) := by
  have hsnug := harm.snug
  have hclear := branchDx_clear hx hf plan hsnug
  obtain ⟨as, has⟩ := harm
  have hboxes : arm.group.boxes = as := has.drawing.boxes
  generalize hdx : x.branchDx plan index arm f = dx at hclear
  have hright : (x.closeBranch plan index arm f).right = max f.right (dx + arm.group.extent.maxX) :=
    hdx ▸ rfl
  have hgains : f.holder.group.Gains (arm.group.boxes.map (·.offset dx 0))
      (x.closeBranch plan index arm f).holder.group := by
    unfold closeBranch
    dsimp only
    rw [hdx]
    cases plan.takesBreaks with
    | true => exact @absorb_gains f.holder { arm with breaks := [] } hsnug dx
    | false => exact absorb_gains f.holder hsnug dx
  refine ⟨bs ++ as.map (·.offset dx 0),
    { finish := hf.finish.beside has (hboxes ▸ hclear) hgains ⟨le_max_left _ _, le_max_right _ _⟩
      reach := (absorb_redraws f.holder _ _).reach.trans hf.reach
      right := fun b hb => ?_
      first := nofun }⟩
  rw [hright]
  rcases List.mem_append.mp hb with hb | hb
  · exact (hf.right b hb).trans (le_max_left _ _)
  · obtain ⟨a, ha, rfl⟩ := List.mem_map.mp hb
    obtain ⟨-, hmaxX⟩ := hsnug.inside a (hboxes ▸ ha)
    refine le_trans ?_ (le_max_right _ _)
    exact (add_le_add_left hmaxX dx).trans_eq (add_comm _ _)

theorem joinEnds_stacks (ends : List (ℚ × ℚ)) (c : Strand ℚ) :
    c.sheet.Stacks [] (joinEnds ends c).sheet := by
  unfold joinEnds
  refine Stacks.trans (takeLine_stacks c c.reach) (foldl_stacks _ (fun c e => ?_) ends _)
  obtain ⟨dx, tip⟩ := e
  dsimp only
  split <;> exact drawPath_stacks c _

theorem settleEnds_stacks (ends : List (BranchEnd ℚ)) (c : Strand ℚ) :
    c.sheet.Stacks [] (settleEnds ends c).sheet := by
  unfold settleEnds
  split
  · exact .refl c.sheet
  · exact .refl c.sheet
  · exact joinEnds_stacks _ c

theorem drawTap_stacks (tap lastDx : ℚ) (c : Strand ℚ) :
    c.sheet.Stacks [] (drawTap tap lastDx c).sheet := by
  unfold drawTap
  split
  · exact drawPath_stacks c _
  · exact .refl c.sheet

theorem gatherBreaks_stacks (x : Context ℚ) (breaks : List (ℚ × ℚ)) (c : Strand ℚ) :
    c.sheet.Stacks [] (x.gatherBreaks breaks c).sheet := by
  unfold gatherBreaks
  split
  · exact .refl c.sheet
  · exact (takeLine_stacks c _).trans (gather_stacks _ _ _ _ _)

theorem adopt_grows {holder : Strand ℚ} (h : Grows ⟨.empty, c.reach⟩ holder.sheet) :
    c.sheet.Grows (adopt holder c).sheet :=
  Grows.below (.refl c.sheet) h (c.absorb_gains h.snug 0) ⟨le_max_left _ _, le_max_right _ _⟩

theorem openSwitch_grows (hx : x.Ample) (hpad : 0 ≤ c.pad) (subject : String) :
    Grows ⟨.empty, c.reach⟩ (x.openSwitch subject c).2.2.sheet := by
  have hsize : (x.diamond subject).bounds.height + 2 * c.pad ≤
      (x.diamond subject).bounds.height + 2.0 * c.pad := by norm_num
  have hdecided := takeTest_grows (c := c.switchHolder) hpad subject
    (reach_le_startBelow _ hx.stepY) hsize rfl
  unfold openSwitch
  dsimp only
  refine Grows.trans ?_ (trunkTo_stacks _ _ _).grows
  refine Grows.trans ?_ (takeLine_stacks _ _).grows
  exact hdecided

theorem closeSwitch_grows (x : Context ℚ) (hopen : Grows ⟨.empty, c.reach⟩ s)
    (hf : f.Stacked s bs index) (tap : ℚ) : c.sheet.Grows (x.closeSwitch tap f c).sheet :=
  adopt_grows ((((hopen.trans hf.finish.grows).trans (drawTap_stacks _ _ _).grows).trans
    (settleEnds_stacks _ _).grows).trans (gatherBreaks_stacks _ _ _).grows)

theorem openTry_stacks (hx : x.Ample) (c : Strand ℚ) :
    Sheet.Stacks [] ⟨.empty, c.reach⟩ (x.openTry c).2.1.sheet ∧
      Sheet.Stacks [] ⟨.empty, (x.openTry c).2.1.reach⟩ (x.openTry c).2.2.sheet :=
  ⟨(takeLine_stacks c.fork _).trans (trunkTo_stacks _ _ _),
    .lower ⟨.empty, _⟩ (le_add_of_nonneg_right hx.frameY)⟩

theorem closeFrame_grows {body holder : Strand ℚ} (h : Grows ⟨.empty, holder.reach⟩ body.sheet)
    (top : ℚ) : holder.sheet.Grows (x.closeFrame top body holder).holder.sheet := by
  have hline := h.trans (takeLine_stacks body (body.reach + x.config.frame.padY)).grows
  unfold closeFrame
  dsimp only
  generalize body.takeLine _ = taken at hline ⊢
  obtain ⟨bottom, lined⟩ := taken
  dsimp only at hline ⊢
  have hended : lined.sheet.Stacks []
      (if lined.alive then lined.trunkTo bottom false else lined).sheet := by
    split
    · exact trunkTo_stacks lined bottom false
    · exact .refl lined.sheet
  generalize (if lined.alive then lined.trunkTo bottom false else lined) = ended at hended ⊢
  have hmerged : holder.sheet.Grows (absorb { holder with
      reach := max holder.reach ended.reach, lanes := ended.lanes } ended 0).sheet :=
    absorb_grows (.lower holder.sheet (le_max_left _ _)) (hline.trans hended.grows)
      (le_max_right _ _)
  exact hmerged.trans (draw_stacks _ rfl).grows

theorem closeTry_grows {framed : Framed ℚ} (hopen : Grows ⟨.empty, c.reach⟩ s)
    (hf : f.Stacked s bs index) (tap : ℚ) : c.sheet.Grows (closeTry tap framed f c).sheet := by
  refine adopt_grows ((hopen.trans hf.finish.grows).trans ?_)
  split
  · exact (drawPath_stacks f.finish _).grows
  · exact ((drawPath_stacks f.finish _).trans (joinEnds_stacks _ _)).grows

end Context

def Stage.Stacked : Stage ℚ → Prop
  | .statement _ c c' => 0 ≤ c.pad → c.sheet.Grows c'.sheet
  | .block _ c c' => 0 ≤ c.pad → c.sheet.Grows c'.sheet
  | .branches _ index _ f f' => 0 ≤ f.holder.pad → ∀ {s bs}, f.Stacked s bs index →
      ∃ bs' index', f'.Stacked s bs' index'

namespace Context
variable {x : Context ℚ} {c : Strand ℚ}

theorem Run.stacked (hx : x.Ample) {stage : Stage ℚ} (h : x.Run stage) : stage.Stacked := by
  induction h with
  | @text content c =>
      intro hpad
      exact arrangeText_grows hx hpad content
  | @pass c =>
      intro _
      exact (Stacks.lower c.sheet (le_add_of_nonneg_right hx.stepY)).grows
  | @jump j c c' hjump =>
      intro _
      exact (arrangeJump_stacks hjump).grows
  | @twoJumps test yes no c j d k e box opened _ _ _ hopen =>
      intro hpad
      have hopened := openDecision_grows hx hpad hopen
      exact hopened
  | @yesBelow test yes no c k e box opened arm _ _ hopen harm ih =>
      intro hpad
      have hopened := openDecision_grows hx hpad hopen
      exact hopened.trans (closeBelow_grows (ih ((x.openDecision_keeps hopen).pad.symm ▸ hpad)))
  | @noBelow test yes no c j d second box opened arm _ _ _ hopen harm ih =>
      intro hpad
      have hopened := openDecision_grows hx hpad hopen
      exact hopened.trans (closeBelow_grows (ih ((x.openDecision_keeps hopen).pad.symm ▸ hpad)))
  | @twoArms test yes no c box opened south east _ _ hopen _ _ ihSouth ihEast =>
      intro hpad
      have hopened := openDecision_grows hx hpad hopen
      have hkept : 0 ≤ opened.pad := hpad.trans_eq (x.openDecision_keeps hopen).pad.symm
      exact hopened.trans (closeBeside_grows (c := opened) hx (ihSouth hkept) (ihEast hkept) box)
  | @whileLoop test body c inner back gathered _ hback ih =>
      intro hpad
      have hentered : 0 ≤ (x.enter c).2.pad := hpad.trans_eq (x.enter_keeps c).pad.symm
      have hopened := openWhile_grows hx hentered test
      have hinner := ih (hentered.trans_eq (x.openWhile_keeps test _).pad.symm)
      have hgathered := (hopened.trans hinner).trans (gatherBack_stacks hback).grows
      exact (enter_stacks x c).grows.trans (closeWhile_grows hgathered _ _ _)
  | @doLoop body test c inner hbody ih =>
      intro hpad
      have hentered : 0 ≤ (x.enter c).2.pad := hpad.trans_eq (x.enter_keeps c).pad.symm
      have hinner : 0 ≤ inner.pad := hentered.trans_eq hbody.keeps.pad.symm
      exact (enter_stacks x c).grows.trans
        (closeDo_grows (c := (x.enter c).2) hx hinner (ih hentered) test _)
  | @switch subject cases c box tap holder fan hopen _ ih =>
      intro hpad
      have hholder := openSwitch_grows hx hpad subject
      have hkeeps := x.openSwitch_keeps subject c
      rw [hopen] at hholder hkeeps
      obtain ⟨bs, index, hfan⟩ := ih (hpad.trans_eq hkeeps.pad.symm) (start_stacked holder _)
      exact closeSwitch_grows x hholder hfan tap
  | @tryBlock body handlers c top holder inner framed drawn tap opened fan hopen _ hframe hline _
      ihBody ihHandlers =>
      intro hpad
      have hstacks := openTry_stacks hx c
      have hkeeps := x.openTry_keeps c
      have hinnerPad : (x.openTry c).2.2.pad = (x.openTry c).2.1.pad := rfl
      rw [hopen] at hstacks hkeeps hinnerPad
      have hholderPad : 0 ≤ holder.pad := hpad.trans_eq hkeeps.pad.symm
      have hbody := hstacks.2.grows.trans (ihBody (hholderPad.trans_eq hinnerPad.symm))
      have hframed := closeFrame_grows (x := x) hbody top
      have hframeKeeps := x.closeFrame_keeps top framed holder
      rw [hframe] at hframed hframeKeeps
      have htap := takeLine_stacks drawn.holder drawn.holder.reach
      have htapKeeps := takeLine_keeps drawn.holder drawn.holder.reach
      rw [hline] at htap htapKeeps
      obtain ⟨bs, index, hfan⟩ := ihHandlers
        (hholderPad.trans_eq (hframeKeeps.trans htapKeeps).pad.symm) (start_stacked opened _)
      exact closeTry_grows ((hstacks.1.grows.trans hframed).trans htap.grows) hfan tap
  | @done c =>
      intro _
      exact (Stacks.refl c.sheet).grows
  | @dead b c _ =>
      intro _
      exact (Stacks.refl c.sheet).grows
  | @next s rest c mid c' _ hs _ ihs ihrest =>
      intro hpad
      exact (ihs hpad).trans (ihrest (hpad.trans_eq hs.keeps.pad.symm))
  | @noBranch plan index f =>
      intro _ s bs hf
      exact ⟨bs, index, hf⟩
  | @branch plan index label block rest f arm f' _ _ ihBlock ihRest =>
      intro hpad s bs hf
      have hopened := openBranch_stacks x hf plan label
      have harm := hopened.grows.trans (ihBlock
        (hpad.trans_eq (x.openBranch_keeps plan label f).pad.symm))
      obtain ⟨bs', hclosed⟩ := closeBranch_stacked hx hf harm plan
      exact ihRest (hpad.trans_eq (x.closeBranch_keeps plan index arm f).pad.symm) hclosed

/-- The boxes of what a program draws are clear of each other. -/
theorem trunk_boxes (hx : x.Ample) {block : Block} (h : x.arrangeAll block x.root = .ok c) :
    c.group.boxes.Pairwise Bounds.Precedes := by
  have hroot : 0 ≤ (Strand.root (x.config.hlineMargin / 2.0) x.config.debug).pad :=
    div_nonneg hx.margin (by norm_num)
  obtain ⟨bs, hbs⟩ := (run_of_arrangeAll h).stacked hx hroot
  have hboxes : c.group.boxes = bs := hbs.drawing.boxes
  rw [hboxes]
  exact hbs.apart

theorem ample_classic {measure : Measure ℚ} (h : ∀ text attrs, 0 ≤ (measure text attrs).height) :
    (⟨Config.classic, measure⟩ : Context ℚ).Ample where
  height := h
  margin := by change (0 : ℚ) ≤ 10.0; norm_num
  stepX := by change (0 : ℚ) ≤ 24.0; norm_num
  stepY := by change (0 : ℚ) ≤ 20.0; norm_num
  frameY := by change (0 : ℚ) ≤ 10.0; norm_num

end Context

/-- Every source that the parser accepts has a layout, and no two of its boxes overlap if no distance
of the configuration is negative. -/
theorem layout_boxes_disjoint (config : Config ℚ) (measure : Measure ℚ)
    (hx : (⟨config, measure⟩ : Context ℚ).Ample) (source : String) (program : Node)
    (h : config.lexis.parse source = .ok program) :
    ∃ l, Layout.ofProgram config measure program = .ok l ∧
      l.boxes.Pairwise fun a b => Disjoint a.interior b.interior := by
  obtain ⟨l, hl⟩ := Context.ofProgram_ok config measure (Rules.isProgram_of_parse h)
  refine ⟨l, hl, ?_⟩
  obtain ⟨c, hc, rfl⟩ := Layout.ofProgram_eq_ok_iff.mp hl
  rw [Layout.boxes_eq]
  refine List.pairwise_map.mpr ((Context.trunk_boxes hx hc).imp fun hab => ?_)
  exact (hab.offset _ _).disjoint

/-- A loop with a decision in it, drawn with texts of a fixed size. -/
theorem layout_boxes_disjoint_sample :
    (⟨Config.classic, fun _ _ => ⟨30, 10⟩⟩ : Context ℚ).Ample ∧
    (Config.classic : Config ℚ).lexis.parse Sample.source = .ok Sample.program ∧
    ∃ l, Layout.ofProgram Config.classic (fun _ _ => ⟨30, 10⟩ : Measure ℚ) Sample.program = .ok l ∧
      l.boxes.Pairwise fun a b => Disjoint a.interior b.interior := by
  have hx : (⟨Config.classic, fun _ _ => ⟨30, 10⟩⟩ : Context ℚ).Ample :=
    Context.ample_classic fun _ _ => by norm_num
  exact ⟨hx, Sample.parse_source,
    layout_boxes_disjoint _ _ hx Sample.source Sample.program Sample.parse_source⟩

end Flowchart
