import Flowchart.Proofs.Chart.Margins
import Flowchart.Proofs.Chart.Spaced
import Flowchart.Proofs.Chart.Tidied
/-! The canvas fits the drawing west, east and south: what is shown touches the margins there. In the
north the placeholder of an empty branch, at the y where the program starts, may lie above everything
that is shown. -/
namespace Flowchart
open Strand Sheet

structure Fan.Tidy (index : Nat) (f : Fan ℚ) : Prop where
  holder : f.holder.group.Ajar
  east : f.holder.group.Touched (·.isPlaceholder = false) .east ∨
    index ≠ 0 ∧ 0 < f.lastDx ∧ f.holder.group.bounds.edge .east ≤ f.lastDx ∧ f.lastDx ≤ f.right
  right : 0 ≤ f.right

/-- The first branch stands at the origin, or clear of the holder like the others. -/
def FanPlan.Centred (plan : FanPlan ℚ) : Prop := ∀ dx, plan.firstDx = some dx → dx = 0

namespace Context
variable {x : Context ℚ} {c d arm body holder : Strand ℚ} {f : Fan ℚ} {index : Nat} {plan : FanPlan ℚ}

theorem start_tidy (hc : c.group.Settled) {right : ℚ} (hright : 0 ≤ right) :
    (Fan.start c right).Tidy 0 := ⟨hc.ajar, .inl (hc.touched .east nofun), hright⟩

theorem openBranch_tidy (hx : x.Roomy) (plan : FanPlan ℚ) (label : String) (f : Fan ℚ) :
    (x.openBranch plan label f).group.Tidy := by
  unfold openBranch labelBranch
  split
  · exact Group.tidy_empty
  · exact ((Tidies.refl _).revise.trans
      (drawLabel_tidies _ _ (hx.labelSize label).1 _ _)).tidy Group.tidy_empty

/-- A branch beside others is merged east of them. One that is empty leaves nothing but a placeholder
there. -/
theorem absorb_beside_tidy (hf : f.Tidy index) (harm : arm.group.Tidy) {step dx : ℚ} (hstep : 0 < step)
    (hdx : dx = f.right + step - arm.group.extent.minX) :
    (f.holder.absorb arm dx).group.Ajar ∧
      ((f.holder.absorb arm dx).group.Touched (·.isPlaceholder = false) .east ∨
        0 < dx ∧ (f.holder.absorb arm dx).group.bounds.edge .east ≤ dx ∧
          dx ≤ dx + arm.group.extent.maxX) := by
  have hright := hf.right
  rcases harm with hempty | harm
  · have hzero : dx = f.right + step := by
      rw [hdx, hempty]
      change f.right + step - (0 + 0) = f.right + step
      ring
    rw [f.holder.absorb_of_empty hempty]
    have hajar : (f.holder.group.push (Group.empty.shift dx 0).toShape).Ajar := by
      refine hf.holder.push_within ?_ ?_
      · rw [extent_placeholder]
        refine le_trans ?_ (hf.holder.around .west nofun)
        change -dx ≤ 0
        linarith
      · rw [extent_placeholder]
        exact hf.holder.around .south nofun
    have hedge : (Group.empty.shift dx 0).toShape.extent.edge .east = dx := by
      rw [extent_placeholder]
      rfl
    refine ⟨hajar, ?_⟩
    rcases le_total dx (f.holder.group.bounds.edge .east) with hle | hle
    · rcases hf.east with htouched | ⟨-, -, hlast, hlastRight⟩
      · exact .inl (htouched.push_within hf.holder.isEmpty (hedge.trans_le hle))
      · linarith
    · refine .inr ⟨by linarith, ?_, ?_⟩
      · rw [Group.edge_push hf.holder.isEmpty, hedge]
        exact max_le hle le_rfl
      · rw [hempty]
        change dx ≤ dx + (0 + 0)
        linarith
  · have hsettled : (f.holder.absorb arm dx).group.Settled := by
      refine absorb_east_settled hf.holder harm (hf.east.imp_right ?_)
      rintro ⟨-, -, hlast, hlastRight⟩
      have hwide := harm.wide
      have hminX : arm.group.extent.minX = arm.group.bounds.minX + arm.group.x := rfl
      change f.holder.group.bounds.edge .east ≤ arm.group.bounds.maxX + (arm.group.x + dx)
      unfold Bounds.width at hwide
      linarith
    exact ⟨hsettled.ajar, .inl (hsettled.touched .east nofun)⟩

theorem closeBranch_tidy (hx : x.Roomy) (hf : f.Tidy index) (harm : arm.group.Tidy)
    (hplan : plan.Centred) : (x.closeBranch plan index arm f).Tidy (index + 1) := by
  obtain ⟨rest, hrest, hgroup⟩ : ∃ rest : Strand ℚ,
      rest = (if plan.takesBreaks then { arm with breaks := [] } else arm) ∧
        rest.group = arm.group := by
    refine ⟨_, rfl, ?_⟩
    split <;> rfl
  have hrestTidy : rest.group.Tidy := hgroup ▸ harm
  obtain ⟨dx, hdx⟩ : ∃ dx, dx = x.branchDx plan index arm f := ⟨_, rfl⟩
  have hfan : (f.holder.absorb rest dx).group.Ajar ∧
      ((f.holder.absorb rest dx).group.Touched (·.isPlaceholder = false) .east ∨
        0 < dx ∧ (f.holder.absorb rest dx).group.bounds.edge .east ≤ dx ∧
          dx ≤ dx + arm.group.extent.maxX) := by
    unfold branchDx at hdx
    split at hdx
    · next first hfirst =>
        -- the first case of a switch hangs below its test
        have hzero : dx = 0 := hdx.trans (hplan _ hfirst)
        have heast := hf.east.resolve_right fun h => h.1 rfl
        have hsettled := absorb_here_settled (hf.holder.settled heast) hrestTidy
        rw [hzero]
        exact ⟨hsettled.ajar, .inl (hsettled.touched .east nofun)⟩
    · have hstep : 0 < x.config.stepX := labelGap_nonneg.trans_lt hx.stepX
      rw [← hgroup] at hdx ⊢
      exact absorb_beside_tidy hf hrestTidy hstep hdx
  have hclosed : (x.closeBranch plan index arm f).holder.group = (f.holder.absorb rest dx).group ∧
      (x.closeBranch plan index arm f).lastDx = dx ∧
      (x.closeBranch plan index arm f).right = max f.right (dx + arm.group.extent.maxX) := by
    rw [hrest, hdx]
    exact ⟨rfl, rfl, rfl⟩
  obtain ⟨hholder, hlast, hright⟩ := hclosed
  refine ⟨hholder ▸ hfan.1, ?_, ?_⟩
  · rw [hholder, hlast, hright]
    refine hfan.2.imp_right fun ⟨hpos, hedge, hle⟩ => ⟨nofun, hpos, hedge, hle.trans (le_max_right _ _)⟩
  · rw [hright]
    exact le_max_of_le_left hf.right

theorem joinEnds_tidies (ends : List (ℚ × ℚ)) (holder : Strand ℚ) :
    holder.Tidies (joinEnds ends holder) := by
  unfold joinEnds
  dsimp only
  refine ((takeLine_tidies holder _).trans (foldl_tidies _ (fun c (p : ℚ × ℚ) => ?_) _ _)).revise
  split
  · exact c.drawPath_tidies (Path.drop_spec _ _ _ _).1.withArrow
  · exact c.drawPath_tidies (Path.down_snug _ _ _)

theorem settleEnds_tidies (ends : List (BranchEnd ℚ)) (holder : Strand ℚ) :
    holder.Tidies (settleEnds ends holder) := by
  unfold settleEnds
  split
  · exact (Tidies.refl holder).revise
  · exact (Tidies.refl holder).revise
  · exact joinEnds_tidies _ holder

theorem gatherBreaks_tidies (x : Context ℚ) (breaks : List (ℚ × ℚ)) (holder : Strand ℚ) :
    holder.Tidies (x.gatherBreaks breaks holder) := by
  unfold gatherBreaks
  dsimp only
  split
  · exact .refl holder
  · exact ((takeLine_tidies holder _).trans (gather_tidies _ _ _ _ _)).revise

theorem adopt_tidies (hholder : holder.group.Settled) (c : Strand ℚ) : c.Tidies (adopt holder c) :=
  (c.absorb_tidies hholder.tight 0).revise

theorem draw_last_settled (hf : f.Tidy index) {p : Path ℚ} (hp : p.Snug) (hstop : p.stop.1 = f.lastDx) :
    (f.finish.draw (.path p)).group.Settled := by
  refine Group.Ajar.push_east hf.holder (Shape.tight_path hp) (hf.east.imp_right ?_)
  rintro ⟨-, -, hlast, -⟩
  exact hlast.trans (hstop.symm.trans_le (Path.stop_mem hp).2)

theorem openSwitch_settled (hx : x.Roomy) (ha : x.Ample) (hpad : 0 ≤ c.pad) (hreach : 0 ≤ c.reach)
    (subject : String) : (x.openSwitch subject c).2.2.group.Settled ∧
      0 ≤ (x.openSwitch subject c).1.width / 2.0 := by
  have hstart := c.switchHolder.reach_le_startBelow ha.stepY
  obtain ⟨hlow, -⟩ := takeBand_bounds c.switchHolder (c.switchHolder.startBelow x.config.stepY)
    ((x.diamond subject).bounds.height + 2.0 * c.pad)
  have htop := add_nonneg (hreach.trans (hstart.trans hlow)) hpad
  have hdecided := drawDecision_settled hx (c := (c.switchHolder.takeBand
    (c.switchHolder.startBelow x.config.stepY)
      ((x.diamond subject).bounds.height + 2.0 * c.pad)).2) Group.tidy_empty subject htop
  have hwidth : 0 ≤ (x.diamond subject).bounds.width / 2.0 :=
    div_nonneg (diamond_tight hx subject).wide (by norm_num)
  unfold openSwitch
  dsimp only
  exact ⟨((Tidies.refl _).revise.trans (trunkTo_tidies _ _ _)).settled hdecided, hwidth⟩

theorem drawTap_settled (hf : f.Tidy index) (tap : ℚ) :
    (drawTap tap f.lastDx f.finish).group.Settled := by
  unfold drawTap
  split
  · refine draw_last_settled hf (Path.across_snug 0 tap f.lastDx) ?_
    rw [show (Path.across 0 tap f.lastDx).stop = _ from
      (Path.horizontal_spec (Path.start_snug 0 tap) _).2.2, Path.stop_start]
    exact zero_add _
  · next hlast => exact hf.holder.settled (hf.east.resolve_right fun h => hlast h.2.1)

theorem closeSwitch_tidies (hf : f.Tidy index) (tap : ℚ) (c : Strand ℚ) :
    c.Tidies (x.closeSwitch tap f c) :=
  adopt_tidies (((settleEnds_tidies _ _).trans (gatherBreaks_tidies x _ _)).settled
    (drawTap_settled hf tap)) c

theorem openTry_tidy (x : Context ℚ) (c : Strand ℚ) :
    (x.openTry c).2.1.group.Tidy ∧ (x.openTry c).2.2.group.Tidy :=
  ⟨((takeLine_tidies c.fork _).trans (trunkTo_tidies _ _ _)).tidy Group.tidy_empty, Group.tidy_empty⟩

theorem closeFrame_settled (hx : x.Roomy) (hpad : 0 ≤ body.pad) (hreach : 0 ≤ body.reach)
    (hbody : body.group.Tidy) (hholder : holder.group.Tidy) (top : ℚ) :
    (x.closeFrame top body holder).holder.group.Settled ∧ 0 ≤ (x.closeFrame top body holder).right := by
  have hpadX := hx.frameX
  obtain ⟨hlow, -⟩ := takeBand_bounds body (body.reach + x.config.frame.padY) (2.0 * body.pad)
  have hbottom : 0 ≤ (body.takeLine (body.reach + x.config.frame.padY)).1 :=
    add_nonneg ((add_nonneg hreach hx.frameY).trans hlow) hpad
  have hlined := (takeLine_tidies body (body.reach + x.config.frame.padY)).tidy hbody
  unfold closeFrame
  dsimp only
  generalize body.takeLine (body.reach + x.config.frame.padY) = taken at hbottom hlined ⊢
  obtain ⟨bottom, lined⟩ := taken
  have hended : (if lined.alive then lined.trunkTo bottom false else lined).group.Tidy := by
    split
    · exact (trunkTo_tidies _ _ _).tidy hlined
    · exact hlined
  dsimp only at hbottom ⊢
  generalize (if lined.alive then lined.trunkTo bottom false else lined) = ended at hended ⊢
  have hleft : min ended.group.extent.minX 0 - x.config.frame.padX ≤ 0 := by
    have hmin := min_le_right ended.group.extent.minX 0
    linarith
  have hright : 0 ≤ max ended.group.extent.maxX 0 + x.config.frame.padX :=
    add_nonneg (le_max_right _ _) hpadX
  generalize min ended.group.extent.minX 0 - x.config.frame.padX = left at hleft ⊢
  generalize max ended.group.extent.maxX 0 + x.config.frame.padX = right at hright ⊢
  have hframe : (Shape.frame ⟨left, top, right - left, bottom - top⟩ : Shape ℚ).extent =
      ⟨left, top, right, bottom⟩ := by
    change (⟨0 + left, 0 + top, right - left + left, bottom - top + top⟩ : Bounds ℚ) = _
    simp only [zero_add, sub_add_cancel]
  refine ⟨Group.push_around_settled (fun side hside _ => ?_)
    (Shape.tight_frame ⟨left, top, right - left, bottom - top⟩ ?_) fun side hside => ?_, hright⟩
  · rcases hended with hempty | hended
    · rw [absorb_of_empty _ hempty]
      refine Group.Tidy.push_origin hholder (fun side => ?_) hside
      rw [extent_placeholder]
      cases side <;> rfl
    · exact .inl (((Tidies.refl holder).revise.trans (absorb_tidies _ hended 0)).tidy hholder
        |>.touched hside ‹_›)
  · exact sub_nonneg.mpr (hleft.trans hright)
  · rw [hframe]
    cases side with
    | north => exact absurd rfl hside
    | west => exact neg_nonneg.mpr hleft
    | east => exact hright
    | south => exact hbottom

theorem closeTry_tidies (hf : f.Tidy index) (tap : ℚ) (framed : Framed ℚ) (c : Strand ℚ) :
    c.Tidies (closeTry tap framed f c) := by
  have hbus := (Path.drop_spec framed.right framed.bottom tap (f.lastDx - framed.right)).1
  have hstop : (((Path.start framed.right framed.bottom).vertical (tap - framed.bottom)).horizontal
      (f.lastDx - framed.right)).stop.1 = f.lastDx := by
    obtain ⟨hsnug, -, hdown⟩ := Path.vertical_spec (Path.start_snug framed.right framed.bottom)
      (tap - framed.bottom)
    rw [(Path.horizontal_spec hsnug _).2.2, hdown, Path.stop_start]
    exact add_sub_cancel _ _
  have hdrawn := draw_last_settled hf hbus hstop
  unfold closeTry
  dsimp only
  refine adopt_tidies ?_ c
  split
  · exact hdrawn
  · exact (joinEnds_tidies _ _).settled hdrawn

end Context

def Stage.Tidies : Stage ℚ → Prop
  | .statement _ c c' => 0 ≤ c.pad → 0 ≤ c.reach → c.Tidies c'
  | .block _ c c' => 0 ≤ c.pad → 0 ≤ c.reach → c.Tidies c'
  | .branches plan index _ f f' => 0 ≤ f.holder.pad → 0 ≤ f.holder.reach → plan.Centred →
      f.Tidy index → ∃ index', f'.Tidy index'

namespace Context
variable {x : Context ℚ} {c : Strand ℚ}

theorem decisionBelow_tidies (hx : x.Roomy) (ha : x.Ample) (hpad : 0 ≤ c.pad) (hreach : 0 ≤ c.reach)
    {test : String} {exits : Exit × Exit} {box : DecisionBox ℚ} {opened arm : Strand ℚ} {block : Block}
    (hopen : x.openDecision test exits c = .ok (box, opened))
    (ih : Stage.Tidies (.block block (opened.armFrom box.bottom) arm)) :
    c.Tidies (closeBelow arm opened) := by
  obtain ⟨hkept, hlow, hopened⟩ := openDecision_settles hx ha hpad hreach hopen
  have harm := (ih hkept hlow).tidy Group.tidy_empty
  exact Tidies.of_settles fun hc => closeBelow_settled (hopened hc) harm

theorem Run.tidies (hx : x.Roomy) (ha : x.Ample) {stage : Stage ℚ} (h : x.Run stage) :
    stage.Tidies := by
  induction h with
  | @text content c =>
      intro _ _
      exact arrangeText_tidies hx content c
  | @pass c =>
      intro _ _
      exact (Tidies.refl c).revise
  | @jump j c c' hjump =>
      intro _ _
      exact arrangeJump_tidies hjump
  | @twoJumps test yes no c j d k e box opened _ _ _ hopen =>
      intro hpad hreach
      obtain ⟨-, -, hopened⟩ := openDecision_settles hx ha hpad hreach hopen
      exact Tidies.of_settles hopened
  | @yesBelow test yes no c k e box opened arm _ _ hopen _ ih =>
      intro hpad hreach
      exact decisionBelow_tidies hx ha hpad hreach hopen ih
  | @noBelow test yes no c j d second box opened arm _ _ _ hopen _ ih =>
      intro hpad hreach
      exact decisionBelow_tidies hx ha hpad hreach hopen ih
  | @twoArms test yes no c box opened south east _ _ hopen _ _ ihSouth ihEast =>
      intro hpad hreach
      obtain ⟨hkept, hlow, hopened⟩ := openDecision_settles hx ha hpad hreach hopen
      have hsouth := (ihSouth hkept hlow).tidy Group.tidy_empty
      have heast := (ihEast hkept hlow).tidy Group.tidy_empty
      exact Tidies.of_settles fun hc =>
        closeBeside_settled (closeBelow_settled (hopened hc) hsouth) heast box south
  | @whileLoop test body c inner back gathered _ hback ih =>
      intro hpad hreach
      obtain ⟨hentered, hlow⟩ := enter_low x hpad hreach
      have hopened := openWhile_settled hx ha hentered hlow test
      have hinner := ih (hentered.trans_eq (x.openWhile_keeps test _).pad.symm)
        (hlow.trans (openWhile_grows ha hentered test).reach)
      exact (enter_tidies x c).trans (closeWhile_tidies
        ((hinner.trans (gatherBack_tidies hback)).settled hopened) _ _ _ _)
  | @doLoop body test c inner hbody ih =>
      intro hpad hreach
      obtain ⟨hentered, hlow⟩ := enter_low x hpad hreach
      exact (enter_tidies x c).trans (closeDo_tidies hx ha (hentered.trans_eq hbody.keeps.pad.symm)
        (hlow.trans (hbody.stacked ha hentered).reach)
        ((ih hentered hlow).tidy Group.tidy_empty) test _ _)
  | @switch subject cases c box tap holder fan hopen _ ih =>
      intro hpad hreach
      have hholder := openSwitch_settled hx ha hpad hreach subject
      have hkeeps := x.openSwitch_keeps subject c
      have hlow : 0 ≤ (x.openSwitch subject c).2.2.reach :=
        hreach.trans (openSwitch_grows ha hpad subject).reach
      rw [hopen] at hholder hkeeps hlow
      obtain ⟨index, hfan⟩ := ih (hpad.trans_eq hkeeps.pad.symm) hlow
        (fun dx hdx => (Option.some.inj hdx).symm) (start_tidy hholder.1 hholder.2)
      exact closeSwitch_tidies hfan tap c
  | @tryBlock body handlers c top holder inner framed drawn tap opened fan hopen hbody hframe hline _
      ihBody ihHandlers =>
      intro hpad hreach
      obtain ⟨hholder, hinner⟩ := openTry_tidy x c
      obtain ⟨hholderStacks, hinnerStacks⟩ := openTry_stacks ha c
      have hkeeps := x.openTry_keeps c
      have hinnerPad : (x.openTry c).2.2.pad = (x.openTry c).2.1.pad := rfl
      rw [hopen] at hholder hinner hholderStacks hinnerStacks hkeeps hinnerPad
      have hholderPad : 0 ≤ holder.pad := hpad.trans_eq hkeeps.pad.symm
      have hbodyPad : 0 ≤ inner.pad := hholderPad.trans_eq hinnerPad.symm
      have hholderLow : 0 ≤ holder.reach := hreach.trans hholderStacks.reach
      have hbodyLow : 0 ≤ inner.reach := hholderLow.trans hinnerStacks.reach
      have hgrown := hbody.stacked ha hbodyPad
      have hframed := closeFrame_settled (x := x) hx (hbodyPad.trans_eq hbody.keeps.pad.symm)
        (hbodyLow.trans hgrown.reach) ((ihBody hbodyPad hbodyLow).tidy hinner) hholder top
      have hframeKeeps := x.closeFrame_keeps top framed holder
      have hframeGrows := closeFrame_grows (x := x) (hinnerStacks.grows.trans hgrown) top
      rw [hframe] at hframed hframeKeeps hframeGrows
      have htap := takeLine_stacks drawn.holder drawn.holder.reach
      have htapKeeps := takeLine_keeps drawn.holder drawn.holder.reach
      have htapTidies := takeLine_tidies drawn.holder drawn.holder.reach
      rw [hline] at htap htapKeeps htapTidies
      obtain ⟨index, hfan⟩ := ihHandlers
        (hholderPad.trans_eq (hframeKeeps.trans htapKeeps).pad.symm)
        (hholderLow.trans (hframeGrows.reach.trans htap.reach)) (fun dx hdx => by cases hdx)
        (start_tidy (htapTidies.settled hframed.1) hframed.2)
      exact closeTry_tidies hfan tap drawn c
  | @done c =>
      intro _ _
      exact .refl c
  | @dead b c _ =>
      intro _ _
      exact .refl c
  | @next s rest c mid c' _ hs _ ihs ihrest =>
      intro hpad hreach
      exact (ihs hpad hreach).trans (ihrest (hpad.trans_eq hs.keeps.pad.symm)
        (hreach.trans (hs.stacked ha hpad).reach))
  | @noBranch plan index f =>
      intro _ _ _ hf
      exact ⟨index, hf⟩
  | @branch plan index label block rest f arm f' _ _ ihBlock ihRest =>
      intro hpad hreach hplan hf
      have hopened := openBranch_tidy hx plan label f
      have hlow : f.holder.reach ≤ (x.openBranch plan label f).reach :=
        (labelBranch_stacks x label { f.holder.fork with tip := some plan.tap }).reach
      have harm := (ihBlock (hpad.trans_eq (x.openBranch_keeps plan label f).pad.symm)
        (hreach.trans hlow)).tidy hopened
      have hclosed : (x.closeBranch plan index arm f).holder.reach = f.holder.reach :=
        (absorb_redraws f.holder _ _).reach
      exact ihRest (hpad.trans_eq (x.closeBranch_keeps plan index arm f).pad.symm)
        (hreach.trans_eq hclosed.symm) hplan (closeBranch_tidy hx hf harm hplan)

theorem trunk_tidy (hx : x.Roomy) (ha : x.Ample) {block : Block} (h : x.arrangeAll block x.root = .ok c) :
    c.group.Tidy := by
  have hroot : 0 ≤ (Strand.root (x.config.hlineMargin / 2.0) x.config.debug).pad :=
    div_nonneg hx.margin (by norm_num)
  exact ((run_of_arrangeAll h).tidies hx ha hroot le_rfl).tidy Group.tidy_empty

/-- What touches the bounds of a drawing touches the margins of its canvas. -/
theorem canvas_touched (x : Context ℚ) {drawing : Group ℚ} {kind : Shape ℚ → Prop} {side : Side}
    (h : drawing.Touched kind side) :
    ∃ p ∈ (x.canvas drawing).leaves, kind p.shape ∧ p.extent.edge side =
      (⟨x.config.marginX, x.config.marginY, (x.canvas drawing).width - x.config.marginX,
        (x.canvas drawing).height - x.config.marginY⟩ : Bounds ℚ).edge side := by
  rw [← x.canvas_extent drawing]
  exact h.shift _ _

/-- A tidy drawing that shows anything is tight. -/
theorem tight_of_shown (x : Context ℚ) {drawing : Group ℚ} (h : drawing.Tidy)
    (hshown : ∃ p ∈ (x.canvas drawing).leaves, p.isShown = true) : drawing.Tight := by
  refine h.resolve_left fun hempty => ?_
  obtain ⟨p, hp, hshown⟩ := hshown
  rw [hempty] at hp
  rw [List.mem_singleton.mp hp] at hshown
  cases hshown

theorem canvas_north (x : Context ℚ) {drawing : Group ℚ} (h : drawing.Made) :
    (∃ p ∈ (x.canvas drawing).leaves, p.isShown = true ∧ p.extent.minY = x.config.marginY) ∨
      ∃ p ∈ (x.canvas drawing).leaves, p.isShown = false ∧ p.extent.minY = x.config.marginY ∧
        ∀ q ∈ (x.canvas drawing).leaves, q.isShown = true → x.config.marginY < q.extent.minY := by
  obtain ⟨p, hp, -, hedge⟩ := x.canvas_touched (h.touched .north)
  have htop : p.extent.minY = x.config.marginY := neg_inj.mp hedge
  have hbelow : ∀ q ∈ (x.canvas drawing).leaves, x.config.marginY ≤ q.extent.minY := by
    intro q hq
    have hinside : q.extent.Inside (x.canvas drawing).root.extent :=
      (h.encloses.shift _ _).leaf_inside hq
    rw [x.canvas_extent] at hinside
    exact hinside.minY
  by_cases hshown : ∃ q ∈ (x.canvas drawing).leaves,
      q.isShown = true ∧ q.extent.minY = x.config.marginY
  · exact .inl hshown
  · refine .inr ⟨p, hp, ?_, htop, fun q hq hqshown => ?_⟩
    · exact eq_false_of_ne_true fun hpshown => hshown ⟨p, hp, hpshown, htop⟩
    · exact lt_of_le_of_ne (hbelow q hq) fun heq => hshown ⟨q, hq, hqshown, heq.symm⟩

end Context

namespace Sample

def bareTest : Node := ⟨.program, 0, "", [⟨.ifTest, 1, "a", []⟩]⟩

theorem parse_bareTest : (Config.classic : Config ℚ).lexis.parse "if a" = .ok bareTest := rfl

theorem layout_bareTest : ∃ l,
    Layout.ofProgram Config.classic (fun _ _ => ⟨10, 10⟩ : Measure ℚ) bareTest = .ok l ∧
      (∃ p ∈ l.leaves, p.isShown = true) ∧
      ∀ p ∈ l.leaves, p.isShown = true → (Config.classic : Config ℚ).marginY < p.extent.minY := by
  have hchecked :
      ((Layout.ofProgram Config.classic (fun _ _ => ⟨10, 10⟩ : Measure ℚ) bareTest).toOption.any
        fun l => l.leaves.any Placed.isShown && l.leaves.all fun p =>
          !p.isShown || decide ((Config.classic : Config ℚ).marginY < p.extent.minY)) = true := by
    decide +kernel
  obtain ⟨l, hl, hboth⟩ := exists_of_any_toOption hchecked
  obtain ⟨hsome, hall⟩ := Bool.and_eq_true_iff.mp hboth
  refine ⟨l, hl, List.any_eq_true.mp hsome, fun p hp hshown => ?_⟩
  have hp := List.all_eq_true.mp hall p hp
  rw [hshown] at hp
  exact of_decide_eq_true hp

theorem measure_nonneg (text : String) (attrs : Attrs) :
    0 ≤ ((fun _ _ => ⟨10, 10⟩ : Measure ℚ) text attrs).width ∧
      0 ≤ ((fun _ _ => ⟨10, 10⟩ : Measure ℚ) text attrs).height := ⟨by norm_num, by norm_num⟩

end Sample

/-- Under the built-in configuration every source that the parser accepts has a layout. If that shows
anything, what it shows touches the margins in the west, the east and the south, and in the north too,
unless the placeholder of an empty branch lies there, above everything that is shown. -/
theorem layout_touches_margins (measure : Measure ℚ)
    (hmeasure : ∀ text attrs, 0 ≤ (measure text attrs).width ∧ 0 ≤ (measure text attrs).height)
    (source : String) (program : Node)
    (h : (Config.classic : Config ℚ).lexis.parse source = .ok program) :
    ∃ l, Layout.ofProgram Config.classic measure program = .ok l ∧
      ((∃ p ∈ l.leaves, p.isShown = true) →
        (∃ p ∈ l.leaves, p.isShown = true ∧ p.extent.minX = (Config.classic : Config ℚ).marginX) ∧
        (∃ p ∈ l.leaves, p.isShown = true ∧
          p.extent.maxX = l.width - (Config.classic : Config ℚ).marginX) ∧
        (∃ p ∈ l.leaves, p.isShown = true ∧
          p.extent.maxY = l.height - (Config.classic : Config ℚ).marginY) ∧
        ((∃ p ∈ l.leaves, p.isShown = true ∧ p.extent.minY = (Config.classic : Config ℚ).marginY) ∨
          ∃ p ∈ l.leaves, p.isShown = false ∧ p.extent.minY = (Config.classic : Config ℚ).marginY ∧
            ∀ q ∈ l.leaves, q.isShown = true →
              (Config.classic : Config ℚ).marginY < q.extent.minY)) := by
  obtain ⟨l, hl⟩ := Context.ofProgram_ok Config.classic measure (Rules.isProgram_of_parse h)
  refine ⟨l, hl, fun hshown => ?_⟩
  obtain ⟨c, hc, rfl⟩ := Layout.ofProgram_eq_ok_iff.mp hl
  let x : Context ℚ := ⟨Config.classic, measure⟩
  have htidy : c.group.Tidy := Context.trunk_tidy (Context.roomy_classic hmeasure)
    (Context.ample_classic fun text attrs => (hmeasure text attrs).2) hc
  have htight := x.tight_of_shown htidy hshown
  have hvisible {p : Placed ℚ} (hp : p.shape.isPlaceholder = false) : p.isShown = true := by
    unfold Placed.isShown
    rw [hp]
    rfl
  refine ⟨?_, ?_, ?_, ?_⟩
  · obtain ⟨p, hp, hkind, hedge⟩ := x.canvas_touched (htight.touched .west nofun)
    exact ⟨p, hp, hvisible hkind, neg_inj.mp hedge⟩
  · obtain ⟨p, hp, hkind, hedge⟩ := x.canvas_touched (htight.touched .east nofun)
    exact ⟨p, hp, hvisible hkind, hedge⟩
  · obtain ⟨p, hp, hkind, hedge⟩ := x.canvas_touched (htight.touched .south nofun)
    exact ⟨p, hp, hvisible hkind, hedge⟩
  · exact x.canvas_north (Context.trunk_made hc)

/-- A test with nothing in its branches is 20 away from three sides of its canvas, and a placeholder is
from the fourth. -/
theorem layout_touches_margins_bareTest :
    (∀ text attrs, 0 ≤ ((fun _ _ => ⟨10, 10⟩ : Measure ℚ) text attrs).width ∧
      0 ≤ ((fun _ _ => ⟨10, 10⟩ : Measure ℚ) text attrs).height) ∧
    (Config.classic : Config ℚ).lexis.parse "if a" = .ok Sample.bareTest ∧
    ∃ l, Layout.ofProgram Config.classic (fun _ _ => ⟨10, 10⟩ : Measure ℚ) Sample.bareTest = .ok l ∧
      (∃ p ∈ l.leaves, p.isShown = true ∧ p.extent.minX = 20) ∧
      (∃ p ∈ l.leaves, p.isShown = true ∧ p.extent.maxX = l.width - 20) ∧
      (∃ p ∈ l.leaves, p.isShown = true ∧ p.extent.maxY = l.height - 20) ∧
      (∃ p ∈ l.leaves, p.isShown = false ∧ p.extent.minY = 20) := by
  have hmargin : (Config.classic : Config ℚ).marginX = 20 ∧
      (Config.classic : Config ℚ).marginY = 20 := by
    change (20.0 : ℚ) = 20 ∧ (20.0 : ℚ) = 20
    norm_num
  obtain ⟨l, hl, htouches⟩ := layout_touches_margins (fun _ _ => ⟨10, 10⟩) Sample.measure_nonneg "if a"
    Sample.bareTest Sample.parse_bareTest
  obtain ⟨drawn, hdrawn, hsome, hbelow⟩ := Sample.layout_bareTest
  cases hl.symm.trans hdrawn
  obtain ⟨hwest, heast, hsouth, hnorth⟩ := htouches hsome
  obtain ⟨p, hp, hempty, htop, -⟩ := hnorth.resolve_left fun ⟨p, hp, hshown, htop⟩ =>
    (hbelow p hp hshown).ne htop.symm
  rw [hmargin.1] at hwest heast
  rw [hmargin.2] at hsouth htop
  exact ⟨Sample.measure_nonneg, Sample.parse_bareTest, l, hl, hwest, heast, hsouth, p, hp, hempty, htop⟩

/-- Nothing that a bare test shows touches the margin in the north. -/
theorem layout_of_bareTest_north :
    (∀ text attrs, 0 ≤ ((fun _ _ => ⟨10, 10⟩ : Measure ℚ) text attrs).width ∧
      0 ≤ ((fun _ _ => ⟨10, 10⟩ : Measure ℚ) text attrs).height) ∧
    (Config.classic : Config ℚ).lexis.parse "if a" = .ok Sample.bareTest ∧
    ∃ l, Layout.ofProgram Config.classic (fun _ _ => ⟨10, 10⟩ : Measure ℚ) Sample.bareTest = .ok l ∧
      (∃ p ∈ l.leaves, p.isShown = true) ∧
      ¬ ∃ p ∈ l.leaves, p.isShown = true ∧ p.extent.minY = (Config.classic : Config ℚ).marginY := by
  obtain ⟨l, hl, hsome, hbelow⟩ := Sample.layout_bareTest
  refine ⟨Sample.measure_nonneg, Sample.parse_bareTest, l, hl, hsome, ?_⟩
  rintro ⟨p, hp, hshown, htop⟩
  exact (hbelow p hp hshown).ne htop.symm

end Flowchart
