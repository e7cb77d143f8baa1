import Flowchart.Proofs.Chart.Progress
import Flowchart.Proofs.Pseudocode.RoundTrip
import Flowchart.Proofs.Shape.Enclosed
/-! Nothing is drawn into the margins of the canvas. Every step of laying out adds leaves and moved
drawings only, so a finished drawing lies in its bounds, and those are moved to the margins. -/
namespace Flowchart
variable {α : Type} [Scalar α]

namespace Strand

/-- The second strand draws leaves and moved drawings on what the first one has drawn. -/
def Builds (c d : Strand α) : Prop := c.group.Made → d.group.Made

variable {c d e : Strand α}

theorem Builds.refl (c : Strand α) : c.Builds c := id

theorem Builds.trans (h : c.Builds d) (k : d.Builds e) : c.Builds e := k ∘ h

theorem Builds.revise (h : c.Builds d) {reach : α} {tip : Option α} {lanes : Lanes α}
    {breakTarget continueTarget : Option JumpTarget} {breaks continues : List (α × α)}
    {alive : Bool} {pad : α} {debug : Bool} {journal : List (Stroke α)} :
    c.Builds ⟨d.group, reach, tip, lanes, breakTarget, continueTarget, breaks, continues, alive, pad,
      debug, journal⟩ := h

theorem foldl_builds {β : Type} (f : Strand α → β → Strand α) (hf : ∀ c b, Builds c (f c b))
    (l : List β) (c : Strand α) : c.Builds (l.foldl f c) := by
  induction l generalizing c with
  | nil => exact .refl c
  | cons b rest ih => exact (hf c b).trans (ih (f c b))

theorem draw_builds (c : Strand α) {s : Shape α} (hs : s.IsLeaf) : c.Builds (c.draw s) :=
  fun hc => .leaf hc hs

theorem drawPath_builds (c : Strand α) (p : Path α) : c.Builds (c.draw (.path p)) :=
  c.draw_builds fun _ _ => rfl

theorem drawLabel_builds (c : Strand α) (text : String) (size : Size α) (x y : α) :
    c.Builds (c.drawLabel text size x y) :=
  c.draw_builds fun _ _ => rfl

theorem drawGroup_builds (c : Strand α) {g : Group α} (hg : g.Made) (dx dy : α) :
    c.Builds (c.draw (g.shift dx dy).toShape) :=
  fun hc => .group hc hg

theorem dropDeadTip_builds (c : Strand α) : c.Builds c.dropDeadTip := by
  unfold dropDeadTip
  split
  · exact .refl c
  · exact (Builds.refl c).revise

theorem trunkTo_builds (c : Strand α) (y : α) (arrow : Bool) : c.Builds (c.trunkTo y arrow) := by
  unfold trunkTo
  split
  · exact (c.drawPath_builds _).revise
  · exact (Builds.refl c).revise

theorem noteJump_builds (c : Strand α) (j : Jump) (p : α × α) : c.Builds (c.noteJump j p) := by
  unfold noteJump
  cases j <;> dsimp only <;> split
  · exact (Builds.refl c).revise.trans (draw_builds _ fun _ _ => rfl)
  · exact (Builds.refl c).revise
  · exact (Builds.refl c).revise.trans (draw_builds _ fun _ _ => rfl)
  · exact (Builds.refl c).revise

/-- What is absorbed is made in its own place before it is moved, and a debug frame is a leaf. -/
theorem absorb_builds (c : Strand α) {child : Strand α} (hchild : child.group.Made) (dx : α) :
    c.Builds (c.absorb child dx) := by
  have hmerged := c.drawGroup_builds hchild dx 0
  unfold absorb
  dsimp only
  split
  · exact hmerged.revise.trans (draw_builds _ fun _ _ => rfl)
  · exact hmerged.revise

theorem takeBand_builds (c : Strand α) (start size : α) : c.Builds (c.takeBand start size).2 :=
  (Builds.refl c).revise

theorem takeLine_builds (c : Strand α) (start : α) : c.Builds (c.takeLine start).2 :=
  (Builds.refl c).revise

theorem takeExit_builds {start size y : α} {east : Bool}
    (h : c.takeExit start size east = .ok (y, d)) : c.Builds d := by
  unfold takeExit at h
  split at h
  · cases h
    exact (Builds.refl c).revise
  · cases h

theorem reclaim_builds (c body : Strand α) : c.Builds (c.reclaim body) := (Builds.refl c).revise

theorem drawDecision_builds (c : Strand α) {diamond : Group α} (h : diamond.Made) (top : α) :
    c.Builds (c.drawDecision diamond top).2 :=
  (c.trunkTo_builds top true).trans (drawGroup_builds _ h _ _)

theorem labelExit_builds (c : Strand α) (text : String) (size : Size α) (d : Direction)
    (box : DecisionBox α) : c.Builds (c.labelExit text size d box) := by
  unfold labelExit
  split
  · exact .refl c
  · cases d <;> exact drawLabel_builds _ _ _ _ _

theorem route_builds (c : Strand α) (role : RouteRole) (points : List (α × α)) (lane target : α) :
    c.Builds (c.route role points lane target) := by
  unfold route
  dsimp only
  split
  · exact (Builds.refl c).revise
  · refine .trans ?_ (foldl_builds _ (fun c (p : α × α) =>
      c.drawPath_builds (Path.across p.1 p.2 (lane - p.1))) _ _)
    exact (Builds.refl c).revise.trans (drawPath_builds _ _)

end Strand

def Stage.Builds : Stage α → Prop
  | .statement _ c c' => c.Builds c'
  | .block _ c c' => c.Builds c'
  | .branches _ _ _ f f' => f.holder.Builds f'.holder

namespace Context
open Strand
variable {x : Context α} {c d arm body holder : Strand α}

theorem diamond_made (test : String) : (x.diamond test).Made := Group.made_decisionAround _ _ _ _

theorem arrangeText_builds (content : String) (c : Strand α) :
    c.Builds (x.arrangeText content c) := by
  unfold arrangeText
  exact (((c.takeBand_builds _ _).trans (trunkTo_builds _ _ _)).trans
    (drawGroup_builds _ (Group.made_boxAround _ _ _ _ _) _ _)).revise

theorem arrangeJump_builds {j : Jump} (h : x.arrangeJump j c = .ok d) : c.Builds d := by
  obtain ⟨heading, -, h⟩ := exists_of_bind_eq_ok h
  obtain ⟨⟨pos, taken⟩, htake, h⟩ := exists_of_bind_eq_ok h
  cases h
  exact (((takeExit_builds htake).trans (trunkTo_builds _ _ _)).trans (noteJump_builds _ _ _)).revise

theorem takeDecision_builds {test : String} {exits : Exit × Exit} {pos : α}
    (h : x.takeDecision test exits c = .ok (pos, d)) : c.Builds d := by
  unfold takeDecision at h
  dsimp only at h
  split at h
  · cases h
    exact c.takeBand_builds _ _
  · exact takeExit_builds h

theorem claimEast_builds (exits : Exit × Exit) (middle : α) (c : Strand α) :
    c.Builds (claimEast exits middle c) := by
  unfold claimEast
  split
  · exact (Builds.refl c).revise
  · exact .refl c

theorem drawExits_builds (test : String) (exits : Exit × Exit) (top : α) (c : Strand α) :
    c.Builds (x.drawExits test exits top c).2 := by
  unfold drawExits
  dsimp only
  exact (((c.drawDecision_builds (diamond_made test) top).trans (labelExit_builds _ _ _ _ _)).trans
    (labelExit_builds _ _ _ _ _)).trans (foldl_builds _ (fun c _ => c.noteJump_builds _ _) _ _)

theorem openDecision_builds {test : String} {exits : Exit × Exit} {box : DecisionBox α}
    (h : x.openDecision test exits c = .ok (box, d)) : c.Builds d := by
  obtain ⟨⟨pos, taken⟩, htake, h⟩ := exists_of_bind_eq_ok h
  cases h
  exact ((takeDecision_builds htake).trans (claimEast_builds _ _ _)).trans (drawExits_builds _ _ _ _)

theorem closeBelow_builds (harm : arm.group.Made) (c : Strand α) : c.Builds (closeBelow arm c) :=
  (c.absorb_builds harm 0).revise

theorem closeBeside_builds (harm : arm.group.Made) (box : DecisionBox α) (below c : Strand α) :
    c.Builds (x.closeBeside box below arm c) := by
  have hmerged (p : Path α) (dx : α) : c.Builds ((c.draw (.path p)).absorb arm dx) :=
    (c.drawPath_builds p).trans (absorb_builds _ harm dx)
  unfold closeBeside
  dsimp only
  split
  · refine (Builds.trans ?_ (trunkTo_builds _ _ _)).revise
    exact (((hmerged _ _).revise.trans (takeLine_builds _ _)).trans (drawPath_builds _ _)).revise
  · exact (hmerged _ _).revise

theorem enter_builds (c : Strand α) : c.Builds (x.enter c).2 :=
  (c.takeLine_builds _).trans (trunkTo_builds _ _ _)

theorem openWhile_made (test : String) (c : Strand α) : (x.openWhile test c).2.group.Made := by
  have h : (c.loopBody .whileLoop).Builds (x.openWhile test c).2 := by
    unfold openWhile
    dsimp only
    exact ((((takeBand_builds _ _ _).trans (drawDecision_builds _ (diamond_made test) _)).trans
      (labelExit_builds _ _ _ _ _)).trans (labelExit_builds _ _ _ _ _)).revise
  exact h .empty

theorem gatherBack_builds {back : List (α × α)} (h : x.gatherBack body = .ok (back, d)) :
    body.Builds d := by
  unfold gatherBack at h
  dsimp only at h
  split at h
  · obtain ⟨⟨pos, taken⟩, htake, h⟩ := exists_of_bind_eq_ok h
    cases h
    exact (Builds.refl body).revise.trans ((takeExit_builds htake).trans (trunkTo_builds _ _ _))
  · cases h
    exact (Builds.refl body).revise

theorem routeBack_builds (back : List (α × α)) (entry : α) (body : Strand α) :
    body.Builds (x.routeBack back entry body) := by
  unfold routeBack
  split
  · exact .refl body
  · exact body.route_builds _ _ _ _

theorem closeWhile_builds (hbody : body.group.Made) (entry : α) (box : DecisionBox α)
    (back : List (α × α)) (c : Strand α) : c.Builds (x.closeWhile entry box back body c) := by
  have hrouted := routeBack_builds (x := x) back entry body
  unfold closeWhile
  dsimp only
  refine (((c.reclaim_builds _).trans (takeLine_builds _ _)).trans (absorb_builds _ ?_ 0)).revise
  exact (hrouted.revise.trans (route_builds _ _ _ _ _)) hbody

theorem gatherOnward_builds (body : Strand α) : body.Builds (x.gatherOnward body) := by
  unfold gatherOnward
  dsimp only
  split
  · exact (Builds.refl body).revise
  · refine (Builds.trans (Builds.trans ?_ (trunkTo_builds _ _ _)) (route_builds _ _ _ _ _)).revise
    refine Builds.trans ?_ (dropDeadTip_builds _)
    exact (Builds.refl body).revise.trans (takeLine_builds { body with continues := [] } _)

theorem testDo_builds (test : String) (entry : α) (body : Strand α) :
    body.Builds (x.testDo test entry body).2 := by
  unfold testDo
  dsimp only
  refine (Builds.trans ?_ (route_builds _ _ _ _ _)).revise
  exact ((((body.takeBand_builds _ _).trans (dropDeadTip_builds _)).trans
    (drawDecision_builds _ (diamond_made test) _)).trans (labelExit_builds _ _ _ _ _)).trans
      (labelExit_builds _ _ _ _ _)

theorem closeDo_builds (hbody : body.group.Made) (test : String) (entry : α) (c : Strand α) :
    c.Builds (x.closeDo test entry body c) := by
  have htested := (gatherOnward_builds (x := x) body).trans (testDo_builds (x := x) test entry _)
  unfold closeDo
  dsimp only
  generalize x.testDo test entry (x.gatherOnward body) = tested at htested ⊢
  obtain ⟨box, tested⟩ := tested
  split
  · refine ((c.reclaim_builds _).trans (absorb_builds _ ?_ 0)).revise
    exact htested hbody
  · refine (((c.reclaim_builds _).trans (takeLine_builds _ _)).trans (absorb_builds _ ?_ 0)).revise
    exact ((htested.revise.trans (trunkTo_builds _ _ _)).trans (route_builds _ _ _ _ _)) hbody

theorem openBranch_made (plan : FanPlan α) (label : String) (f : Fan α) :
    (x.openBranch plan label f).group.Made := by
  unfold openBranch labelBranch
  split
  · exact .empty
  · exact ((takeBand_builds _ _ _).trans (drawLabel_builds _ _ _ _ _)) .empty

theorem closeBranch_builds (harm : arm.group.Made) (plan : FanPlan α) (index : Nat) (f : Fan α) :
    f.holder.Builds (x.closeBranch plan index arm f).holder := by
  unfold closeBranch
  refine (f.holder.absorb_builds ?_ _).revise
  split <;> exact harm

theorem joinEnds_builds (ends : List (α × α)) (holder : Strand α) :
    holder.Builds (joinEnds ends holder) := by
  unfold joinEnds
  dsimp only
  refine ((holder.takeLine_builds _).trans (foldl_builds _ (fun c (p : α × α) => ?_) _ _)).revise
  split <;> exact c.drawPath_builds _

theorem adopt_builds (hholder : holder.group.Made) (c : Strand α) : c.Builds (adopt holder c) :=
  (c.absorb_builds hholder 0).revise

theorem openSwitch_made (subject : String) (c : Strand α) :
    (x.openSwitch subject c).2.2.group.Made := by
  have h : c.switchHolder.Builds (x.openSwitch subject c).2.2 := by
    unfold openSwitch
    dsimp only
    refine Builds.trans (Builds.trans ?_ (takeLine_builds _ _)) (trunkTo_builds _ _ _)
    exact ((takeBand_builds _ _ _).trans (drawDecision_builds _ (diamond_made subject) _)).revise
  exact h .empty

theorem drawTap_builds (tap lastDx : α) (holder : Strand α) :
    holder.Builds (drawTap tap lastDx holder) := by
  unfold drawTap
  split
  · exact holder.drawPath_builds _
  · exact .refl holder

theorem settleEnds_builds (ends : List (BranchEnd α)) (holder : Strand α) :
    holder.Builds (settleEnds ends holder) := by
  unfold settleEnds
  split
  · exact (Builds.refl holder).revise
  · exact (Builds.refl holder).revise
  · exact joinEnds_builds _ holder

theorem gatherBreaks_builds (breaks : List (α × α)) (holder : Strand α) :
    holder.Builds (x.gatherBreaks breaks holder) := by
  unfold gatherBreaks
  dsimp only
  split
  · exact .refl holder
  · refine (Builds.trans (Builds.trans ?_ (trunkTo_builds _ _ _)) (route_builds _ _ _ _ _)).revise
    exact (holder.takeLine_builds _).trans (dropDeadTip_builds _)

theorem closeSwitch_builds {f : Fan α} (hfan : f.holder.group.Made) (tap : α) (c : Strand α) :
    c.Builds (x.closeSwitch tap f c) := by
  have hsettled := (drawTap_builds tap f.lastDx f.finish).trans (settleEnds_builds f.ends _)
  exact adopt_builds ((hsettled.trans (gatherBreaks_builds f.breaks _)) hfan) c

theorem openTry_made (c : Strand α) :
    (x.openTry c).2.1.group.Made ∧ (x.openTry c).2.2.group.Made := by
  have h : c.fork.Builds (x.openTry c).2.1 :=
    (takeLine_builds _ _).trans (trunkTo_builds _ _ _)
  exact ⟨h .empty, .empty⟩

theorem closeFrame_builds (hbody : body.group.Made) (top : α) (holder : Strand α) :
    holder.Builds (x.closeFrame top body holder).holder := by
  unfold closeFrame
  dsimp only
  refine ((Builds.refl holder).revise.trans (absorb_builds _ ?_ 0)).trans
    (draw_builds _ fun _ _ => rfl)
  split
  · exact ((body.takeLine_builds _).trans (trunkTo_builds _ _ _)) hbody
  · exact hbody

theorem closeTry_builds {f : Fan α} (hfan : f.holder.group.Made) (tap : α) (framed : Framed α)
    (c : Strand α) : c.Builds (closeTry tap framed f c) := by
  unfold closeTry
  dsimp only
  refine adopt_builds ?_ c
  split
  · exact (f.finish.drawPath_builds _).revise hfan
  · exact ((f.finish.drawPath_builds _).trans (joinEnds_builds _ _)) hfan

theorem Run.builds {stage : Stage α} (h : x.Run stage) : stage.Builds := by
  induction h with
  | text => exact arrangeText_builds _ _
  | pass => exact (Builds.refl _).revise
  | jump h => exact arrangeJump_builds h
  | twoJumps _ _ _ hopen => exact (openDecision_builds hopen).revise
  | yesBelow _ _ hopen _ ih => exact (openDecision_builds hopen).trans (closeBelow_builds (ih .empty) _)
  | noBelow _ _ _ hopen _ ih =>
      exact (openDecision_builds hopen).trans (closeBelow_builds (ih .empty) _)
  | twoArms _ _ hopen _ _ ihs ihe =>
      exact ((openDecision_builds hopen).trans (closeBelow_builds (ihs .empty) _)).trans
        (closeBeside_builds (ihe .empty) _ _ _)
  | whileLoop _ hback ih =>
      have hbody := (gatherBack_builds hback) (ih (openWhile_made _ _))
      exact (enter_builds _).trans (closeWhile_builds hbody _ _ _ _)
  | doLoop _ ih => exact (enter_builds _).trans (closeDo_builds (ih .empty) _ _ _)
  | @switch subject _ c _ _ _ _ hopen _ ih =>
      have hholder := openSwitch_made (x := x) subject c
      rw [hopen] at hholder
      exact closeSwitch_builds (ih hholder) _ c
  | @tryBlock _ _ c top holder _ framed drawn _ _ _ hopen _ hframe hline _ ihb ihh =>
      obtain ⟨hholder, hinner⟩ := openTry_made (x := x) c
      rw [hopen] at hholder hinner
      have hdrawn := closeFrame_builds (x := x) (ihb hinner) top holder
      rw [hframe] at hdrawn
      have hopened := drawn.holder.takeLine_builds drawn.holder.reach
      rw [hline] at hopened
      exact closeTry_builds (ihh (hopened (hdrawn hholder))) _ _ c
  | done => exact .refl _
  | dead => exact .refl _
  | next _ _ _ ihs ihr => exact ihs.trans ihr
  | noBranch => exact .refl _
  | branch _ _ ihb ihr => exact (closeBranch_builds (ihb (openBranch_made _ _ _)) _ _ _).trans ihr

theorem trunk_made {block : Block} (h : x.arrangeAll block x.root = .ok c) : c.group.Made :=
  (run_of_arrangeAll h).builds .empty

theorem canvas_extent (x : Context ℚ) (drawing : Group ℚ) :
    (x.canvas drawing).root.extent =
      ⟨x.config.marginX, x.config.marginY, (x.canvas drawing).width - x.config.marginX,
        (x.canvas drawing).height - x.config.marginY⟩ := by
  unfold canvas Group.extent Group.shift Bounds.offset Bounds.width Bounds.height
  rw [Bounds.mk.injEq]
  norm_num
  refine ⟨?_, ?_, ?_, ?_⟩ <;> ring

end Context

/-- Every source that the parser accepts has a layout, and no leaf of it, not even one that is not
shown, reaches out of what the margins leave of the canvas. -/
theorem layout_within_margins (config : Config ℚ) (measure : Measure ℚ) (source : String)
    (program : Node) (h : config.lexis.parse source = .ok program) :
    ∃ l, Layout.ofProgram config measure program = .ok l ∧
      ∀ p ∈ l.leaves, p.extent.Inside ⟨config.marginX, config.marginY, l.width - config.marginX,
        l.height - config.marginY⟩ := by
  obtain ⟨l, hl⟩ := Context.ofProgram_ok config measure (Rules.isProgram_of_parse h)
  refine ⟨l, hl, fun p hp => ?_⟩
  obtain ⟨c, hc, rfl⟩ := Layout.ofProgram_eq_ok_iff.mp hl
  have hcanvas := Context.canvas_extent ⟨config, measure⟩ c.group
  rw [← hcanvas]
  exact ((Context.trunk_made hc).encloses.shift _ _).leaf_inside hp

/-- A loop with a decision in it, 20 away from all four sides. -/
theorem layout_within_margins_sample :
    (Config.classic : Config ℚ).lexis.parse Sample.source = .ok Sample.program ∧
    ∃ l, Layout.ofProgram Config.classic (fun _ _ => ⟨30, 10⟩ : Measure ℚ) Sample.program = .ok l ∧
      ∀ p ∈ l.leaves, p.extent.Inside ⟨20, 20, l.width - 20, l.height - 20⟩ := by
  have hmargin : (Config.classic : Config ℚ).marginX = 20 ∧ (Config.classic : Config ℚ).marginY = 20 := by
    change (20.0 : ℚ) = 20 ∧ (20.0 : ℚ) = 20
    norm_num
  have h := layout_within_margins Config.classic (fun _ _ => ⟨30, 10⟩) Sample.source Sample.program
    Sample.parse_source
  rw [hmargin.1, hmargin.2] at h
  exact ⟨Sample.parse_source, h⟩

end Flowchart
