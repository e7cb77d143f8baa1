import Flowchart.Proofs.Chart.Bands
import Flowchart.Proofs.Chart.Converging
import Flowchart.Proofs.Chart.Margins
/-! What laying out never takes back: the x over which a drawing spans, the floor of the lanes, and the
lowest y in use. -/
namespace Flowchart

structure Context.Spacious (x : Context ℚ) : Prop where
  margin : 0 ≤ x.config.hlineMargin
  stepX : 0 ≤ x.config.stepX
  stepY : 0 ≤ x.config.stepY

theorem Context.spacious_classic (measure : Measure ℚ) :
    (⟨Config.classic, measure⟩ : Context ℚ).Spacious where
  margin := by change (0 : ℚ) ≤ 10.0; norm_num
  stepX := by change (0 : ℚ) ≤ 24.0; norm_num
  stepY := by change (0 : ℚ) ≤ 20.0; norm_num

namespace Strand
variable {c d e : Strand ℚ}

/-- The second strand spans and reaches at least as far as the first, and jumps leave it for the same
constructs from above the same floor. -/
structure Widens (c d : Strand ℚ) : Prop where
  keeps : c.Keeps d
  left : d.group.x = c.group.x
  hull : c.group.x = 0 → c.group.hull ⊆ d.group.hull
  floor : d.lanes.west.floor = c.lanes.west.floor
  reach : c.reach ≤ d.reach

theorem Widens.refl (c : Strand ℚ) : c.Widens c := ⟨.refl c, rfl, fun _ => subset_rfl, rfl, le_rfl⟩

theorem Widens.trans (h : c.Widens d) (k : d.Widens e) : c.Widens e where
  keeps := h.keeps.trans k.keeps
  left := k.left.trans h.left
  hull hc := (h.hull hc).trans (k.hull (h.left.trans hc))
  floor := k.floor.trans h.floor
  reach := h.reach.trans k.reach

/-- Whatever else of a strand is set, it spans the same, and it may reach farther and take over lanes
with the same floor. -/
theorem Widens.revise (h : c.Widens d) {tip : Option ℚ} {breaks continues : List (ℚ × ℚ)}
    {alive : Bool} {journal : List (Stroke ℚ)} {reach : ℚ} {lanes : Lanes ℚ}
    (hreach : d.reach ≤ reach) (hlanes : lanes.west.floor = d.lanes.west.floor) :
    c.Widens ⟨d.group, reach, tip, lanes, d.breakTarget, d.continueTarget, breaks, continues, alive,
      d.pad, d.debug, journal⟩ :=
  ⟨h.keeps.revise, h.left, h.hull, hlanes.trans h.floor, h.reach.trans hreach⟩

theorem Widens.of_redraws (h : c.Redraws d) (hleft : d.group.x = c.group.x)
    (hhull : c.group.x = 0 → c.group.hull ⊆ d.group.hull) : c.Widens d :=
  ⟨h.keeps, hleft, hhull, congrArg (fun l => l.west.floor) h.lanes, h.reach.ge⟩

theorem foldl_widens {β : Type} (f : Strand ℚ → β → Strand ℚ) (hf : ∀ c b, Widens c (f c b))
    (l : List β) (c : Strand ℚ) : c.Widens (l.foldl f c) := by
  induction l generalizing c with
  | nil => exact .refl c
  | cons b rest ih => exact (hf c b).trans (ih (f c b))

theorem push_left (g : Group ℚ) (s : Shape ℚ) : (g.push s).x = g.x := by
  unfold Group.push
  split <;> rfl

theorem draw_widens (c : Strand ℚ) {s : Shape ℚ} (hs : s.isPlaceholder = false) :
    c.Widens (c.draw s) :=
  .of_redraws (c.draw_redraws s) (push_left _ _) fun hc => (Group.hull_push hc hs).1

theorem trunkTo_widens (c : Strand ℚ) (y : ℚ) (arrow : Bool) : c.Widens (c.trunkTo y arrow) := by
  unfold trunkTo
  split
  · exact (c.draw_widens rfl).revise le_rfl rfl
  · exact (Widens.refl c).revise le_rfl rfl

theorem dropDeadTip_widens (c : Strand ℚ) : c.Widens c.dropDeadTip := by
  unfold dropDeadTip
  split
  · exact .refl c
  · exact (Widens.refl c).revise le_rfl rfl

theorem noteJump_widens (c : Strand ℚ) (j : Jump) (p : ℚ × ℚ) : c.Widens (c.noteJump j p) := by
  unfold noteJump
  cases j <;> dsimp only <;> split
  · exact ((Widens.refl c).revise le_rfl rfl).trans (draw_widens _ rfl)
  · exact (Widens.refl c).revise le_rfl rfl
  · exact ((Widens.refl c).revise le_rfl rfl).trans (draw_widens _ rfl)
  · exact (Widens.refl c).revise le_rfl rfl

theorem absorb_widens (c child : Strand ℚ) (dx : ℚ) : c.Widens (c.absorb child dx) := by
  have hmerged := c.draw_widens (s := (child.group.shift dx 0).toShape) rfl
  unfold absorb
  dsimp only
  split
  · exact (hmerged.revise le_rfl rfl).trans (draw_widens _ rfl)
  · exact hmerged.revise le_rfl rfl

theorem labelExit_widens (c : Strand ℚ) (text : String) (size : Size ℚ) (d : Direction)
    (box : DecisionBox ℚ) : c.Widens (c.labelExit text size d box) := by
  unfold labelExit
  split
  · exact .refl c
  · cases d <;> exact draw_widens _ rfl

theorem drawDecision_widens (c : Strand ℚ) (diamond : Group ℚ) (top : ℚ) :
    c.Widens (c.drawDecision diamond top).2 :=
  (c.trunkTo_widens top true).trans (draw_widens _ rfl)

theorem route_widens (c : Strand ℚ) (role : RouteRole) (points : List (ℚ × ℚ)) (lane target : ℚ) :
    c.Widens (c.route role points lane target) := by
  unfold route
  dsimp only
  split
  · exact (Widens.refl c).revise le_rfl rfl
  · refine Widens.trans ?_ (foldl_widens _ (fun c _ => draw_widens c rfl) _ _)
    exact ((Widens.refl c).revise le_rfl rfl).trans (draw_widens _ rfl)

theorem takeBand_widens (c : Strand ℚ) (start size : ℚ) : c.Widens (c.takeBand start size).2 :=
  (Widens.refl c).revise (le_max_left _ _) (RangeSet.floor_reserve _ _ _)

theorem takeLine_widens (c : Strand ℚ) (start : ℚ) : c.Widens (c.takeLine start).2 :=
  c.takeBand_widens start _

theorem takeExit_widens {start size pos : ℚ} {east : Bool}
    (h : c.takeExit start size east = .ok (pos, d)) :
    c.Widens d ∧ (∀ f ∈ c.lanes.west.floor, f ≤ pos) ∧ start ≤ pos ∧ pos + size ≤ d.reach := by
  unfold takeExit at h
  split at h
  · next hplace =>
      cases h
      obtain ⟨found, hfound, heq⟩ := Option.map_eq_some_iff.mp hplace
      cases heq
      exact ⟨(Widens.refl c).revise (le_max_left _ _) (RangeSet.floor_reserve _ _ _),
        RangeSet.floor_le_commonFit? hfound, RangeSet.le_commonFit? hfound, le_max_right _ _⟩
  · cases h

theorem reclaim_widens (c body : Strand ℚ) : c.Widens (c.reclaim body) :=
  (Widens.refl c).revise (le_max_left _ _) (RangeSet.floor_fold _ _)

end Strand

def Stage.Widens : Stage ℚ → Prop
  | .statement _ c c' => c.Widens c'
  | .block _ c c' => c.Widens c'
  | .branches _ _ _ f f' => f.holder.Widens f'.holder ∧ f.reach ≤ f'.reach

namespace Context
open Strand
variable {x : Context ℚ} {c d arm body : Strand ℚ} {f : Fan ℚ}

theorem arrangeText_widens (content : String) (c : Strand ℚ) : c.Widens (x.arrangeText content c) :=
  (((c.takeBand_widens _ _).trans (trunkTo_widens _ _ _)).trans (draw_widens _ rfl)).revise le_rfl rfl

theorem arrangeJump_widens {j : Jump} (h : x.arrangeJump j c = .ok d) : c.Widens d := by
  obtain ⟨heading, -, h⟩ := exists_of_bind_eq_ok h
  obtain ⟨⟨pos, taken⟩, htake, h⟩ := exists_of_bind_eq_ok h
  cases h
  exact (((takeExit_widens htake).1.trans (trunkTo_widens _ _ _)).trans
    (noteJump_widens _ _ _)).revise le_rfl rfl

theorem takeDecision_widens {test : String} {exits : Exit × Exit} {pos : ℚ}
    (h : x.takeDecision test exits c = .ok (pos, d)) : c.Widens d := by
  unfold takeDecision at h
  dsimp only at h
  split at h
  · cases h
    exact c.takeBand_widens _ _
  · exact (takeExit_widens h).1

theorem claimEast_widens (exits : Exit × Exit) (middle : ℚ) (c : Strand ℚ) :
    c.Widens (claimEast exits middle c) := by
  unfold claimEast
  split
  · exact (Widens.refl c).revise le_rfl rfl
  · exact .refl c

theorem openDecision_widens {test : String} {exits : Exit × Exit} {box : DecisionBox ℚ}
    (h : x.openDecision test exits c = .ok (box, d)) : c.Widens d := by
  obtain ⟨⟨pos, taken⟩, htake, h⟩ := exists_of_bind_eq_ok h
  cases h
  have htaken := (takeDecision_widens htake).trans
    (claimEast_widens exits (pos + taken.pad + (x.diamond test).bounds.height / 2.0) taken)
  exact ((htaken.trans (drawDecision_widens _ _ _)).trans
    ((labelExit_widens _ _ _ _ _).trans (labelExit_widens _ _ _ _ _))).trans
    (foldl_widens _ (fun c _ => c.noteJump_widens _ _) _ _)

theorem closeBelow_widens (harm : arm.lanes.west.floor = c.lanes.west.floor) :
    c.Widens (closeBelow arm c) := by
  have habsorbed := c.absorb_widens arm 0
  have hreach : (c.absorb arm 0).reach = c.reach := (c.absorb_redraws arm 0).reach
  exact habsorbed.revise (hreach.trans_le (le_max_left _ _)) (harm.trans habsorbed.floor.symm)

theorem closeBeside_widens (harm : arm.lanes.west.floor = c.lanes.west.floor) (box : DecisionBox ℚ)
    (below : Strand ℚ) : c.Widens (x.closeBeside box below arm c) := by
  have hmerged (p : Path ℚ) (dx : ℚ) : c.Widens { (c.draw (.path p)).absorb arm dx with
      reach := max c.reach arm.reach, lanes := arm.lanes } := by
    have habsorbed := (c.draw_widens (s := .path p) rfl).trans (absorb_widens _ arm dx)
    have hreach : ((c.draw (.path p)).absorb arm dx).reach = c.reach :=
      (absorb_redraws _ arm dx).reach
    exact habsorbed.revise (hreach.trans_le (le_max_left _ _)) (harm.trans habsorbed.floor.symm)
  unfold closeBeside
  dsimp only
  split
  · refine (Widens.trans ?_ (trunkTo_widens _ _ _)).revise le_rfl rfl
    exact (((hmerged _ _).trans (takeLine_widens _ _)).trans (draw_widens _ rfl)).revise le_rfl rfl
  · exact hmerged _ _

theorem enter_widens (x : Context ℚ) (c : Strand ℚ) : c.Widens (x.enter c).2 :=
  (c.takeLine_widens _).trans (trunkTo_widens _ _ _)

theorem openWhile_widens (x : Context ℚ) (test : String) (c : Strand ℚ) :
    (c.loopBody .whileLoop).Widens (x.openWhile test c).2 :=
  (((takeBand_widens _ _ _).trans (drawDecision_widens _ _ _)).trans
    ((labelExit_widens _ _ _ _ _).trans (labelExit_widens _ _ _ _ _))).revise le_rfl rfl

theorem gatherBack_widens {back : List (ℚ × ℚ)} (h : x.gatherBack body = .ok (back, d)) :
    body.Widens d := by
  unfold gatherBack at h
  dsimp only at h
  split at h
  · obtain ⟨⟨pos, taken⟩, htake, h⟩ := exists_of_bind_eq_ok h
    cases h
    exact ((Widens.refl body).revise le_rfl rfl).trans
      ((takeExit_widens htake).1.trans (trunkTo_widens _ _ _))
  · cases h
    exact (Widens.refl body).revise le_rfl rfl

theorem routeBack_widens (x : Context ℚ) (back : List (ℚ × ℚ)) (entry : ℚ) (body : Strand ℚ) :
    body.Widens (x.routeBack back entry body) := by
  unfold routeBack
  split
  · exact .refl body
  · exact body.route_widens _ _ _ _

theorem closeWhile_widens (x : Context ℚ) (entry : ℚ) (box : DecisionBox ℚ) (back : List (ℚ × ℚ))
    (body c : Strand ℚ) : c.Widens (x.closeWhile entry box back body c) := by
  unfold closeWhile
  dsimp only
  exact (((c.reclaim_widens _).trans (takeLine_widens _ _)).trans (absorb_widens _ _ _)).revise
    le_rfl rfl

theorem gatherOnward_widens (x : Context ℚ) (body : Strand ℚ) : body.Widens (x.gatherOnward body) := by
  unfold gatherOnward
  dsimp only
  split
  · exact (Widens.refl body).revise le_rfl rfl
  · have hline : body.Widens
        (Strand.takeLine { body with continues := [] } (body.reach + x.halfGap)).2 :=
      ((Widens.refl body).revise le_rfl rfl).trans (takeLine_widens _ _)
    exact (((hline.trans (dropDeadTip_widens _)).trans (trunkTo_widens _ _ _)).trans
      (route_widens _ _ _ _ _)).revise le_rfl rfl

theorem testDo_widens (x : Context ℚ) (test : String) (entry : ℚ) (body : Strand ℚ) :
    body.Widens (x.testDo test entry body).2 :=
  (((((body.takeBand_widens _ _).trans (dropDeadTip_widens _)).trans
    (drawDecision_widens _ _ _)).trans ((labelExit_widens _ _ _ _ _).trans
      (labelExit_widens _ _ _ _ _))).trans (route_widens _ _ _ _ _)).revise le_rfl rfl

theorem closeDo_widens (x : Context ℚ) (test : String) (entry : ℚ) (body c : Strand ℚ) :
    c.Widens (x.closeDo test entry body c) := by
  unfold closeDo
  dsimp only
  split
  · exact ((c.reclaim_widens _).trans (absorb_widens _ _ _)).revise le_rfl rfl
  · exact (((c.reclaim_widens _).trans (takeLine_widens _ _)).trans (absorb_widens _ _ _)).revise
      le_rfl rfl

theorem labelBranch_widens (x : Context ℚ) (text : String) (c : Strand ℚ) :
    c.Widens (x.labelBranch text c) := by
  unfold labelBranch
  split
  · exact .refl c
  · exact (c.takeBand_widens _ _).trans (draw_widens _ rfl)

theorem closeBranch_widens (x : Context ℚ) (plan : FanPlan ℚ) (index : Nat)
    (harm : arm.lanes.west.floor = f.holder.lanes.west.floor) :
    f.holder.Widens (x.closeBranch plan index arm f).holder := by
  have habsorbed := f.holder.absorb_widens
    (if plan.takesBreaks then { arm with breaks := [] } else arm) (x.branchDx plan index arm f)
  exact habsorbed.revise le_rfl (harm.trans habsorbed.floor.symm)

theorem joinEnds_widens (ends : List (ℚ × ℚ)) (holder : Strand ℚ) :
    holder.Widens (joinEnds ends holder) := by
  unfold joinEnds
  dsimp only
  refine ((holder.takeLine_widens _).trans (foldl_widens _ (fun c (p : ℚ × ℚ) => ?_) _ _)).revise
    le_rfl rfl
  split <;> exact c.draw_widens rfl

theorem adopt_widens {holder : Strand ℚ} (h : holder.lanes.west.floor = c.lanes.west.floor) :
    c.Widens (adopt holder c) := by
  have habsorbed := c.absorb_widens holder 0
  have hreach : (c.absorb holder 0).reach = c.reach := (c.absorb_redraws holder 0).reach
  exact habsorbed.revise (hreach.trans_le (le_max_left _ _)) (h.trans habsorbed.floor.symm)

theorem openSwitch_widens (x : Context ℚ) (subject : String) (c : Strand ℚ) :
    c.switchHolder.Widens (x.openSwitch subject c).2.2 := by
  unfold openSwitch
  dsimp only
  refine Widens.trans (Widens.trans ?_ (takeLine_widens _ _)) (trunkTo_widens _ _ _)
  exact ((takeBand_widens _ _ _).trans (drawDecision_widens _ _ _)).revise le_rfl rfl

theorem drawTap_widens (tap lastDx : ℚ) (holder : Strand ℚ) :
    holder.Widens (drawTap tap lastDx holder) := by
  unfold drawTap
  split
  · exact holder.draw_widens rfl
  · exact .refl holder

theorem settleEnds_widens (ends : List (BranchEnd ℚ)) (holder : Strand ℚ) :
    holder.Widens (settleEnds ends holder) := by
  unfold settleEnds
  split
  · exact (Widens.refl holder).revise le_rfl rfl
  · exact (Widens.refl holder).revise le_rfl rfl
  · exact joinEnds_widens _ holder

theorem gatherBreaks_widens (x : Context ℚ) (breaks : List (ℚ × ℚ)) (holder : Strand ℚ) :
    holder.Widens (x.gatherBreaks breaks holder) := by
  unfold gatherBreaks
  dsimp only
  split
  · exact .refl holder
  · exact ((((holder.takeLine_widens _).trans (dropDeadTip_widens _)).trans
      (trunkTo_widens _ _ _)).trans (route_widens _ _ _ _ _)).revise le_rfl rfl

theorem closeSwitch_widens (x : Context ℚ) (tap : ℚ)
    (h : f.holder.lanes.west.floor = c.lanes.west.floor) : c.Widens (x.closeSwitch tap f c) := by
  have hholder := ((drawTap_widens tap f.lastDx f.finish).trans (settleEnds_widens f.ends _)).trans
    (x.gatherBreaks_widens f.breaks _)
  exact adopt_widens (hholder.floor.trans h)

theorem openTry_widens (x : Context ℚ) (c : Strand ℚ) : c.fork.Widens (x.openTry c).2.1 :=
  (takeLine_widens _ _).trans (trunkTo_widens _ _ _)

theorem closeFrame_widens (x : Context ℚ) (top : ℚ) {body holder : Strand ℚ}
    (h : body.lanes.west.floor = holder.lanes.west.floor) :
    holder.Widens (x.closeFrame top body holder).holder := by
  have hclosed : (x.closeFrame top body holder).holder.lanes.west.floor =
      holder.lanes.west.floor := by
    refine Eq.trans ?_ h
    have hline := body.takeLine_widens (body.reach + x.config.frame.padY)
    unfold closeFrame
    dsimp only
    rw [draw_lanes, absorb_lanes]
    split
    · exact (hline.trans (trunkTo_widens _ _ _)).floor
    · exact hline.floor
  unfold closeFrame at hclosed ⊢
  dsimp only at hclosed ⊢
  refine Widens.trans (Widens.trans ?_ (absorb_widens _ _ _)) (draw_widens _ rfl)
  rw [draw_lanes, absorb_lanes] at hclosed
  exact (Widens.refl holder).revise (le_max_left _ _) hclosed

theorem closeTry_widens (tap : ℚ) (framed : Framed ℚ)
    (h : f.holder.lanes.west.floor = c.lanes.west.floor) : c.Widens (closeTry tap framed f c) := by
  unfold closeTry
  dsimp only
  refine adopt_widens (Eq.trans ?_ h)
  split
  · rfl
  · exact ((f.finish.draw_widens rfl).trans (joinEnds_widens _ _)).floor

theorem Run.widens (hx : x.Spacious) {stage : Stage ℚ} (h : x.Run stage) : stage.Widens := by
  induction h with
  | text => exact arrangeText_widens _ _
  | pass => exact (Widens.refl _).revise (le_add_of_nonneg_right hx.stepY) rfl
  | jump h => exact arrangeJump_widens h
  | twoJumps _ _ _ hopen => exact (openDecision_widens hopen).revise le_rfl rfl
  | yesBelow _ _ hopen _ ih => exact (openDecision_widens hopen).trans (closeBelow_widens ih.floor)
  | noBelow _ _ _ hopen _ ih =>
      exact (openDecision_widens hopen).trans (closeBelow_widens ih.floor)
  | @twoArms _ _ _ _ _ opened south east _ _ hopen _ _ ihs ihe =>
      have heast : east.lanes.west.floor = (closeBelow south opened).lanes.west.floor := ihe.floor
      exact ((openDecision_widens hopen).trans (closeBelow_widens ihs.floor)).trans
        (closeBeside_widens heast _ _)
  | whileLoop => exact (x.enter_widens _).trans (x.closeWhile_widens _ _ _ _ _)
  | doLoop => exact (x.enter_widens _).trans (x.closeDo_widens _ _ _ _)
  | @switch subject _ c _ tap _ _ hopen _ ih =>
      have hholder := x.openSwitch_widens subject c
      rw [hopen] at hholder
      exact x.closeSwitch_widens tap (ih.1.floor.trans hholder.floor)
  | @tryBlock _ _ c top holder inner framed drawn tap opened _ hopen _ hframe hline _ ihb ihh =>
      have hholder := x.openTry_widens c
      have hinner : (x.openTry c).2.2.lanes = (x.openTry c).2.1.lanes := rfl
      rw [hopen] at hholder hinner
      have hdrawn := x.closeFrame_widens top
        (ihb.floor.trans (congrArg (fun l => l.west.floor) hinner))
      rw [hframe] at hdrawn
      have hopened := drawn.holder.takeLine_widens drawn.holder.reach
      rw [hline] at hopened
      exact closeTry_widens tap drawn
        (ihh.1.floor.trans (hopened.floor.trans (hdrawn.floor.trans hholder.floor)))
  | done => exact .refl _
  | dead => exact .refl _
  | next _ _ _ ihs ihr => exact ihs.trans ihr
  | noBranch => exact ⟨.refl _, le_rfl⟩
  | @branch plan index label _ _ f _ _ _ _ ihb ihr =>
      have hopen := x.labelBranch_widens label { f.holder.fork with tip := some plan.tap }
      exact ⟨(x.closeBranch_widens plan index (ihb.floor.trans hopen.floor)).trans ihr.1,
        (le_max_left _ _).trans ihr.2⟩

end Context
end Flowchart
