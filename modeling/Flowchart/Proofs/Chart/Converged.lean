import Flowchart.Proofs.Chart.Moored
import Flowchart.Proofs.Chart.Routed
import Flowchart.Proofs.Chart.Sheet
/-! Jump connectors never dangle. Each construct routes the jumps that wait in it: those of a loop body
wait below the line where the loop is entered, and all of them above the line that is taken next. -/
namespace Flowchart
open Strand

namespace Context
variable {x : Context ℚ} {step : ℚ} {c d arm body holder : Strand ℚ} {f : Fan ℚ}

theorem labelSize_height (hmeasure : ∀ text attrs,
    0 ≤ (x.measure text attrs).width ∧ 0 ≤ (x.measure text attrs).height) (text : String) :
    0 ≤ (x.labelSize text).height := by
  unfold labelSize
  split
  · exact le_rfl
  · exact (hmeasure _ _).2

theorem Spacious.halfGap (hx : x.Spacious) : 0 ≤ x.halfGap := by
  have hgap := hx.stepY
  unfold Context.halfGap
  linarith

theorem arrangeText_enlarges (content : String) (c : Strand ℚ) : c.Enlarges (x.arrangeText content c) :=
  (((c.takeBand_enlarges _ _).trans (trunkTo_enlarges _ _ _)).trans
    (drawGroup_enlarges _ (Group.made_boxAround _ _ _ _ _) _ _)).revise le_rfl rfl

theorem arrangeJump_moored (hpad : 0 ≤ c.pad) (hroot : c.Rooted) (hc : c.Moored step) {j : Jump}
    (h : x.arrangeJump j c = .ok d) : d.Moored step := by
  obtain ⟨heading, hheading, h⟩ := exists_of_bind_eq_ok h
  obtain ⟨⟨pos, taken⟩, htake, h⟩ := exists_of_bind_eq_ok h
  cases h
  obtain ⟨hwidens, hfloor, -, hreach⟩ := takeExit_widens htake
  have htip : taken.tip.isSome := (takeExit_adds htake).tip (hroot.tip_of_heading hheading)
  have htaken := hc.enlarge (takeExit_enlarges htake)
  have hgrows := taken.trunkTo_enlarges (pos + taken.pad) false
  have hpad' : taken.pad = c.pad := hwidens.keeps.pad
  have hzero := trunkTo_hull htaken.left htip (pos + taken.pad) false
  have hold : (taken.trunkTo (pos + taken.pad) false).Holds j (0, pos + taken.pad) := by
    refine ⟨Bound.of_keeps ⟨heading, hheading⟩ (hwidens.keeps.trans hgrows.widens.keeps), hzero,
      hzero, fun f hf => ?_, ?_⟩
    · have hsame := hfloor f (hwidens.floor ▸ hgrows.widens.floor ▸ hf)
      dsimp only
      linarith
    · have hkept := hgrows.widens.reach
      dsimp only at hkept ⊢
      linarith
  exact ((htaken.enlarge hgrows).note hold).enlarge ((Enlarges.refl _).revise le_rfl rfl)

theorem takeDecision_spec {test : String} {exits : Exit × Exit} {pos : ℚ}
    (h : x.takeDecision test exits c = .ok (pos, d)) :
    c.Enlarges d ∧ (exitJumps exits ≠ [] → ∀ f ∈ c.lanes.west.floor, f ≤ pos) ∧
      pos + ((x.diamond test).bounds.height + 2.0 * c.pad + max x.yesSize.height x.noSize.height) ≤
        d.reach := by
  unfold takeDecision at h
  dsimp only at h
  split at h
  · next hnone =>
      cases h
      exact ⟨c.takeBand_enlarges _ _, fun hsome => absurd (List.isEmpty_iff.mp hnone) hsome,
        le_max_right _ _⟩
  · obtain ⟨-, hfloor, -, hreach⟩ := takeExit_widens h
    exact ⟨takeExit_enlarges h, fun _ => hfloor, hreach⟩

theorem claimEast_enlarges (exits : Exit × Exit) (middle : ℚ) (c : Strand ℚ) :
    c.Enlarges (claimEast exits middle c) := by
  unfold claimEast
  split
  · exact (Enlarges.refl c).revise le_rfl rfl
  · exact .refl c

theorem noteJumps_moored {β : Type} (point : β → ℚ × ℚ) (jumps : List (Jump × β))
    (hc : c.Moored step) (hjumps : ∀ e ∈ jumps, c.Holds e.1 (point e.2)) :
    (jumps.foldl (fun c e => c.noteJump e.1 (point e.2)) c).Moored step := by
  induction jumps generalizing c with
  | nil => exact hc
  | cons first rest ih =>
      have hwidens := c.noteJump_widens first.1 (point first.2)
      refine ih (hc.note (hjumps first List.mem_cons_self)) fun e he => ?_
      exact (hjumps e (List.mem_cons_of_mem _ he)).widen hc.left hwidens

theorem drawExits_moored (hmeasure : ∀ text attrs,
    0 ≤ (x.measure text attrs).width ∧ 0 ≤ (x.measure text attrs).height) (hc : c.Moored step)
    (test : String) {exits : Exit × Exit} {top : ℚ} (hbound : ∀ e ∈ exitJumps exits, c.Bound e.1)
    (hfloor : exitJumps exits ≠ [] → ∀ f ∈ c.lanes.west.floor, f ≤ top)
    (hreach : top + (x.diamond test).bounds.height ≤ c.reach) :
    (x.drawExits test exits top c).2.Moored step ∧
      0 ∈ (x.drawExits test exits top c).2.group.hull := by
  have hbears := drawDecision_bears hmeasure hc.left test hreach
  have hdecided := c.drawDecision_enlarges (diamond_made (x := x) test) top
  unfold drawExits
  dsimp only
  generalize c.drawDecision (x.diamond test) top = outcome at hbears hdecided ⊢
  obtain ⟨box, decided⟩ := outcome
  dsimp only at hbears hdecided ⊢
  have hlabelled := (decided.labelExit_enlarges x.config.yesText x.yesSize exits.1.direction box).trans
    (labelExit_enlarges _ x.config.noText x.noSize exits.2.direction box)
  have hgrows := hdecided.trans hlabelled
  have hborne := hbears.widen (hdecided.widens.left.trans hc.left) hlabelled.widens
  generalize (decided.labelExit x.config.yesText x.yesSize exits.1.direction box).labelExit
    x.config.noText x.noSize exits.2.direction box = labelled at hgrows hborne ⊢
  have hmoored := hc.enlarge hgrows
  have hjumps := noteJumps_moored
    (fun d : Direction => (if d = .east then box.width / 2.0 else -box.width / 2.0, box.middle))
    (exitJumps exits) hmoored fun e he => ?_
  · exact ⟨hjumps, (foldl_widens _ (fun c e => c.noteJump_widens _ _) _ _).hull hmoored.left
      hborne.trunk⟩
  · refine ⟨(hbound e he).of_keeps hgrows.widens.keeps, ?_, hborne.trunk, fun f hf => ?_, hborne.reach⟩
    · dsimp only
      split
      · exact hborne.east
      · exact hborne.west
    · exact (hfloor (List.ne_nil_of_mem he) f (hgrows.widens.floor ▸ hf)).trans hborne.top

theorem openDecision_moored (hmeasure : ∀ text attrs,
    0 ≤ (x.measure text attrs).width ∧ 0 ≤ (x.measure text attrs).height) (hpad : 0 ≤ c.pad)
    (hc : c.Moored step) {test : String} {exits : Exit × Exit} {box : DecisionBox ℚ}
    (h : x.openDecision test exits c = .ok (box, d))
    (hbound : ∀ e ∈ exitJumps exits, c.Bound e.1) : d.Moored step ∧ 0 ∈ d.group.hull := by
  obtain ⟨⟨pos, taken⟩, htake, h⟩ := exists_of_bind_eq_ok h
  cases h
  obtain ⟨htaken, hfloor, hreach⟩ := takeDecision_spec htake
  have hclaimed := htaken.trans (claimEast_enlarges exits
    (pos + taken.pad + (x.diamond test).bounds.height / 2.0) taken)
  have hlow : (claimEast exits (pos + taken.pad + (x.diamond test).bounds.height / 2.0) taken).reach =
      taken.reach := by
    unfold claimEast
    split <;> rfl
  have hsame : taken.pad = c.pad := htaken.widens.keeps.pad
  have hband : 0 ≤ max x.yesSize.height x.noSize.height :=
    le_max_of_le_left (labelSize_height hmeasure _)
  refine drawExits_moored hmeasure (hc.enlarge hclaimed) test
    (fun e he => (hbound e he).of_keeps hclaimed.widens.keeps) (fun hsome f hf => ?_) ?_
  · have hdodged := hfloor hsome f (hclaimed.widens.floor ▸ hf)
    linarith
  · rw [hlow, hsame]
    linarith

theorem closeBelow_moored (hc : c.Moored step) (harm : arm.Moored step) (hkeeps : c.Keeps arm)
    (hfloor : arm.lanes.west.floor = c.lanes.west.floor) (hzero : 0 ∈ c.group.hull) :
    (closeBelow arm c).Moored step := by
  unfold closeBelow
  rw [absorb_revise]
  exact hc.mergeKept ((Enlarges.refl c).revise (le_max_left _ _) hfloor) harm hkeeps hfloor
    (le_max_right _ _) fun _ _ => .inr hzero

theorem closeBeside_moored (hc : c.Moored step) (harm : arm.Moored step) (hkeeps : c.Keeps arm)
    (hfloor : arm.lanes.west.floor = c.lanes.west.floor) (hzero : 0 ∈ c.group.hull)
    (box : DecisionBox ℚ) (below : Strand ℚ) : (x.closeBeside box below arm c).Moored step := by
  have hmerged (p : Path ℚ) (dx : ℚ) : Strand.Moored step { (c.draw (.path p)).absorb arm dx with
      reach := max c.reach arm.reach, lanes := arm.lanes } := by
    rw [absorb_revise]
    exact hc.mergeKept ((c.drawPath_enlarges p).revise (le_max_left _ _) hfloor) harm hkeeps hfloor
      (le_max_right _ _) fun _ _ => .inr hzero
  unfold closeBeside
  dsimp only
  split
  · refine Moored.enlarge (Moored.enlarge ?_ (trunkTo_enlarges _ _ _))
      ((Enlarges.refl _).revise le_rfl rfl)
    refine Moored.enlarge ?_ ((Enlarges.refl _).revise le_rfl rfl)
    exact (hmerged _ _).enlarge ((takeLine_enlarges _ _).trans (drawPath_enlarges _ _))
  · exact hmerged _ _

theorem enter_enlarges (x : Context ℚ) (c : Strand ℚ) : c.Enlarges (x.enter c).2 :=
  (c.takeLine_enlarges _).trans (trunkTo_enlarges _ _ _)

theorem takeBand_pad (c : Strand ℚ) (start size : ℚ) : (c.takeBand start size).2.pad = c.pad := rfl

theorem takeLine_spec (hpad : 0 ≤ c.pad) (start : ℚ) :
    start ≤ (c.takeLine start).1 ∧ (c.takeLine start).1 ≤ (c.takeLine start).2.reach := by
  obtain ⟨hstart, -⟩ := takeBand_bounds c start (2.0 * c.pad)
  refine ⟨?_, le_trans ?_ (le_max_right _ _)⟩
  · change start ≤ (c.takeBand start (2.0 * c.pad)).1 + c.pad
    linarith
  · change (c.takeBand _ _).1 + c.pad ≤ (c.takeBand _ (2.0 * c.pad)).1 + 2.0 * c.pad
    linarith

theorem enter_le_reach (hpad : 0 ≤ c.pad) : (x.enter c).1 ≤ (x.enter c).2.reach :=
  (takeLine_spec hpad _).2.trans (trunkTo_widens _ _ _).reach

theorem takeTest_bears (hmeasure : ∀ text attrs,
    0 ≤ (x.measure text attrs).width ∧ 0 ≤ (x.measure text attrs).height) {pad : ℚ} (hpad : 0 ≤ pad)
    (hc : c.group.x = 0) (test : String) {start band : ℚ}
    (hband : (x.diamond test).bounds.height + 2.0 * pad ≤ band)
    (ht : (c.takeBand start band).2.Enlarges d) :
    c.Enlarges (d.drawDecision (x.diamond test) ((c.takeBand start band).1 + pad)).2 ∧
      (d.drawDecision (x.diamond test) ((c.takeBand start band).1 + pad)).2.Bears start
        (d.drawDecision (x.diamond test) ((c.takeBand start band).1 + pad)).1 := by
  have hgrows := (c.takeBand_enlarges start band).trans ht
  obtain ⟨hstart, hstop⟩ := takeBand_bounds c start band
  have hreach := ht.widens.reach
  have hfits : (c.takeBand start band).1 + pad + (x.diamond test).bounds.height ≤ d.reach := by
    linarith
  have hbears := drawDecision_bears hmeasure (hgrows.widens.left.trans hc) test hfits
  refine ⟨hgrows.trans (drawDecision_enlarges _ (diamond_made (x := x) test) _), hbears.width,
    hbears.span, ?_, hbears.reach⟩
  have htop := hbears.top
  linarith

theorem openWhile_moored (hx : x.Spacious) (hmeasure : ∀ text attrs,
    0 ≤ (x.measure text attrs).width ∧ 0 ≤ (x.measure text attrs).height) (hpad : 0 ≤ c.pad)
    (test : String) : (x.openWhile test c).2.Moored x.config.stepX ∧
      (x.openWhile test c).2.Holds .leave
        ((x.openWhile test c).1.width / 2.0, (x.openWhile test c).1.middle) := by
  have hgap := hx.halfGap
  have hwidens := x.openWhile_widens test c
  have hblank : (c.loopBody .whileLoop).Moored x.config.stepX := moored_blank rfl rfl rfl rfl
  have hlabel : 0 ≤ x.yesSize.height := labelSize_height hmeasure _
  have htest := takeTest_bears (x := x) hmeasure hpad hblank.left test
    (le_add_of_nonneg_right hlabel) (.refl ((c.loopBody .whileLoop).takeBand
      ((c.loopBody .whileLoop).reach + x.halfGap) _).2)
  unfold openWhile at hwidens ⊢
  dsimp only at hwidens ⊢
  generalize Strand.drawDecision _ (x.diamond test) _ = outcome at hwidens htest ⊢
  obtain ⟨box, decided⟩ := outcome
  obtain ⟨hdecided, hbears⟩ := htest
  dsimp only at hwidens hdecided hbears ⊢
  have hlabelled := (decided.labelExit_enlarges x.config.yesText x.yesSize .south box).trans
    (labelExit_enlarges _ x.config.noText x.noSize .east box)
  have hborne := hbears.widen (hdecided.widens.left.trans hblank.left) hlabelled.widens
  refine ⟨hblank.enlarge ((hdecided.trans hlabelled).revise le_rfl rfl),
    Bound.of_keeps ⟨.east, rfl⟩ hwidens.keeps, hborne.east, hborne.trunk, fun f hf => ?_,
    hborne.reach⟩
  have hfloor : some c.reach = some f := hwidens.floor.symm.trans hf
  cases hfloor
  have htop : c.reach + x.halfGap ≤ box.middle := hborne.top
  exact (le_add_of_nonneg_right hgap).trans htop

theorem gatherBack_moored (hpad : 0 ≤ body.pad) (hbody : body.Moored step)
    (hbound : body.Bound .resume) (hzero : 0 ∈ body.group.hull) {back : List (ℚ × ℚ)}
    (h : x.gatherBack body = .ok (back, d)) :
    d.Moored step ∧ d.continues = [] ∧ ∀ p ∈ back, d.Holds .resume p := by
  have hdrained : Strand.Moored step { body with continues := [] } :=
    hbody.take (List.Subset.refl _) (List.nil_subset _)
  have hwidens := gatherBack_widens h
  have hwaiting : ∀ p ∈ body.continues, d.Holds .resume p :=
    fun p hp => (hbody.continues p hp).widen hbody.left hwidens
  unfold gatherBack at h
  dsimp only at h
  split at h
  · obtain ⟨⟨pos, taken⟩, htake, h⟩ := exists_of_bind_eq_ok h
    cases h
    obtain ⟨htaken, hfloor, -, hreach⟩ := takeExit_widens htake
    have hgrows := (takeExit_enlarges htake).trans (trunkTo_enlarges taken (pos + taken.pad) false)
    have hsame : taken.pad = body.pad := htaken.keeps.pad
    rw [← hsame] at hpad hreach
    refine ⟨hdrained.enlarge hgrows, hgrows.renders.continues, fun p hp => ?_⟩
    rcases List.mem_append.mp hp with hp | hp
    · exact hwaiting p hp
    · rw [List.mem_singleton.mp hp]
      have hend := (hwidens.hull hbody.left) hzero
      refine ⟨hbound.of_keeps hwidens.keeps, hend, hend, fun f hf => ?_, ?_⟩
      · have hlow := hfloor f (hgrows.widens.floor ▸ hf)
        dsimp only
        linarith
      · have hkept := (trunkTo_widens taken (pos + taken.pad) false).reach
        dsimp only at hkept ⊢
        linarith
  · cases h
    exact ⟨hdrained.enlarge ((Enlarges.refl _).revise le_rfl rfl), rfl, hwaiting⟩

theorem routeBack_moored (hx : x.Spacious) (hbody : body.Moored x.config.stepX)
    {back : List (ℚ × ℚ)} (hback : ∀ p ∈ back, body.Holds .resume p) {floor entry : ℚ}
    (hfloor : body.lanes.west.floor = some floor) (hentry : entry ≤ floor) :
    (x.routeBack back entry body).Moored x.config.stepX := by
  unfold routeBack
  split
  · exact hbody
  · next hsome =>
      have hne : back ≠ [] := fun hnil => hsome (hnil ▸ rfl)
      obtain ⟨p, hp⟩ := List.exists_mem_of_ne_nil back hne
      exact hbody.route .back (converges_west hx.stepX hbody.made (hback p hp).trunk hne
        (fun q hq => (hback q hq).span) fun q hq => hentry.trans ((hback q hq).floor floor hfloor))

theorem closeWhile_moored (hx : x.Spacious) (hpad : 0 ≤ c.pad) (hc : c.Moored x.config.stepX)
    (hbody : body.Moored x.config.stepX) (hcontinues : body.continues = []) {back : List (ℚ × ℚ)}
    (hback : ∀ p ∈ back, body.Holds .resume p) {box : DecisionBox ℚ}
    (hexit : body.Holds .leave (box.width / 2.0, box.middle)) {floor entry : ℚ}
    (hfloor : body.lanes.west.floor = some floor) (hentry : entry ≤ floor) :
    (x.closeWhile entry box back body c).Moored x.config.stepX := by
  have hrouted := routeBack_moored hx hbody hback hfloor hentry
  have hwidens := x.routeBack_widens back entry body
  have hdrained : (x.routeBack back entry body).continues = [] := by
    refine Eq.trans ?_ hcontinues
    unfold routeBack
    split
    · rfl
    · exact (route_quiet _ _ _ _ _).continues
  unfold closeWhile
  dsimp only
  generalize x.routeBack back entry body = routed at hrouted hwidens hdrained ⊢
  have hexits : ∀ p ∈ (box.width / 2.0, box.middle) :: routed.breaks, routed.Holds .leave p := by
    intro p hp
    rcases List.mem_cons.mp hp with rfl | hp
    · exact hexit.widen hbody.left hwidens
    · exact hrouted.breaks p hp
  have hemptied : Strand.Moored x.config.stepX { routed with breaks := [] } :=
    hrouted.take (List.nil_subset _) (List.Subset.refl _)
  have hreclaimed : c.Enlarges (c.reclaim { routed with breaks := [] }) :=
    (Enlarges.refl c).revise (le_max_left _ _) (RangeSet.floor_fold _ _)
  have hline := (takeLine_spec (c := c.reclaim { routed with breaks := [] }) hpad
    (max c.reach routed.reach)).1
  have hout := hemptied.route .out (converges_east hx.stepX hrouted.made
    (hexits _ List.mem_cons_self).trunk le_rfl (List.cons_ne_nil _ _)
    (fun p hp => (hexits p hp).span)
    fun p hp => ((hexits p hp).reach.trans (le_max_right c.reach _)).trans hline)
  have hquiet := route_quiet ({ routed with breaks := [] }) .out
    ((box.width / 2.0, box.middle) :: routed.breaks)
    (Strand.eastLane { routed with breaks := [] } x.config.stepX)
    (Strand.takeLine (c.reclaim { routed with breaks := [] }) (max c.reach routed.reach)).1
  exact Moored.enlarge (Moored.absorbSettled ((hc.enlarge hreclaimed).enlarge (takeLine_enlarges _ _)) hout
    hquiet.breaks (hquiet.continues.trans hdrained)) ((Enlarges.refl _).revise le_rfl rfl)

theorem dropDeadTip_group (c : Strand ℚ) : c.dropDeadTip.group = c.group := by
  unfold dropDeadTip
  split <;> rfl

theorem gatherOnward_moored (hx : x.Spacious) (hpad : 0 ≤ body.pad)
    (hbody : body.Moored x.config.stepX) :
    (x.gatherOnward body).Moored x.config.stepX ∧ (x.gatherOnward body).continues = [] := by
  have hdrained : Strand.Moored x.config.stepX { body with continues := [] } :=
    hbody.take (List.Subset.refl _) (List.nil_subset _)
  have hgap := hx.halfGap
  unfold gatherOnward
  dsimp only
  split
  · exact ⟨hdrained, rfl⟩
  · next hsome =>
      have hline := (takeLine_spec (c := { body with continues := [] }) hpad
        (body.reach + x.halfGap)).1
      have hrouted := hdrained.routeOut hx.stepX
        ((Strand.takeLine_enlarges { body with continues := [] } (body.reach + x.halfGap)).trans
          (dropDeadTip_enlarges _)) (dropDeadTip_group _) (fun hnil => hsome (List.isEmpty_iff.mpr hnil))
        (fun p hp => (hbody.continues p hp).widen hbody.left ((Widens.refl body).revise le_rfl rfl))
        ((le_add_of_nonneg_right hgap).trans hline) .onward
      refine ⟨hrouted.enlarge ((Enlarges.refl _).revise le_rfl rfl), ?_⟩
      refine (route_quiet _ _ _ _ _).continues.trans ((trunkTo_quiet _ _ _).continues.trans ?_)
      exact (dropDeadTip_quiet _).continues

theorem testDo_moored (hx : x.Spacious) (hmeasure : ∀ text attrs,
    0 ≤ (x.measure text attrs).width ∧ 0 ≤ (x.measure text attrs).height) (hpad : 0 ≤ body.pad)
    (hbody : body.Moored x.config.stepX) (test : String) {entry : ℚ} (hentry : entry ≤ body.reach) :
    (x.testDo test entry body).2.Moored x.config.stepX ∧
      (x.testDo test entry body).2.continues = body.continues := by
  have hlabel : 0 ≤ x.noSize.height := labelSize_height hmeasure _
  have htest := takeTest_bears (x := x) hmeasure hpad hbody.left test
    (le_add_of_nonneg_right hlabel)
    (dropDeadTip_enlarges (body.takeBand (body.reach + x.config.stepY) _).2)
  have hgap := hx.stepY
  unfold testDo
  dsimp only [takeBand_pad]
  generalize Strand.drawDecision _ (x.diamond test) _ = outcome at htest ⊢
  obtain ⟨box, decided⟩ := outcome
  obtain ⟨hdecided, hbears⟩ := htest
  dsimp only at hdecided hbears ⊢
  have hlabelled := (decided.labelExit_enlarges x.config.yesText x.yesSize .west box).trans
    (labelExit_enlarges _ x.config.noText x.noSize .south box)
  have hborne := hbears.widen (hdecided.widens.left.trans hbody.left) hlabelled.widens
  have hgrows := hdecided.trans hlabelled
  generalize (decided.labelExit x.config.yesText x.yesSize .west box).labelExit x.config.noText
    x.noSize .south box = labelled at hborne hgrows ⊢
  have hmoored := hbody.enlarge hgrows
  have hbelow : ∀ p ∈ [(-box.width / 2.0, box.middle)], entry ≤ p.2 := by
    intro p hp
    rw [List.mem_singleton.mp hp]
    exact (hentry.trans (le_add_of_nonneg_right hgap)).trans hborne.top
  have hagain := hmoored.route .again (converges_west hx.stepX hmoored.made hborne.trunk
    (List.cons_ne_nil _ _) (fun p hp => List.mem_singleton.mp hp ▸ hborne.west) hbelow)
  exact ⟨hagain.enlarge ((Enlarges.refl _).revise le_rfl rfl),
    (route_quiet _ _ _ _ _).continues.trans hgrows.renders.continues⟩

theorem closeDo_moored (hx : x.Spacious) (hmeasure : ∀ text attrs,
    0 ≤ (x.measure text attrs).width ∧ 0 ≤ (x.measure text attrs).height) (hpad : 0 ≤ c.pad)
    (hc : c.Moored x.config.stepX) (hsame : body.pad = c.pad) (hbody : body.Moored x.config.stepX)
    (test : String) {entry : ℚ} (hentry : entry ≤ body.reach) :
    (x.closeDo test entry body c).Moored x.config.stepX := by
  obtain ⟨honward, hnone⟩ := gatherOnward_moored hx (hpad.trans_eq hsame.symm) hbody
  have honwardWidens := x.gatherOnward_widens body
  obtain ⟨htested, hcontinues⟩ := testDo_moored hx hmeasure
    ((hpad.trans_eq hsame.symm).trans_eq honwardWidens.keeps.pad.symm) honward test
    (hentry.trans honwardWidens.reach)
  rw [hnone] at hcontinues
  unfold closeDo
  dsimp only
  generalize x.testDo test entry (x.gatherOnward body) = tested at htested hcontinues ⊢
  obtain ⟨box, tested⟩ := tested
  dsimp only at htested hcontinues ⊢
  have hemptied : Strand.Moored x.config.stepX { tested with breaks := [] } :=
    htested.take (List.nil_subset _) (List.Subset.refl _)
  have hreclaimed : c.Enlarges (c.reclaim { tested with breaks := [] }) :=
    (Enlarges.refl c).revise (le_max_left _ _) (RangeSet.floor_fold _ _)
  split
  · exact Moored.enlarge ((hc.enlarge hreclaimed).absorbSettled hemptied rfl hcontinues)
      ((Enlarges.refl _).revise le_rfl rfl)
  · next hsome =>
      have hline := (takeLine_spec (c := c.reclaim { tested with breaks := [] }) hpad
        (max c.reach tested.reach)).1
      have hout := hemptied.routeOut hx.stepX (.refl _) rfl
        (fun hnil => hsome (List.isEmpty_iff.mpr hnil))
        (fun p hp => (htested.breaks p hp).widen htested.left
          ((Widens.refl tested).revise le_rfl rfl))
        ((le_max_right c.reach _).trans hline) .out
      have hlined := (hc.enlarge hreclaimed).enlarge (takeLine_enlarges _ (max c.reach tested.reach))
      refine Moored.enlarge (Moored.absorbSettled hlined hout ?_ ?_)
        ((Enlarges.refl _).revise le_rfl rfl)
      · exact (route_quiet _ _ _ _ _).breaks.trans (trunkTo_quiet _ _ _).breaks
      · exact (route_quiet _ _ _ _ _).continues.trans
          ((trunkTo_quiet _ _ _).continues.trans hcontinues)

end Context

structure Fan.Moored (step : ℚ) (f : Fan ℚ) : Prop where
  holder : f.finish.Moored step
  breaks : ∀ p ∈ f.breaks, f.finish.Holds .leave p
  trunk : ∀ j, f.holder.Bound j → 0 ∈ f.holder.group.hull

namespace Context
variable {x : Context ℚ} {step : ℚ} {c d arm body holder : Strand ℚ} {f : Fan ℚ}

theorem openBranch_moored (plan : FanPlan ℚ) (label : String) (f : Fan ℚ) :
    (x.openBranch plan label f).Moored step := by
  have hblank : Strand.Moored step { f.holder.fork with tip := some plan.tap } :=
    moored_blank rfl rfl rfl rfl
  unfold openBranch labelBranch
  split
  · exact hblank
  · exact hblank.enlarge ((takeBand_enlarges _ _ _).trans (draw_enlarges _ (fun _ _ => rfl) rfl))

theorem closeBranch_finish (x : Context ℚ) (plan : FanPlan ℚ) (index : Nat) (arm : Strand ℚ)
    (f : Fan ℚ) : (x.closeBranch plan index arm f).finish =
      Strand.absorb { f.holder with reach := max f.reach arm.reach, lanes := arm.lanes }
        (if plan.takesBreaks then { arm with breaks := [] } else arm) (x.branchDx plan index arm f) := by
  unfold closeBranch Fan.finish
  dsimp only
  generalize (if plan.takesBreaks then { arm with breaks := [] } else arm : Strand ℚ) = rest
  unfold Strand.absorb
  dsimp only
  split <;> rfl

theorem finish_keeps (f : Fan ℚ) : f.finish.Keeps f.holder := ⟨rfl, rfl, rfl, rfl⟩

theorem closeBranch_moored (hf : f.Moored step) (harm : arm.Moored step)
    (hkeeps : f.holder.Keeps arm) (hfloor : arm.lanes.west.floor = f.holder.lanes.west.floor)
    (plan : FanPlan ℚ) (index : Nat) : (x.closeBranch plan index arm f).Moored step := by
  have hfinish := x.closeBranch_finish plan index arm f
  have hsame : f.finish.Keeps arm := (finish_keeps f).trans hkeeps
  have hbase : f.finish.Enlarges
      { f.holder with reach := max f.reach arm.reach, lanes := arm.lanes } :=
    (Enlarges.refl f.finish).revise (le_max_left _ _) hfloor
  have hplace (j : Jump) (h : f.finish.Bound j) : x.branchDx plan index arm f = 0 ∨
      0 ∈ f.finish.group.hull := .inr (hf.trunk j h)
  refine ⟨?_, fun p hp => ?_, fun j hj => ?_⟩
  · rw [hfinish]
    cases plan.takesBreaks
    · exact hf.holder.mergeKept hbase harm hsame hfloor (le_max_right _ _) hplace
    · exact hf.holder.mergeKept hbase (harm.take (List.nil_subset _) (List.Subset.refl _))
        hsame.revise hfloor (le_max_right _ _) hplace
  · rw [hfinish]
    rcases List.mem_append.mp hp with hp | hp
    · exact (hf.breaks p hp).widen hf.holder.left (hbase.widens.trans (absorb_widens _ _ _))
    · cases htakes : plan.takesBreaks with
      | false =>
          rw [htakes] at hp
          cases hp
      | true =>
          rw [htakes] at hp
          obtain ⟨q, hq, rfl⟩ := List.mem_map.mp hp
          have hold : Strand.Holds { arm with breaks := [] } .leave q :=
            (harm.breaks q hq).widen harm.left ((Widens.refl arm).revise le_rfl rfl)
          have hbound := hold.bound.of_kept (c := f.finish) hsame.revise
          exact hold.absorb hf.holder.left (fun _ => hbound) rfl (le_max_right _ _) (hplace _ hbound)
  · have hmem := hf.trunk j (hj.of_kept (x.closeBranch_keeps plan index arm f))
    exact (absorb_widens f.holder _ _).hull hf.holder.left hmem

theorem joinEnds_enlarges (ends : List (ℚ × ℚ)) (holder : Strand ℚ) :
    holder.Enlarges (joinEnds ends holder) := by
  unfold joinEnds
  dsimp only
  refine ((holder.takeLine_enlarges _).trans (foldl_enlarges _ (fun c (p : ℚ × ℚ) => ?_) _ _)).revise
    le_rfl rfl
  split <;> exact c.drawPath_enlarges _

theorem adopt_moored (hc : c.Moored step) (hholder : holder.Moored step)
    (hleave : holder.breaks ≠ [] → holder.Bound .leave → c.Bound .leave)
    (hresume : holder.Bound .resume → c.Bound .resume)
    (hfloor : holder.lanes.west.floor = c.lanes.west.floor) : (adopt holder c).Moored step := by
  unfold adopt
  rw [absorb_revise]
  exact hc.merge ((Enlarges.refl c).revise (le_max_left _ _) hfloor) hholder hleave hresume hfloor
    (le_max_right _ _) fun _ _ => .inl rfl

theorem openSwitch_moored (hmeasure : ∀ text attrs,
    0 ≤ (x.measure text attrs).width ∧ 0 ≤ (x.measure text attrs).height) (hpad : 0 ≤ c.pad)
    (subject : String) : (x.openSwitch subject c).2.2.Moored x.config.stepX ∧
      0 ∈ (x.openSwitch subject c).2.2.group.hull ∧ (x.openSwitch subject c).2.2.breaks = [] := by
  have hblank : c.switchHolder.Moored x.config.stepX := moored_blank rfl rfl rfl rfl
  have htest := takeTest_bears (x := x) hmeasure hpad hblank.left subject le_rfl
    (.refl (c.switchHolder.takeBand (c.switchHolder.startBelow x.config.stepY) _).2)
  unfold openSwitch
  dsimp only
  generalize Strand.drawDecision _ (x.diamond subject) _ = outcome at htest ⊢
  obtain ⟨box, decided⟩ := outcome
  obtain ⟨hdecided, hbears⟩ := htest
  dsimp only at hdecided hbears ⊢
  have hlined : decided.Enlarges ((Strand.takeLine { decided with tip := some box.bottom }
      decided.reach).2.trunkTo (Strand.takeLine { decided with tip := some box.bottom }
        decided.reach).1 false) :=
    ((Enlarges.refl decided).revise le_rfl rfl).trans
      ((takeLine_enlarges _ _).trans (trunkTo_enlarges _ _ _))
  have hall := hdecided.trans hlined
  exact ⟨hblank.enlarge hall, hlined.widens.hull (hdecided.widens.left.trans hblank.left) hbears.trunk,
    hall.renders.breaks⟩

theorem drawTap_enlarges (tap lastDx : ℚ) (holder : Strand ℚ) :
    holder.Enlarges (drawTap tap lastDx holder) := by
  unfold drawTap
  split
  · exact holder.drawPath_enlarges _
  · exact .refl holder

theorem settleEnds_enlarges (ends : List (BranchEnd ℚ)) (holder : Strand ℚ) :
    holder.Enlarges (settleEnds ends holder) := by
  unfold settleEnds
  split
  · exact (Enlarges.refl holder).revise le_rfl rfl
  · exact (Enlarges.refl holder).revise le_rfl rfl
  · exact joinEnds_enlarges _ holder

theorem gatherBreaks_moored (hx : x.Spacious) (hpad : 0 ≤ holder.pad)
    (hholder : holder.Moored x.config.stepX) {breaks : List (ℚ × ℚ)}
    (hbreaks : ∀ p ∈ breaks, holder.Holds .leave p) :
    (x.gatherBreaks breaks holder).Moored x.config.stepX ∧
      (x.gatherBreaks breaks holder).breaks = holder.breaks := by
  unfold gatherBreaks
  dsimp only
  split
  · exact ⟨hholder, rfl⟩
  · next hsome =>
      have hrouted := hholder.routeOut hx.stepX
        ((holder.takeLine_enlarges holder.reach).trans (dropDeadTip_enlarges _)) (dropDeadTip_group _)
        (fun hnil => hsome (List.isEmpty_iff.mpr hnil)) hbreaks
        (takeLine_spec hpad holder.reach).1 .out
      refine ⟨hrouted.enlarge ((Enlarges.refl _).revise le_rfl rfl), ?_⟩
      refine (route_quiet _ _ _ _ _).breaks.trans ((trunkTo_quiet _ _ _).breaks.trans ?_)
      exact (dropDeadTip_quiet _).breaks

theorem closeSwitch_moored (hx : x.Spacious) (hpad : 0 ≤ c.pad) (hc : c.Moored x.config.stepX)
    (hf : f.Moored x.config.stepX) (hkeeps : c.switchHolder.Keeps f.holder)
    (hfloor : f.holder.lanes.west.floor = c.lanes.west.floor) (hnone : f.holder.breaks = [])
    (tap : ℚ) : (x.closeSwitch tap f c).Moored x.config.stepX := by
  have hsettled := (drawTap_enlarges tap f.lastDx f.finish).trans (settleEnds_enlarges f.ends _)
  have hpad' : f.finish.pad = c.pad := hkeeps.pad
  obtain ⟨hgathered, hbreaks⟩ := gatherBreaks_moored hx
    (hpad.trans_eq (hsettled.widens.keeps.pad.trans hpad').symm) (hf.holder.enlarge hsettled)
    fun p hp => (hf.breaks p hp).widen hf.holder.left hsettled.widens
  have hwidens := hsettled.widens.trans (x.gatherBreaks_widens f.breaks _)
  refine adopt_moored hc hgathered (fun hsome => ?_) (fun hb => ?_) (hwidens.floor.trans hfloor)
  · exact absurd (hbreaks.trans (hsettled.renders.breaks.trans hnone)) hsome
  · obtain ⟨d, hd⟩ := hb.of_kept (hkeeps.trans ((Keeps.refl f.holder).revise.trans hwidens.keeps))
    exact ⟨d, hd⟩

theorem openTry_moored (hroot : c.Rooted) (x : Context ℚ) :
    (x.openTry c).2.1.Moored x.config.stepX ∧ (∀ j, c.Bound j → 0 ∈ (x.openTry c).2.1.group.hull) ∧
      (x.openTry c).2.2.Moored x.config.stepX ∧ (x.openTry c).2.2.Rooted := by
  have hblank : c.fork.Moored x.config.stepX := moored_blank rfl rfl rfl rfl
  refine ⟨hblank.enlarge ((takeLine_enlarges _ _).trans (trunkTo_enlarges _ _ _)), fun j hj => ?_,
    moored_blank rfl rfl rfl rfl, openTry_rooted hroot⟩
  obtain ⟨d, hd⟩ := hj
  exact trunkTo_hull (c := (c.fork.takeLine (c.fork.startBelow x.config.stepY)).2) rfl
    (hroot.tip_of_heading hd) _ _

theorem closeFrame_moored (hholder : holder.Moored step) (hbody : body.Moored step)
    (hkeeps : holder.Keeps body) (hfloor : body.lanes.west.floor = holder.lanes.west.floor)
    (top : ℚ) : (x.closeFrame top body holder).holder.Moored step := by
  have hlined := body.takeLine_enlarges (body.reach + x.config.frame.padY)
  unfold closeFrame
  dsimp only
  generalize body.takeLine (body.reach + x.config.frame.padY) = lined at hlined ⊢
  have hclosed : body.Enlarges (if lined.2.alive then lined.2.trunkTo lined.1 false else lined.2) := by
    split
    · exact hlined.trans (trunkTo_enlarges _ _ _)
    · exact hlined
  generalize (if lined.2.alive then lined.2.trunkTo lined.1 false else lined.2 : Strand ℚ) = closed
    at hclosed ⊢
  have hfloor' := hclosed.widens.floor.trans hfloor
  refine Moored.enlarge ?_ (draw_enlarges _ (fun _ _ => rfl) rfl)
  exact hholder.mergeKept ((Enlarges.refl holder).revise (le_max_left _ _) hfloor')
    (hbody.enlarge hclosed) (hkeeps.trans hclosed.widens.keeps) hfloor' (le_max_right _ _)
    fun _ _ => .inl rfl

theorem closeTry_moored (hc : c.Moored step) (hf : f.Moored step) (hkeeps : c.Keeps f.holder)
    (hfloor : f.holder.lanes.west.floor = c.lanes.west.floor) (tap : ℚ) (framed : Framed ℚ) :
    (closeTry tap framed f c).Moored step := by
  have hdrawn := f.finish.drawPath_enlarges
    (((Path.start framed.right framed.bottom).vertical (tap - framed.bottom)).horizontal
      (f.lastDx - framed.right))
  unfold closeTry
  dsimp only
  generalize f.finish.draw _ = drawn at hdrawn ⊢
  generalize framed.ends ++ f.ends.map (fun e => (e.dx, e.tip)) = ends
  have hgrows : f.finish.Enlarges
      (if ends.isEmpty then { drawn with alive := false } else joinEnds ends drawn) := by
    split
    · exact hdrawn.revise le_rfl rfl
    · exact hdrawn.trans (joinEnds_enlarges _ _)
  generalize (if ends.isEmpty then { drawn with alive := false } else joinEnds ends drawn :
    Strand ℚ) = holder at hgrows ⊢
  have hsame := (hkeeps.trans (Keeps.refl f.holder).revise).trans hgrows.widens.keeps
  exact adopt_moored hc (hf.holder.enlarge hgrows) (fun _ hb => hb.of_kept hsame)
    (fun hb => hb.of_kept hsame) (hgrows.widens.floor.trans hfloor)

end Context

/-- Where jumps can be routed, they still can after what is laid out. -/
def Stage.Moors (step : ℚ) : Stage ℚ → Prop
  | .statement _ c c' => 0 ≤ c.pad → c.Rooted → c.Moored step → c'.Moored step
  | .block _ c c' => 0 ≤ c.pad → c.Rooted → c.Moored step → c'.Moored step
  | .branches _ _ _ f f' => 0 ≤ f.holder.pad → f.Moored step → f'.Moored step

namespace Context
variable {x : Context ℚ} {c : Strand ℚ}

theorem arm_moored {block : Block} {opened arm : Strand ℚ} {tip : ℚ} (hx : x.Spacious)
    (hpad : 0 ≤ opened.pad) (hrun : x.Run (.block block (opened.armFrom tip) arm))
    (ih : Stage.Moors x.config.stepX (.block block (opened.armFrom tip) arm)) :
    arm.Moored x.config.stepX ∧ opened.Keeps arm ∧
      arm.lanes.west.floor = opened.lanes.west.floor :=
  ⟨ih hpad (.of_tip rfl) (moored_blank rfl rfl rfl rfl),
    (armFrom_keeps opened tip).trans hrun.keeps, (hrun.widens hx).floor⟩

theorem decisionBelow_moored (hx : x.Spacious) (hmeasure : ∀ text attrs,
    0 ≤ (x.measure text attrs).width ∧ 0 ≤ (x.measure text attrs).height) (hpad : 0 ≤ c.pad)
    (hc : c.Moored x.config.stepX) {test : String} {exits : Exit × Exit} {box : DecisionBox ℚ}
    {block : Block} {opened arm : Strand ℚ} {tip : ℚ}
    (hopen : x.openDecision test exits c = .ok (box, opened))
    (hbound : ∀ e ∈ exitJumps exits, c.Bound e.1)
    (hrun : x.Run (.block block (opened.armFrom tip) arm))
    (ih : Stage.Moors x.config.stepX (.block block (opened.armFrom tip) arm)) :
    (closeBelow arm opened).Moored x.config.stepX := by
  obtain ⟨hopened, hzero⟩ := openDecision_moored hmeasure hpad hc hopen hbound
  obtain ⟨harm, hkeeps, hfloor⟩ := arm_moored hx
    (hpad.trans_eq (x.openDecision_keeps hopen).pad.symm) hrun ih
  exact closeBelow_moored hopened harm hkeeps hfloor hzero

/-- When the handlers of a try are reached, what the body left waiting is held by the frame. -/
theorem openHandlers_moored (hx : x.Spacious) (hpad : 0 ≤ c.pad) (hroot : c.Rooted) {body : Block}
    {holder inner framed opened : Strand ℚ} {top tap : ℚ} {drawn : Framed ℚ}
    (hopen : x.openTry c = (top, holder, inner)) (hframe : x.closeFrame top framed holder = drawn)
    (hline : drawn.holder.takeLine drawn.holder.reach = (tap, opened))
    (hrun : x.Run (.block body inner framed))
    (hbody : Stage.Moors x.config.stepX (.block body inner framed)) :
    opened.Moored x.config.stepX ∧ c.fork.Widens opened ∧
      ∀ j, opened.Bound j → 0 ∈ opened.group.hull := by
  obtain ⟨rfl, rfl, rfl⟩ := openTry_parts hopen
  obtain ⟨hholder, hzero, hinner, hinnerRoot⟩ := openTry_moored hroot x
  have hholderWidens := x.openTry_widens c
  have hkept : c.Keeps (x.openTry c).2.1 := (Keeps.refl c).revise.trans hholderWidens.keeps
  have hinnerKeeps : (x.openTry c).2.1.Keeps (x.openTry c).2.2 := (Keeps.refl _).revise
  have hframed := hbody (hpad.trans_eq (hkept.trans hinnerKeeps).pad.symm) hinnerRoot hinner
  have hfloor : framed.lanes.west.floor = (x.openTry c).2.1.lanes.west.floor :=
    (hrun.widens hx).floor
  have hdrawn := closeFrame_moored (x := x) hholder hframed (hinnerKeeps.trans hrun.keeps) hfloor
    (x.openTry c).1
  have hdrawnWidens := x.closeFrame_widens (x.openTry c).1 hfloor
  rw [hframe] at hdrawn hdrawnWidens
  have hopenedEnlarges := drawn.holder.takeLine_enlarges drawn.holder.reach
  rw [hline] at hopenedEnlarges
  have hwidens := hdrawnWidens.trans hopenedEnlarges.widens
  exact ⟨hdrawn.enlarge hopenedEnlarges, hholderWidens.trans hwidens, fun j hj =>
    hwidens.hull hholder.left (hzero j (hj.of_kept (hkept.trans hwidens.keeps)))⟩

theorem Run.moors (hx : x.Spacious) (hmeasure : ∀ text attrs,
    0 ≤ (x.measure text attrs).width ∧ 0 ≤ (x.measure text attrs).height) {stage : Stage ℚ}
    (h : x.Run stage) : stage.Moors x.config.stepX := by
  induction h with
  | @text content c => exact fun _ _ hc => hc.enlarge (arrangeText_enlarges content c)
  | @pass c =>
      exact fun _ _ hc => hc.enlarge ((Enlarges.refl c).revise (le_add_of_nonneg_right hx.stepY) rfl)
  | jump hjump => exact fun hpad hroot hc => arrangeJump_moored hpad hroot hc hjump
  | @twoJumps test yes no c j d k e box opened hyes hno _ hopen =>
      intro hpad _ hc
      have hbound : ∀ e' ∈ exitJumps (.jump j d, .jump k e), c.Bound e'.1 := by
        intro e' he'
        rcases List.mem_cons.mp he' with rfl | he'
        · exact bound_of_soleJump hyes
        · rw [List.mem_singleton.mp he']
          exact bound_of_soleJump hno
      exact (openDecision_moored hmeasure hpad hc hopen hbound).1.enlarge
        ((Enlarges.refl opened).revise le_rfl rfl)
  | @yesBelow test yes no c k e box opened arm _ hno hopen hrun ih =>
      intro hpad _ hc
      exact decisionBelow_moored hx hmeasure hpad hc hopen
        (fun e' he' => List.mem_singleton.mp he' ▸ bound_of_soleJump hno) hrun ih
  | @noBelow test yes no c j d second box opened arm hyes _ _ hopen hrun ih =>
      intro hpad _ hc
      exact decisionBelow_moored hx hmeasure hpad hc hopen
        (fun e' he' => List.mem_singleton.mp he' ▸ bound_of_soleJump hyes) hrun ih
  | @twoArms test yes no c box opened south east _ _ hopen hsouthRun heastRun ihSouth ihEast =>
      intro hpad _ hc
      obtain ⟨hopened, hzero⟩ := openDecision_moored hmeasure hpad hc hopen nofun
      have hpad' : 0 ≤ opened.pad := hpad.trans_eq (x.openDecision_keeps hopen).pad.symm
      obtain ⟨hsouth, hsouthKeeps, hsouthFloor⟩ := arm_moored hx hpad' hsouthRun ihSouth
      obtain ⟨heast, heastKeeps, heastFloor⟩ := arm_moored hx
        (show 0 ≤ (opened.share south).pad from hpad') heastRun ihEast
      have hbelow := closeBelow_moored hopened hsouth hsouthKeeps hsouthFloor hzero
      have hwidens := closeBelow_widens (c := opened) hsouthFloor
      -- both arms refer to the constructs that the decision refers to
      have hkeeps : (closeBelow south opened).Keeps east :=
        ⟨heastKeeps.breakTarget.trans hwidens.keeps.breakTarget.symm,
          heastKeeps.continueTarget.trans hwidens.keeps.continueTarget.symm,
          heastKeeps.pad.trans hwidens.keeps.pad.symm,
          heastKeeps.debug.trans hwidens.keeps.debug.symm⟩
      exact closeBeside_moored hbelow heast hkeeps heastFloor
        (hwidens.hull hopened.left hzero) box south
  | @whileLoop test body c inner back gathered hbody hback ih =>
      intro hpad _ hc
      have hentered := hc.enlarge (x.enter_enlarges c)
      have hpad' : 0 ≤ (x.enter c).2.pad := hpad.trans_eq (x.enter_keeps c).pad.symm
      obtain ⟨hopened, hexit⟩ := openWhile_moored hx hmeasure hpad' test
      have hopenedWidens := x.openWhile_widens test (x.enter c).2
      have hwidens := hbody.widens hx
      have hpadInner : 0 ≤ (x.openWhile test (x.enter c).2).2.pad :=
        hpad'.trans_eq hopenedWidens.keeps.pad.symm
      have hinner := ih hpadInner (.of_tip rfl) hopened
      have hheld := hexit.widen hopened.left hwidens
      have hresume : inner.Bound .resume :=
        Bound.of_keeps ⟨.west, rfl⟩ (hopenedWidens.keeps.trans hwidens.keeps)
      obtain ⟨hgathered, hnone, hwaiting⟩ := gatherBack_moored
        (hpadInner.trans_eq hwidens.keeps.pad.symm) hinner hresume hheld.trunk hback
      have hfloor : gathered.lanes.west.floor = some (x.enter c).2.reach :=
        (gatherBack_widens hback).floor.trans (hwidens.floor.trans hopenedWidens.floor)
      exact closeWhile_moored hx hpad' hentered hgathered hnone hwaiting
        (hheld.widen hinner.left (gatherBack_widens hback)) hfloor (enter_le_reach hpad)
  | @doLoop body test c inner hbody ih =>
      intro hpad _ hc
      have hentered := hc.enlarge (x.enter_enlarges c)
      have hpad' : 0 ≤ (x.enter c).2.pad := hpad.trans_eq (x.enter_keeps c).pad.symm
      have hwidens := hbody.widens hx
      have hroot : ((x.enter c).2.loopBody .doWhile).Rooted :=
        .of_tip (Option.isSome_iff_exists.mpr ⟨_, trunkTo_tip _ _ _⟩)
      have hinner := ih hpad' hroot (moored_blank rfl rfl rfl rfl)
      exact closeDo_moored hx hmeasure hpad' hentered hwidens.keeps.pad hinner test
        ((enter_le_reach hpad).trans hwidens.reach)
  | @switch subject cases c box tap holder fan hopen hrun ih =>
      intro hpad _ hc
      obtain ⟨hholder, hzero, hnone⟩ :=
        openSwitch_moored hmeasure hpad subject
      have hkeeps := x.openSwitch_keeps subject c
      have hfloor := (x.openSwitch_widens subject c).floor
      rw [hopen] at hholder hzero hnone hkeeps hfloor
      have hfan := ih (hpad.trans_eq hkeeps.pad.symm) ⟨hholder, nofun, fun _ _ => hzero⟩
      have htaken := (hrun.goes x.config.words).taken rfl
      have hempty : fan.holder.breaks = [] :=
        List.isEmpty_iff.mp (htaken.trans (List.isEmpty_iff.mpr hnone))
      exact closeSwitch_moored hx hpad hc hfan (hkeeps.trans hrun.keeps)
        ((hrun.widens hx).1.floor.trans hfloor) hempty tap
  | @tryBlock body handlers c top holder inner framed drawn tap opened fan hopen hbody hframe hline
      hrun ihBody ihHandlers =>
      intro hpad hroot hc
      obtain ⟨hopened, hwidens, hzero⟩ :=
        openHandlers_moored hx hpad hroot hopen hframe hline hbody ihBody
      have hkeeps : c.Keeps opened := (Keeps.refl c).revise.trans hwidens.keeps
      have hfan := ihHandlers (hpad.trans_eq hkeeps.pad.symm) ⟨hopened, nofun, hzero⟩
      exact closeTry_moored hc hfan (hkeeps.trans hrun.keeps)
        ((hrun.widens hx).1.floor.trans hwidens.floor) tap drawn
  | done => exact fun _ _ hc => hc
  | dead => exact fun _ _ hc => hc
  | @next s rest c mid c' alive hs _ ihs ihRest =>
      intro hpad hroot hc
      exact ihRest (hpad.trans_eq hs.keeps.pad.symm)
        (hroot.of_keeps hs.keeps (hs.goes x.config.words alive).tip) (ihs hpad hroot hc)
  | noBranch => exact fun _ hf => hf
  | @branch plan index label block rest f arm f' hblock _ ihBlock ihRest =>
      intro hpad hf
      have hopen := x.openBranch_keeps plan label f
      have hroot : (x.openBranch plan label f).Rooted :=
        .of_tip (openBranch_picture (x := x) plan label f).2.1
      have harm := ihBlock (hpad.trans_eq hopen.pad.symm) hroot (openBranch_moored plan label f)
      have hfloor := (hblock.widens hx).floor.trans
        (x.labelBranch_widens label { f.holder.fork with tip := some plan.tap }).floor
      exact ihRest (hpad.trans_eq (x.closeBranch_keeps plan index arm f).pad.symm)
        (closeBranch_moored hf harm (hopen.trans hblock.keeps) hfloor plan index)

/-- A program on the trunk is laid out with all routes converging. -/
theorem trunk_moored (hx : x.Spacious) (hmeasure : ∀ text attrs,
    0 ≤ (x.measure text attrs).width ∧ 0 ≤ (x.measure text attrs).height) {block : Block}
    (h : x.arrangeAll block x.root = .ok c) : c.Moored x.config.stepX := by
  refine (run_of_arrangeAll h).moors hx hmeasure ?_ (fun hsome => ?_) (moored_blank rfl rfl rfl rfl)
  · have hmargin := hx.margin
    change 0 ≤ x.config.hlineMargin / 2.0
    linarith
  · rcases hsome with hsome | hsome <;> cases hsome

end Context

theorem Sample.statements_program : Block.ofProgram Sample.program =
    [.doLoop [.decision "full" [.jump .leave] []] "not empty", .text "stop"] := by
  simp [Block.ofProgram, Sample.program, Sample.statements, Node.renumber, Block.ofNodes,
    Node.closing?, Block.alternative, Continuation.take?]

/-- Every source that the parser accepts has a layout, and every connector in it that brings points
together converges. The points lie on one side of the target and of the lane, which keeps a step from
all that was drawn before, and the paths that are added to that drawing lead them together: the whole
way from a point farthest from the target, and from every other one a line that ends on the lane
between the heights at which the first path enters and leaves it. -/
theorem layout_routes_converge (config : Config ℚ) (measure : Measure ℚ)
    (hspace : (⟨config, measure⟩ : Context ℚ).Spacious)
    (hmeasure : ∀ text attrs, 0 ≤ (measure text attrs).width ∧ 0 ≤ (measure text attrs).height)
    (source : String) (program : Node) (h : config.lexis.parse source = .ok program) :
    ∃ c, (⟨config, measure⟩ : Context ℚ).trunk program = .ok c ∧
      Layout.ofProgram config measure program = .ok ((⟨config, measure⟩ : Context ℚ).canvas c.group) ∧
      ∀ role points lane target drawing, .route role points lane target drawing ∈ c.journal →
        Converges config.stepX points lane target drawing ∧
        ∀ d : Strand ℚ, d.group = drawing → ∃ paths,
          (d.route role points lane target).group =
            paths.foldl (fun g p => g.push (.path p)) drawing ∧
          Converge points lane target paths := by
  have hprogram := Rules.isProgram_of_parse h
  obtain ⟨l, hl⟩ := Context.ofProgram_ok config measure hprogram
  obtain ⟨c, hc, rfl⟩ := Layout.ofProgram_eq_ok_iff.mp hl
  refine ⟨c, (Context.trunk_eq program).trans hc, hl, fun role points lane target drawing hmem => ?_⟩
  have hroute : Converges config.stepX points lane target drawing :=
    (Context.trunk_moored (x := ⟨config, measure⟩) hspace hmeasure hc).routes _
      (List.mem_filter.mpr ⟨hmem, rfl⟩)
  refine ⟨hroute, fun d hd => ⟨connectors points lane target, ?_, connectors_converge hroute⟩⟩
  rw [route_group, hd]

/-- The loop of the sample is entered again and left by two connectors that converge. -/
theorem layout_routes_converge_sample :
    (⟨Config.classic, fun _ _ => ⟨30, 10⟩⟩ : Context ℚ).Spacious ∧
    (Config.classic : Config ℚ).lexis.parse Sample.source = .ok Sample.program ∧
    (Story.ofProgram Sample.program).connectors.map (·.role) = [.again, .out] ∧
    ∃ c, (⟨Config.classic, fun _ _ => ⟨30, 10⟩⟩ : Context ℚ).trunk Sample.program = .ok c ∧
      Layout.ofProgram Config.classic (fun _ _ => ⟨30, 10⟩ : Measure ℚ) Sample.program =
        .ok ((⟨Config.classic, fun _ _ => ⟨30, 10⟩⟩ : Context ℚ).canvas c.group) ∧
      ∀ role points lane target drawing, .route role points lane target drawing ∈ c.journal →
        Converges (Config.classic : Config ℚ).stepX points lane target drawing ∧
        ∀ d : Strand ℚ, d.group = drawing → ∃ paths,
          (d.route role points lane target).group =
            paths.foldl (fun g p => g.push (.path p)) drawing ∧
          Converge points lane target paths := by
  have hspace := Context.spacious_classic (fun _ _ => ⟨30, 10⟩ : Measure ℚ)
  refine ⟨hspace, Sample.parse_source, ?_, layout_routes_converge Config.classic
    (fun _ _ => ⟨30, 10⟩) hspace (fun _ _ => by norm_num) Sample.source Sample.program
    Sample.parse_source⟩
  rw [Story.ofProgram, Sample.statements_program]
  rfl

end Flowchart
