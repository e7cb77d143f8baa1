import Flowchart.Proofs.Chart.Shown
import Flowchart.Proofs.Pseudocode.RoundTrip
/-! A finished chart is faithful: it shows what the picture of its program says, each leaf once and
in the order of the source. -/
namespace Flowchart
variable {α : Type}

theorem isEmpty_append {β : Type} (l m : List β) : (l ++ m).isEmpty = (l.isEmpty && m.isEmpty) := by
  cases l <;> rfl

/-- The second fan shows a picture beside the first, and its holder is as it was. -/
structure Fan.Grows (plan : FanPlan α) (p : Picture) (f g : Fan α) : Prop where
  picture : g.picture = f.picture.beside p
  taken : plan.takesBreaks = true → g.holder.breaks = f.holder.breaks
  left : plan.takesBreaks = false → g.breaks = f.breaks
  alive : g.holder.alive = f.holder.alive
  debug : g.holder.debug = f.holder.debug
  tip : g.holder.tip = f.holder.tip

namespace Fan.Grows
variable {plan : FanPlan α} {p q : Picture} {f g k : Fan α}

theorem refl (plan : FanPlan α) (f : Fan α) : f.Grows plan .nowhere f where
  picture := by simp [Picture.beside, Picture.nowhere]
  taken _ := rfl
  left _ := rfl
  alive := rfl
  debug := rfl
  tip := rfl

theorem trans (h : f.Grows plan p g) (hk : g.Grows plan q k) : f.Grows plan (p.beside q) k where
  picture := by
    rw [hk.picture, h.picture]
    simp [Picture.beside, Bool.or_assoc]
  taken t := (hk.taken t).trans (h.taken t)
  left t := (hk.left t).trans (h.left t)
  alive := hk.alive.trans h.alive
  debug := hk.debug.trans h.debug
  tip := hk.tip.trans h.tip

end Fan.Grows

theorem Context.branchEnd_isEmpty {arm : Strand α} (h : arm.tip.isSome) (index : Nat) (dx : α) :
    (branchEnd index dx arm).isEmpty = !arm.alive := by
  obtain ⟨tip, htip⟩ := Option.isSome_iff_exists.mp h
  unfold branchEnd Strand.liveTip
  rw [htip]
  cases arm.alive <;> rfl

namespace Context
open Strand
variable [Scalar α] {x : Context α} {c d body : Strand α}

theorem gatherBack_adds {back : List (α × α)} (h : x.gatherBack body = .ok (back, d)) :
    body.Adds [] d := by
  unfold gatherBack at h
  dsimp only at h
  split at h
  · obtain ⟨⟨pos, taken⟩, htake, h⟩ := exists_of_bind_eq_ok h
    cases h
    exact (Adds.refl body).revise.quiet ((takeExit_adds htake).quiet (trunkTo_adds _ _ _))
  · cases h
    exact (Adds.refl body).revise

theorem routeBack_adds (back : List (α × α)) (entry : α) (body : Strand α) :
    body.Adds [] (x.routeBack back entry body) := by
  unfold routeBack
  split
  · exact .refl body
  · exact route_adds _ _ _ _ _

theorem closeWhile_picture (debug : c.debug = false) (entry : α) (box : DecisionBox α)
    (back : List (α × α)) (body : Strand α) :
    (x.closeWhile entry box back body c).picture =
        ⟨c.picture.marks ++ body.picture.marks, true, c.picture.breaks⟩ ∧
      (x.closeWhile entry box back body c).tip.isSome := by
  unfold closeWhile
  dsimp only
  generalize hrouted : x.routeBack back entry body = routed
  have hbody : body.group.marks = routed.group.marks := by
    rw [← hrouted]
    simp [(routeBack_adds back entry body).marks]
  generalize hdrained : ({ routed with breaks := [] } : Strand α) = drained
  have hinner := route_adds drained .out ((box.width / 2.0, box.middle) :: routed.breaks)
    (drained.eastLane x.config.stepX) ((c.reclaim drained).takeLine (c.reclaim drained).reach).1
  have houter := (reclaim_adds c drained).quiet (takeLine_adds _ (c.reclaim drained).reach)
  have h := absorb_picture (houter.debug.trans debug) (drained.route .out
    ((box.width / 2.0, box.middle) :: routed.breaks) (drained.eastLane x.config.stepX)
    ((c.reclaim drained).takeLine (c.reclaim drained).reach).1) 0
  rw [hinner.same, houter.same] at h
  refine ⟨(congrArg (fun p : Picture => { p with alive := true }) h).trans ?_, rfl⟩
  rw [← hdrained]
  simp [Strand.picture, hbody]

theorem gatherOnward_marks (body : Strand α) :
    (x.gatherOnward body).picture.marks = body.picture.marks := by
  unfold gatherOnward
  dsimp only
  split
  · rfl
  · refine ((trunkTo_adds _ _ _).quiet (route_adds _ _ _ _ _)).marks.trans ?_
    refine (List.append_nil _).trans (congrArg Picture.marks (dropDeadTip_picture _))

theorem testDo_marks (test : String) (entry : α) (body : Strand α) :
    (x.testDo test entry body).2.picture.marks =
      body.picture.marks ++ (Mark.test test ++ x.config.words.labels) := by
  unfold testDo
  dsimp only
  have h := fun (e : Strand α) (top : α) => (drawDecision_adds (x := x) e test top).trans
    ((labelExit_adds _ x.config.yesText x.yesSize .west (e.drawDecision (x.diamond test) top).1).trans
      (labelExit_adds _ x.config.noText x.noSize .south (e.drawDecision (x.diamond test) top).1))
  refine ((h _ _).quiet (route_adds _ _ _ _ _)).marks.trans ?_
  exact congrArg (· ++ (Mark.test test ++ x.config.words.labels))
    (congrArg Picture.marks (dropDeadTip_picture _))

theorem closeDo_picture (debug : c.debug = false) (test : String) (entry : α) (body : Strand α) :
    (x.closeDo test entry body c).picture =
        ⟨c.picture.marks ++ (body.picture.marks ++ (Mark.test test ++ x.config.words.labels)), true,
          c.picture.breaks⟩ ∧
      (x.closeDo test entry body c).tip.isSome := by
  have hmarks := testDo_marks (x := x) test entry (x.gatherOnward body)
  rw [gatherOnward_marks] at hmarks
  unfold closeDo
  dsimp only
  generalize x.testDo test entry (x.gatherOnward body) = tested at hmarks
  obtain ⟨box, tested⟩ := tested
  generalize hdrained : ({ tested with breaks := [] } : Strand α) = drained
  have hshown : drained.picture =
      ⟨body.picture.marks ++ (Mark.test test ++ x.config.words.labels), tested.alive, false⟩ := by
    rw [← hdrained, ← hmarks]
    rfl
  have houter := reclaim_adds c drained
  split
  · have h := absorb_picture (houter.debug.trans debug) drained 0
    rw [houter.same, hshown, Bool.or_false] at h
    exact ⟨congrArg (fun p : Picture => { p with alive := true }) h, rfl⟩
  · have hline := houter.quiet (takeLine_adds _ (c.reclaim drained).reach)
    have hrouted := fun (y lane : α) =>
      (trunkTo_adds drained y false).quiet (route_adds _ .out tested.breaks lane y)
    have h := absorb_picture (hline.debug.trans debug)
      ((drained.trunkTo ((c.reclaim drained).takeLine (c.reclaim drained).reach).1 false).route .out
        tested.breaks (drained.eastLane x.config.stepX)
        ((c.reclaim drained).takeLine (c.reclaim drained).reach).1) 0
    rw [(hrouted _ _).same, hline.same, hshown, Bool.or_false] at h
    exact ⟨congrArg (fun p : Picture => { p with alive := true }) h, rfl⟩

theorem labelBranch_adds (text : String) (arm : Strand α) :
    arm.Adds (Mark.label text) (x.labelBranch text arm) := by
  unfold labelBranch Mark.label
  split
  · exact .refl arm
  · exact (takeBand_adds _ _ _).trans (drawLabel_adds _ _ _ _ _)

theorem openBranch_picture (plan : FanPlan α) (label : String) (f : Fan α) :
    (x.openBranch plan label f).picture = .of (Mark.label label) ∧
      (x.openBranch plan label f).tip.isSome ∧
      (x.openBranch plan label f).debug = f.holder.debug := by
  have h := labelBranch_adds (x := x) label { f.holder.fork with tip := some plan.tap }
  exact ⟨h.picture, h.tip rfl, h.debug⟩

theorem closeBranch_grows {plan : FanPlan α} {arm : Strand α} {f : Fan α} (index : Nat)
    (harm : arm.tip.isSome) (debug : f.holder.debug = false) :
    f.Grows plan arm.picture (x.closeBranch plan index arm f) := by
  have hend := branchEnd_isEmpty harm index (x.branchDx plan index arm f)
  unfold closeBranch
  dsimp only
  rw [absorb_eq debug]
  generalize x.branchDx plan index arm f = dx at hend ⊢
  cases ht : plan.takesBreaks with
  | true =>
      refine ⟨?_, fun _ => List.append_nil _, fun t => ?_, rfl, rfl, rfl⟩
      · simp only [Fan.picture, Picture.beside, Strand.picture, Group.marks_push,
          Group.marks_toShape, Group.marks_shift, if_true, List.map_nil, isEmpty_append,
          List.isEmpty_map, List.isEmpty_nil, hend, Bool.not_and, Bool.not_not]
        simp [Bool.or_assoc, Bool.or_comm, Bool.or_left_comm]
      · rw [ht] at t
        cases t
  | false =>
      refine ⟨?_, fun t => ?_, fun _ => List.append_nil _, rfl, rfl, rfl⟩
      · simp only [Fan.picture, Picture.beside, Strand.picture, Group.marks_push,
          Group.marks_toShape, Group.marks_shift, Bool.false_eq_true, if_false,
          isEmpty_append, List.isEmpty_map, List.isEmpty_nil, hend, Bool.not_and, Bool.not_not]
        simp [Bool.or_assoc]
      · rw [ht] at t
        cases t

theorem openSwitch_picture (subject : String) (c : Strand α) :
    (x.openSwitch subject c).2.2.picture = .of (Mark.test subject) ∧
      (x.openSwitch subject c).2.2.breaks = [] ∧ (x.openSwitch subject c).2.2.tip.isSome ∧
      (x.openSwitch subject c).2.2.debug = c.debug := by
  have h : c.switchHolder.Adds (Mark.test subject) (x.openSwitch subject c).2.2 := by
    unfold openSwitch
    dsimp only
    exact (((takeBand_adds _ _ _).trans (drawDecision_adds _ _ _)).settle.quiet
      (takeLine_adds _ _)).quiet (trunkTo_adds _ _ _)
  refine ⟨h.picture, h.breaks, ?_, h.debug⟩
  exact Option.isSome_iff_exists.mpr ⟨_, trunkTo_tip _ _ _⟩

theorem joinEnds_adds (ends : List (α × α)) (holder : Strand α) :
    ∃ joined, holder.Adds [] joined ∧ ∃ y, joinEnds ends holder =
      { joined with tip := some y, alive := true } := by
  refine ⟨_, ?_, _, rfl⟩
  refine (takeLine_adds _ _).quiet (foldl_adds _ (fun c p => ?_) _ _)
  dsimp only
  split <;> exact drawPath_adds _ _

theorem drawTap_adds (tap lastDx : α) (holder : Strand α) :
    holder.Adds [] (drawTap tap lastDx holder) := by
  unfold drawTap
  split
  · exact drawPath_adds _ _
  · exact .refl holder

theorem settleEnds_picture (ends : List (BranchEnd α)) {holder : Strand α}
    (alive : holder.alive = true) (tip : holder.tip.isSome) :
    (settleEnds ends holder).picture =
        ⟨holder.picture.marks, !ends.isEmpty, holder.picture.breaks⟩ ∧
      (settleEnds ends holder).tip.isSome ∧ (settleEnds ends holder).debug = holder.debug := by
  unfold settleEnds
  split
  · exact ⟨rfl, tip, rfl⟩
  · refine ⟨?_, rfl, rfl⟩
    simp [picture, alive]
  · next hnil hone =>
      obtain ⟨joined, hjoined, y, heq⟩ := joinEnds_adds (ends.map fun e => (e.dx, e.tip)) holder
      rw [heq]
      refine ⟨?_, rfl, hjoined.debug⟩
      have hends : ends.isEmpty = false := by
        cases ends with
        | nil => exact absurd rfl hnil
        | cons e rest => rfl
      have hsame := congrArg (fun p : Picture => { p with alive := true }) hjoined.same
      rw [hends]
      exact hsame

theorem gatherBreaks_picture (breaks : List (α × α)) (holder : Strand α) :
    (x.gatherBreaks breaks holder).picture =
        ⟨holder.picture.marks, holder.alive || !breaks.isEmpty, holder.picture.breaks⟩ ∧
      (holder.tip.isSome → (x.gatherBreaks breaks holder).tip.isSome) := by
  unfold gatherBreaks
  split
  · next hnone =>
      rw [hnone, Bool.not_true, Bool.or_false]
      exact ⟨rfl, id⟩
  · next hsome =>
      have hdrawn := fun (e : Strand α) (y lane : α) =>
        (trunkTo_adds e.dropDeadTip y false).quiet (route_adds _ .out breaks lane y)
      have hshown := fun (e : Strand α) (y lane : α) =>
        (hdrawn e y lane).same.trans (dropDeadTip_picture e)
      rw [eq_false_of_ne_true hsome, Bool.not_false, Bool.or_true]
      refine ⟨congrArg (fun p : Picture => { p with alive := true }) (hshown _ _ _), fun _ => ?_⟩
      exact (route_adds _ _ _ _ _).tip (Option.isSome_iff_exists.mpr ⟨_, trunkTo_tip _ _ _⟩)

theorem adopt_picture (debug : c.debug = false) (holder : Strand α) :
    (adopt holder c).picture =
      ⟨c.picture.marks ++ holder.picture.marks, holder.alive,
        c.picture.breaks || holder.picture.breaks⟩ := by
  exact congrArg (fun p : Picture => { p with alive := holder.alive }) (absorb_picture debug holder 0)

theorem closeSwitch_picture (debug : c.debug = false) {f : Fan α} (tap : α)
    (alive : f.holder.alive = true) (tip : f.holder.tip.isSome) (taken : f.holder.breaks = []) :
    (x.closeSwitch tap f c).picture =
        ⟨c.picture.marks ++ f.picture.marks, f.picture.alive || f.picture.breaks,
          c.picture.breaks⟩ ∧
      (x.closeSwitch tap f c).tip.isSome := by
  have htap := drawTap_adds tap f.lastDx f.finish
  obtain ⟨hsettled, htip, -⟩ := settleEnds_picture f.ends (htap.alive.trans alive) (htap.tip tip)
  obtain ⟨hgathered, hend⟩ := gatherBreaks_picture (x := x) f.breaks
    (settleEnds f.ends (drawTap tap f.lastDx f.finish))
  have halive : (settleEnds f.ends (drawTap tap f.lastDx f.finish)).alive = !f.ends.isEmpty :=
    congrArg Picture.alive hsettled
  unfold closeSwitch
  refine ⟨?_, hend htip⟩
  have hadopted := adopt_picture debug
    (x.gatherBreaks f.breaks (settleEnds f.ends (drawTap tap f.lastDx f.finish)))
  have hlive := congrArg Picture.alive hgathered
  change Strand.alive _ = _ at hlive
  rw [hgathered, hsettled, htap.same, hlive, halive] at hadopted
  rw [hadopted]
  simp [Fan.picture, Strand.picture, Fan.finish, taken]

theorem openTry_picture (c : Strand α) :
    (x.openTry c).2.1.picture = .blank ∧ (x.openTry c).2.1.tip.isSome ∧
      (x.openTry c).2.1.debug = c.debug ∧ (x.openTry c).2.2.picture = .blank ∧
      (x.openTry c).2.2.debug = c.debug := by
  have h : c.fork.Adds [] (x.openTry c).2.1 := (takeLine_adds _ _).quiet (trunkTo_adds _ _ _)
  refine ⟨h.same, ?_, h.debug, rfl, h.debug⟩
  exact Option.isSome_iff_exists.mpr ⟨_, trunkTo_tip _ _ _⟩

theorem closeFrame_picture {holder : Strand α} (debug : holder.debug = false) (top : α)
    (body : Strand α) :
    (x.closeFrame top body holder).holder.picture =
        ⟨holder.picture.marks ++ body.picture.marks ++ [.frame], holder.alive,
          holder.picture.breaks || body.picture.breaks⟩ ∧
      (x.closeFrame top body holder).ends.isEmpty = !body.alive ∧
      (x.closeFrame top body holder).holder.tip = holder.tip ∧
      (x.closeFrame top body holder).holder.debug = holder.debug := by
  unfold closeFrame
  dsimp only
  have hline := takeLine_adds body (body.reach + x.config.frame.padY)
  generalize body.takeLine (body.reach + x.config.frame.padY) = line at hline
  obtain ⟨bottom, lined⟩ := line
  have hended : body.Adds [] (if lined.alive then lined.trunkTo bottom false else lined) := by
    split
    · exact hline.quiet (trunkTo_adds _ _ _)
    · exact hline
  generalize (if lined.alive then lined.trunkTo bottom false else lined) = ended at hended
  obtain ⟨revised, hrevised⟩ : ∃ revised : Strand α, revised =
      { holder with reach := max holder.reach ended.reach, lanes := ended.lanes } := ⟨_, rfl⟩
  have hkept : revised.picture = holder.picture ∧ revised.debug = holder.debug ∧
      revised.alive = holder.alive ∧ revised.tip = holder.tip := by
    rw [hrevised]
    exact ⟨rfl, rfl, rfl, rfl⟩
  rw [← hrevised]
  have habsorb := absorb_picture (hkept.2.1.trans debug) ended 0
  have htip := absorb_tip (hkept.2.1.trans debug) ended 0
  rw [hended.same, hkept.1, hkept.2.2.1] at habsorb
  refine ⟨?_, ?_, htip.trans hkept.2.2.2, ?_⟩
  · have hframe := (draw_adds (revised.absorb ended 0)
      (.frame ⟨min ended.group.extent.minX 0 - x.config.frame.padX, top,
        max ended.group.extent.maxX 0 + x.config.frame.padX
          - (min ended.group.extent.minX 0 - x.config.frame.padX), bottom - top⟩)).picture
    rw [habsorb] at hframe
    exact hframe
  · rw [hline.alive]
    cases body.alive <;> rfl
  · exact ((revised.absorb_redraws ended 0).debug).trans hkept.2.1

theorem closeTry_picture (debug : c.debug = false) {f : Fan α} (tap : α) (framed : Framed α)
    (tip : f.holder.tip.isSome) (left : f.breaks = []) :
    (closeTry tap framed f c).picture =
        ⟨c.picture.marks ++ f.picture.marks, !framed.ends.isEmpty || f.picture.alive,
          c.picture.breaks || f.picture.breaks⟩ ∧
      (closeTry tap framed f c).tip.isSome := by
  unfold closeTry
  dsimp only
  generalize hbus : Path.horizontal ((Path.start framed.right framed.bottom).vertical
    (tap - framed.bottom)) (f.lastDx - framed.right) = bus
  have hdrawn := drawPath_adds f.finish bus
  have hshown : f.finish.picture = ⟨f.picture.marks, f.finish.alive, f.picture.breaks⟩ := by
    simp [Fan.picture, Strand.picture, Fan.finish, left]
  have hends : (!framed.ends.isEmpty || f.picture.alive) =
      !(framed.ends ++ f.ends.map fun e => (e.dx, e.tip)).isEmpty := by
    rw [isEmpty_append, List.isEmpty_map, Bool.not_and]
    rfl
  have hadopt : ∀ e : Strand α, e.picture.marks = f.picture.marks →
      e.picture.breaks = f.picture.breaks → (adopt e c).picture =
        ⟨c.picture.marks ++ f.picture.marks, e.alive, c.picture.breaks || f.picture.breaks⟩ := by
    intro e hm hb
    rw [adopt_picture debug, hm, hb]
  rw [hends]
  split
  · next hnone =>
      have hsame := hdrawn.same.trans hshown
      have hmarks := congrArg Picture.marks hsame
      have hbreaks := congrArg Picture.breaks hsame
      rw [hnone]
      exact ⟨hadopt _ hmarks hbreaks, hdrawn.tip tip⟩
  · next hsome =>
      obtain ⟨joined, hjoined, y, heq⟩ := joinEnds_adds
        (framed.ends ++ f.ends.map fun e => (e.dx, e.tip)) (f.finish.draw (.path bus))
      have hsame := (hdrawn.quiet hjoined).same.trans hshown
      have hmarks := congrArg Picture.marks hsame
      have hbreaks := congrArg Picture.breaks hsame
      rw [heq, eq_false_of_ne_true hsome]
      exact ⟨hadopt _ hmarks hbreaks, rfl⟩

end Context

def Stage.Shows (w : Words) : Stage α → Prop
  | .statement s c c' => c.debug = false → c.alive = true →
      c'.picture = c.picture.followedBy (s.picture w) ∧ (c.tip.isSome → c'.tip.isSome)
  | .block b c c' => c.debug = false →
      c'.picture = c.picture.followedBy (Statement.pictureAll w b) ∧ (c.tip.isSome → c'.tip.isSome)
  | .branches plan _ bs f f' => f.holder.debug = false →
      f.Grows plan (Statement.pictureBranches w bs) f'

namespace Context
open Strand
variable [Scalar α]

theorem framed_picture {x : Context α} {c holder inner body opened : Strand α} {top tap : α}
    {drawn : Framed α} (debug : c.debug = false) (hopen : x.openTry c = (top, holder, inner))
    (hframe : x.closeFrame top body holder = drawn)
    (hline : drawn.holder.takeLine drawn.holder.reach = (tap, opened)) :
    (Fan.start opened drawn.right).picture =
        ⟨body.picture.marks ++ [.frame], false, body.picture.breaks⟩ ∧
      drawn.ends.isEmpty = (!body.alive) ∧ opened.tip.isSome ∧ opened.debug = false := by
  obtain ⟨hholder, htip, hdebug, -, -⟩ := openTry_picture (x := x) c
  rw [hopen] at hholder htip hdebug
  obtain ⟨hdrawn, hends, hdrawnTip, hdrawnDebug⟩ :=
    closeFrame_picture (x := x) (hdebug.trans debug) top body
  rw [hframe] at hdrawn hends hdrawnTip hdrawnDebug
  have hlined := takeLine_adds drawn.holder drawn.holder.reach
  rw [hline] at hlined
  have hshown := hlined.same.trans hdrawn
  have hmarks := congrArg Picture.marks hshown
  have hbreaks := congrArg Picture.breaks hshown
  simp only [hholder, Picture.blank, List.nil_append, Bool.false_or] at hmarks hbreaks
  exact ⟨Picture.ext hmarks rfl hbreaks, hends, hlined.tip (hdrawnTip ▸ htip),
    hlined.debug.trans (hdrawnDebug.trans (hdebug.trans debug))⟩

theorem Run.shows {x : Context α} {stage : Stage α} (h : x.Run stage) :
    stage.Shows x.config.words := by
  induction h with
  | @text content c =>
      intro debug alive
      have h := arrangeText_adds (x := x) content c
      exact ⟨h.followedBy alive, h.tip⟩
  | @pass c =>
      intro debug alive
      exact ⟨(Picture.followedBy_blank _).symm, id⟩
  | @jump j c c' hjump =>
      intro debug alive
      obtain ⟨hpicture, htip⟩ := arrangeJump_picture hjump debug
      refine ⟨?_, fun _ => htip⟩
      rw [hpicture, Picture.followedBy_of_alive (p := c.picture) alive]
      simp [Statement.picture]
  | @twoJumps test yes no c j d k e box opened hyes hno hde hopen =>
      intro debug alive
      obtain ⟨hpicture, htip⟩ := openDecision_picture hopen debug
      refine ⟨?_, htip⟩
      rw [Picture.followedBy_of_alive (p := c.picture) alive, Statement.picture, picture_of_soleJump hyes,
        picture_of_soleJump hno]
      have hend := congrArg (fun p : Picture => { p with alive := false }) hpicture
      refine Eq.trans hend ?_
      simp [exitJumps, Exit.jump?, Picture.decision, Picture.below, Picture.beside]
  | @yesBelow test yes no c k e box opened arm hyes hno hopen hrun ih =>
      intro debug alive
      have harm : arm.picture = Statement.pictureAll x.config.words yes :=
        (ih ((x.openDecision_keeps hopen).debug.trans debug)).1
      obtain ⟨hpicture, htip⟩ := decisionBelow_picture hopen debug harm
      refine ⟨?_, htip⟩
      rw [hpicture, Picture.followedBy_of_alive (p := c.picture) alive, Statement.picture,
        picture_of_soleJump hno]
      simp [exitJumps, Exit.jump?, Picture.decision, Picture.below, Picture.beside, Bool.or_assoc,
        Bool.or_comm, Bool.or_left_comm]
  | @noBelow test yes no c j d second box opened arm hyes hno hsame hopen hrun ih =>
      intro debug alive
      have harm : arm.picture = Statement.pictureAll x.config.words no :=
        (ih ((x.openDecision_keeps hopen).debug.trans debug)).1
      obtain ⟨hpicture, htip⟩ := decisionBelow_picture hopen debug harm
      refine ⟨?_, htip⟩
      rw [hpicture, Picture.followedBy_of_alive (p := c.picture) alive, Statement.picture,
        picture_of_soleJump hyes]
      simp [exitJumps, Exit.jump?, Picture.decision, Picture.below, Picture.beside, Bool.or_assoc]
  | @twoArms test yes no c box opened south east hyes hno hopen hsouth heast ihs ihe =>
      intro debug alive
      obtain ⟨hpicture, htip⟩ := openDecision_picture hopen debug
      have hdebug := (x.openDecision_keeps hopen).debug.trans debug
      have hyesShown : south.picture = Statement.pictureAll x.config.words yes := (ihs hdebug).1
      have hnoShown : east.picture = Statement.pictureAll x.config.words no := (ihe hdebug).1
      have hbelow := closeBelow_picture hdebug south
      obtain ⟨hbeside, hend⟩ := closeBeside_picture (x := x)
        ((closeBelow_keeps south opened).debug.trans hdebug) box south east
      refine ⟨?_, hend ∘ closeBelow_tip south ∘ htip⟩
      have hlive : (closeBelow south opened).alive = south.picture.alive := rfl
      rw [hbeside, hbelow, hpicture, hlive, show east.alive = east.picture.alive from rfl, hyesShown,
        hnoShown, Picture.followedBy_of_alive (p := c.picture) alive, Statement.picture]
      simp [exitJumps, Exit.jump?, Picture.decision, Picture.below, Picture.beside, Bool.or_assoc]
  | @whileLoop test body c inner back gathered hbody hback ih =>
      intro debug alive
      have henter := enter_adds (x := x) c
      obtain ⟨hopen, hdebug⟩ := openWhile_picture (x := x) test (x.enter c).2
      obtain ⟨hinner, -⟩ := ih (hdebug.trans (henter.debug.trans debug))
      obtain ⟨hclose, htip⟩ := closeWhile_picture (henter.debug.trans debug) (x.enter c).1
        (x.openWhile test (x.enter c).2).1 back gathered
      refine ⟨?_, fun _ => htip⟩
      rw [hclose, henter.same, (gatherBack_adds hback).same, hinner, hopen,
        Picture.followedBy_of_alive (p := c.picture) alive]
      simp [Picture.followedBy, Picture.of, Statement.picture, Picture.whileLoop]
  | @doLoop body test c inner hbody ih =>
      intro debug alive
      have henter := enter_adds (x := x) c
      obtain ⟨hinner, -⟩ := ih (henter.debug.trans debug)
      obtain ⟨hclose, htip⟩ := closeDo_picture (henter.debug.trans debug) test (x.enter c).1 inner
      refine ⟨?_, fun _ => htip⟩
      have hbody : inner.picture = Statement.pictureAll x.config.words body := hinner
      rw [hclose, henter.same, hbody, Picture.followedBy_of_alive (p := c.picture) alive]
      simp [Picture.of, Statement.picture, Picture.doLoop]
  | @switch subject cases c box tap holder fan hopen hcases ih =>
      intro debug alive
      obtain ⟨hpicture, hbreaks, htip, hdebug⟩ := openSwitch_picture (x := x) subject c
      rw [hopen] at hpicture hbreaks htip hdebug
      have hgrows := ih (hdebug.trans debug)
      obtain ⟨hclose, hend⟩ := closeSwitch_picture (x := x) debug tap
        (hgrows.alive.trans (congrArg Picture.alive hpicture)) (hgrows.tip ▸ htip)
        ((hgrows.taken rfl).trans hbreaks)
      refine ⟨?_, fun _ => hend⟩
      have hstart : (Fan.start holder (box.width / 2.0)).picture =
          ⟨Mark.test subject, false, false⟩ := by
        have hmarks := congrArg Picture.marks hpicture
        have hbreaks := congrArg Picture.breaks hpicture
        exact Picture.ext hmarks rfl hbreaks
      rw [hclose, hgrows.picture, hstart, Picture.followedBy_of_alive (p := c.picture) alive]
      simp [Statement.picture, Picture.switch, Picture.beside]
  | @tryBlock body handlers c top holder inner framed drawn tap opened fan hopen hbody hframe hline
      hhandlers ihb ihh =>
      intro debug alive
      obtain ⟨-, -, -, hinner, hinnerDebug⟩ := openTry_picture (x := x) c
      rw [hopen] at hinner hinnerDebug
      have hbodyShown := (ihb (hinnerDebug.trans debug)).1
      rw [hinner, Picture.blank_followedBy] at hbodyShown
      obtain ⟨hstart, hends, hopened, hopenedDebug⟩ := framed_picture debug hopen hframe hline
      have hgrows := ihh hopenedDebug
      obtain ⟨hclose, hend⟩ := closeTry_picture debug tap drawn (hgrows.tip ▸ hopened)
        (hgrows.left rfl)
      refine ⟨?_, fun _ => hend⟩
      rw [hclose, hgrows.picture, hstart, hends, show framed.alive = framed.picture.alive from rfl,
        hbodyShown, Picture.followedBy_of_alive (p := c.picture) alive]
      simp [Statement.picture, Picture.tryBlock, Picture.beside]
  | @done c =>
      intro debug
      exact ⟨(Picture.followedBy_blank _).symm, id⟩
  | @dead b c hdead =>
      intro debug
      exact ⟨(Picture.followedBy_of_dead hdead _).symm, id⟩
  | @next s rest c mid c' alive hs hrest ihs ihr =>
      intro debug
      obtain ⟨hmid, htip⟩ := ihs debug alive
      obtain ⟨hend, htip'⟩ := ihr ((Run.keeps x hs).debug.trans debug)
      refine ⟨?_, htip' ∘ htip⟩
      rw [hend, hmid, Picture.followedBy_assoc, Statement.pictureAll]
  | @noBranch plan index f =>
      intro debug
      exact .refl plan f
  | @branch plan index label block rest f arm f' hblock hrest ihb ihr =>
      intro debug
      obtain ⟨hopen, htip, hdebug⟩ := openBranch_picture (x := x) plan label f
      obtain ⟨harm, hend⟩ := ihb (hdebug.trans debug)
      have hgrows : f.Grows plan arm.picture (x.closeBranch plan index arm f) :=
        closeBranch_grows index (hend htip) debug
      have hall := hgrows.trans (ihr (hgrows.debug.trans debug))
      rw [harm, hopen] at hall
      rw [Statement.pictureBranches]
      exact hall

/-- A layout shows the picture of its program, under every configuration without debug markers. -/
theorem marks_ofProgram {config : Config α} (measure : Measure α) (debug : config.debug = false)
    {program : Node} (hprogram : program.IsProgram) {l : Layout α}
    (h : Layout.ofProgram config measure program = .ok l) :
    l.marks = (Picture.ofProgram config.words program).marks := by
  obtain ⟨statements, rfl, hgrammar⟩ := hprogram
  obtain ⟨c, hc, rfl⟩ := Layout.ofProgram_eq_ok_iff.mp h
  have hroot : (⟨config, measure⟩ : Context α).root.picture = .blank := rfl
  have hshown := ((run_of_arrangeAll hc).shows debug).1
  rw [hroot, Picture.blank_followedBy] at hshown
  have hmarks : ((⟨config, measure⟩ : Context α).canvas c.group).marks = c.group.marks := by
    unfold Layout.marks Layout.leaves
    rw [Shape.filterMap_leaves, Group.marks_toShape]
    rfl
  rw [hmarks]
  exact (congrArg Picture.marks hshown).trans
    (congrArg Picture.marks (agrees_of_grammar config.words hgrammar)).symm

end Context

/-- The chart of a source shows the statements that control reaches, each once and in the order of
the source. -/
theorem layout_shows_picture (config : Config Float32) (measure : Measure Float32)
    (debug : config.debug = false) (source : String) (program : Node)
    (h : config.lexis.parse source = .ok program) :
    ∃ l, Layout.ofProgram config measure program = .ok l ∧
      l.marks = (Picture.ofProgram config.words program).marks := by
  have hprogram := Rules.isProgram_of_parse h
  obtain ⟨l, hl⟩ := Context.ofProgram_ok config measure hprogram
  exact ⟨l, hl, Context.marks_ofProgram measure debug hprogram hl⟩

/-- The test of the loop in the sample comes after that of the decision in its body. -/
theorem layout_shows_sample : (Config.classic : Config Float32).debug = false ∧
    (Config.classic : Config Float32).lexis.parse Sample.source = .ok Sample.program ∧
    ∃ l, Layout.ofProgram (Config.classic : Config Float32) (fun _ _ => ⟨30.0, 10.0⟩)
        Sample.program = .ok l ∧
      l.marks = [.diamond, .text "full" false, .text "Y" true, .text "N" true, .diamond,
        .text "not empty" false, .text "Y" true, .text "N" true, .rect, .text "stop" false] := by
  refine ⟨rfl, Sample.parse_source, ?_⟩
  obtain ⟨l, hl, hmarks⟩ := layout_shows_picture Config.classic (fun _ _ => ⟨30.0, 10.0⟩) rfl
    Sample.source Sample.program Sample.parse_source
  refine ⟨l, hl, hmarks.trans ?_⟩
  rw [show (Config.classic : Config Float32).words = ⟨"Y", "N"⟩ from rfl]
  simp [Picture.ofProgram, Picture.ofBlock, Picture.ofElse, Sample.program, Sample.statements,
    Node.renumber, Picture.decision, Picture.doLoop, Picture.followedBy, Picture.below,
    Picture.beside, Picture.of, Picture.blank, Mark.test, Mark.label, Words.labels]

end Flowchart
