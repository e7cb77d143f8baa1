import Flowchart.Proofs.Chart.Faithful
/-! Where control goes. With or without debug markers, a statement leaves a strand alive exactly if
control falls out of it, and leaves a break pending exactly if control reaches one. -/
namespace Flowchart
variable {α : Type}

namespace Strand

/-- Control goes from the first strand to the second as through a piece of a program: it falls out or
not, more breaks are pending or not, and a trunk that has an end keeps one. -/
structure Goes (p : Picture) (c d : Strand α) : Prop where
  alive : d.alive = p.alive
  breaks : d.breaks.isEmpty = (c.breaks.isEmpty && !p.breaks)
  tip : c.tip.isSome → d.tip.isSome

variable {p q : Picture} {c d e : Strand α}

theorem Goes.trans (h : c.Goes p d) (k : d.Goes q e) :
    c.Goes ⟨[], q.alive, p.breaks || q.breaks⟩ e where
  alive := k.alive
  breaks := by rw [k.breaks, h.breaks, Bool.not_or, Bool.and_assoc]
  tip := k.tip ∘ h.tip

theorem Goes.of_eq (h : c.Goes p d) (halive : p.alive = q.alive) (hbreaks : p.breaks = q.breaks) :
    c.Goes q d :=
  ⟨h.alive.trans halive, h.breaks.trans (by rw [hbreaks]), h.tip⟩

theorem Adds.goes {ms : List Mark} (h : c.Adds ms d) : c.Goes ⟨[], c.alive, false⟩ d where
  alive := h.alive
  breaks := by rw [h.breaks, Bool.not_false, Bool.and_true]
  tip := h.tip

/-- Jumps have a target only where the trunk has an end to leave from. -/
def Rooted (c : Strand α) : Prop :=
  c.breakTarget.isSome ∨ c.continueTarget.isSome → c.tip.isSome

theorem Rooted.of_tip (tip : c.tip.isSome) : c.Rooted := fun _ => tip

theorem Rooted.of_keeps (h : c.Rooted) (keeps : c.Keeps d) (tip : c.tip.isSome → d.tip.isSome) :
    d.Rooted := by
  unfold Rooted
  rw [keeps.breakTarget, keeps.continueTarget]
  exact tip ∘ h

theorem Rooted.tip_of_heading (h : c.Rooted) {j : Jump} {e : Direction}
    (hj : c.headingOf j = .ok e) : c.tip.isSome := by
  refine h ?_
  unfold headingOf at hj
  cases j with
  | leave =>
      dsimp only at hj
      split at hj
      · next htarget => exact .inl (by rw [htarget]; rfl)
      · cases hj
  | resume =>
      dsimp only at hj
      split at hj
      · next htarget => exact .inr (by rw [htarget]; rfl)
      · cases hj

variable [Scalar α]

theorem alive_absorb (c child : Strand α) (dx : α) : (c.absorb child dx).alive = c.alive :=
  (c.absorb_redraws child dx).alive

theorem tip_absorb (c child : Strand α) (dx : α) : (c.absorb child dx).tip = c.tip := by
  unfold absorb
  dsimp only
  split <;> rfl

theorem breaks_absorb (c child : Strand α) (dx : α) :
    (c.absorb child dx).breaks.isEmpty = (c.breaks.isEmpty && child.breaks.isEmpty) := by
  have h : (c.absorb child dx).breaks = c.breaks ++ child.breaks.map fun p => (p.1 + dx, p.2) := by
    unfold absorb
    dsimp only
    split <;> rfl
  rw [h, isEmpty_append, List.isEmpty_map]

theorem noteJump_goes (c : Strand α) (j : Jump) (point : α × α) :
    c.Goes ⟨[], c.alive, j == .leave⟩ (c.noteJump j point) := by
  refine ⟨(c.noteJump_redraws j point).alive, ?_, fun h => ?_⟩
  · unfold noteJump
    cases j <;> dsimp only <;> split <;> simp [draw]
  · unfold noteJump
    cases j <;> dsimp only <;> split <;> exact h

theorem foldl_noteJump_goes {β : Type} (point : β → α × α) (jumps : List (Jump × β))
    (c : Strand α) : c.Goes ⟨[], c.alive, jumps.any (·.1 == .leave)⟩
      (jumps.foldl (fun c b => c.noteJump b.1 (point b.2)) c) := by
  induction jumps generalizing c with
  | nil => exact ⟨rfl, (Bool.and_true _).symm, id⟩
  | cons b rest ih =>
      have hnote := c.noteJump_goes b.1 (point b.2)
      exact (hnote.trans (ih _)).of_eq hnote.alive rfl

end Strand

namespace Context
open Strand
variable [Scalar α] {x : Context α} {c d arm : Strand α} {p : Picture}

theorem arrangeJump_goes {j : Jump} (h : x.arrangeJump j c = .ok d) :
    c.Goes ⟨[], false, j == .leave⟩ d := by
  obtain ⟨heading, -, h⟩ := exists_of_bind_eq_ok h
  obtain ⟨⟨pos, taken⟩, htake, h⟩ := exists_of_bind_eq_ok h
  cases h
  have hdrawn := (takeExit_adds htake).quiet (trunkTo_adds taken (pos + taken.pad) false)
  have hnoted := hdrawn.goes.trans (noteJump_goes _ j (0, pos + taken.pad))
  exact ⟨rfl, hnoted.breaks, hnoted.tip⟩

theorem drawExits_goes (test : String) (exits : Exit × Exit) (top : α) (c : Strand α) :
    c.Goes ⟨[], c.alive, (exitJumps exits).any (·.1 == .leave)⟩ (x.drawExits test exits top c).2 := by
  have hdrawn := (drawDecision_adds (x := x) c test top).trans
    ((labelExit_adds _ x.config.yesText x.yesSize exits.1.direction
      (c.drawDecision (x.diamond test) top).1).trans
        (labelExit_adds _ x.config.noText x.noSize exits.2.direction
          (c.drawDecision (x.diamond test) top).1))
  have hnoted := foldl_noteJump_goes
    (fun (d : Direction) => (if d = .east then (c.drawDecision (x.diamond test) top).1.width / 2.0
        else -(c.drawDecision (x.diamond test) top).1.width / 2.0,
      (c.drawDecision (x.diamond test) top).1.middle)) (exitJumps exits)
  exact (hdrawn.goes.trans (hnoted _)).of_eq hdrawn.alive rfl

theorem openDecision_goes {test : String} {exits : Exit × Exit} {box : DecisionBox α}
    (h : x.openDecision test exits c = .ok (box, d)) :
    c.Goes ⟨[], c.alive, (exitJumps exits).any (·.1 == .leave)⟩ d := by
  obtain ⟨⟨pos, taken⟩, htake, h⟩ := exists_of_bind_eq_ok h
  cases h
  have hclaimed := (takeDecision_adds htake).quiet (claimEast_adds exits
    (pos + taken.pad + (x.diamond test).bounds.height / 2.0) taken)
  exact (hclaimed.goes.trans (drawExits_goes test exits (pos + taken.pad) _)).of_eq hclaimed.alive rfl

theorem closeBelow_goes (c : Strand α) (halive : arm.alive = p.alive)
    (hbreaks : arm.breaks.isEmpty = !p.breaks) : c.Goes p (closeBelow arm c) where
  alive := halive
  breaks := (c.breaks_absorb arm 0).trans (by rw [hbreaks])
  tip := closeBelow_tip arm

theorem closeBeside_goes (c : Strand α) (halive : arm.alive = p.alive)
    (hbreaks : arm.breaks.isEmpty = !p.breaks) (box : DecisionBox α) (below : Strand α) :
    c.Goes ⟨[], c.alive || p.alive, p.breaks⟩ (x.closeBeside box below arm c) := by
  generalize hdx : x.eastShift box (max (box.width / 2.0) below.group.extent.maxX) arm = dx
  have hdrawn := drawPath_adds c (Path.across (box.width / 2.0) box.middle (dx - box.width / 2.0))
  have hmergedAlive := (alive_absorb _ arm dx).trans hdrawn.alive
  have hmergedBreaks := breaks_absorb (c.draw (.path (Path.across (box.width / 2.0) box.middle
    (dx - box.width / 2.0)))) arm dx
  have hmergedTip := tip_absorb (c.draw (.path (Path.across (box.width / 2.0) box.middle
    (dx - box.width / 2.0)))) arm dx
  rw [hdrawn.breaks, hbreaks] at hmergedBreaks
  unfold closeBeside
  dsimp only
  rw [hdx]
  generalize (c.draw (.path (Path.across (box.width / 2.0) box.middle
    (dx - box.width / 2.0)))).absorb arm dx = merged at hmergedAlive hmergedBreaks hmergedTip ⊢
  split
  · next hlive =>
      refine ⟨?_, ?_, fun _ => Option.isSome_iff_exists.mpr ⟨_, trunkTo_tip _ _ _⟩⟩
      · rw [← halive, hlive, Bool.or_true]
      · exact (congrArg List.isEmpty (trunkTo_adds _ _ false).breaks).trans hmergedBreaks
  · next hdead =>
      refine ⟨?_, hmergedBreaks, fun h => ?_⟩
      · rw [← halive, eq_false_of_ne_true hdead, Bool.or_false]
        exact hmergedAlive
      · change Option.isSome merged.tip = true
        rw [hmergedTip]
        exact hdrawn.tip h

theorem closeWhile_goes (entry : α) (box : DecisionBox α) (back : List (α × α))
    (body c : Strand α) : c.Goes ⟨[], true, false⟩ (x.closeWhile entry box back body c) := by
  refine ⟨rfl, ?_, fun _ => rfl⟩
  unfold closeWhile
  dsimp only
  refine (breaks_absorb _ _ 0).trans ?_
  rw [(route_adds _ _ _ _ _).breaks]
  rfl

theorem closeDo_goes (test : String) (entry : α) (body c : Strand α) :
    c.Goes ⟨[], true, false⟩ (x.closeDo test entry body c) := by
  unfold closeDo
  dsimp only
  split
  · exact ⟨rfl, breaks_absorb _ _ 0, fun _ => rfl⟩
  · refine ⟨rfl, (breaks_absorb _ _ 0).trans ?_, fun _ => rfl⟩
    rw [((trunkTo_adds _ _ false).quiet (route_adds _ _ _ _ _)).breaks]
    rfl

end Context

structure Fan.Goes (plan : FanPlan α) (p : Picture) (f g : Fan α) : Prop where
  ends : g.ends.isEmpty = (f.ends.isEmpty && !p.alive)
  breaks : (g.breaks ++ g.holder.breaks).isEmpty =
    ((f.breaks ++ f.holder.breaks).isEmpty && !p.breaks)
  taken : plan.takesBreaks = true → g.holder.breaks.isEmpty = f.holder.breaks.isEmpty
  left : plan.takesBreaks = false → g.breaks = f.breaks
  alive : g.holder.alive = f.holder.alive
  tip : g.holder.tip = f.holder.tip

namespace Fan.Goes
variable {plan : FanPlan α} {p q : Picture} {f g k : Fan α}

theorem refl (plan : FanPlan α) (f : Fan α) : f.Goes plan .nowhere f where
  ends := (Bool.and_true _).symm
  breaks := (Bool.and_true _).symm
  taken _ := rfl
  left _ := rfl
  alive := rfl
  tip := rfl

theorem trans (h : f.Goes plan p g) (hk : g.Goes plan q k) : f.Goes plan (p.beside q) k where
  ends := by rw [hk.ends, h.ends, Picture.beside, Bool.not_or, Bool.and_assoc]
  breaks := by rw [hk.breaks, h.breaks, Picture.beside, Bool.not_or, Bool.and_assoc]
  taken t := (hk.taken t).trans (h.taken t)
  left t := (hk.left t).trans (h.left t)
  alive := hk.alive.trans h.alive
  tip := hk.tip.trans h.tip

end Fan.Goes

namespace Context
open Strand
variable [Scalar α] {x : Context α} {c d arm : Strand α} {p : Picture} {plan : FanPlan α}
  {f g : Fan α}

theorem closeBranch_goes (index : Nat) (halive : arm.alive = p.alive)
    (hbreaks : arm.breaks.isEmpty = !p.breaks) (tip : arm.tip.isSome) :
    f.Goes plan p (x.closeBranch plan index arm f) := by
  have hend := branchEnd_isEmpty tip index (x.branchDx plan index arm f)
  unfold closeBranch
  dsimp only
  generalize x.branchDx plan index arm f = dx at hend ⊢
  refine ⟨?_, ?_, fun t => ?_, fun t => ?_, alive_absorb _ _ dx, tip_absorb _ _ dx⟩
  · rw [isEmpty_append, hend, halive]
  · rw [isEmpty_append, isEmpty_append, isEmpty_append, breaks_absorb]
    cases plan.takesBreaks
    · simp [hbreaks, Bool.and_assoc]
    · simp [hbreaks, Bool.and_comm, Bool.and_assoc]
  · rw [t]
    exact (breaks_absorb _ _ dx).trans (Bool.and_true _)
  · rw [t]
    exact List.append_nil _

theorem adopt_goes {holder : Strand α} (halive : holder.alive = p.alive)
    (hbreaks : holder.breaks.isEmpty = !p.breaks) (tip : holder.tip.isSome) (c : Strand α) :
    c.Goes p (adopt holder c) where
  alive := halive
  breaks := (c.breaks_absorb holder 0).trans (by rw [hbreaks])
  tip _ := tip

theorem joinEnds_goes (ends : List (α × α)) (holder : Strand α) :
    holder.Goes ⟨[], true, false⟩ (joinEnds ends holder) := by
  obtain ⟨joined, hjoined, y, heq⟩ := joinEnds_adds ends holder
  rw [heq]
  exact ⟨rfl, hjoined.goes.breaks, fun _ => rfl⟩

theorem settleEnds_goes (ends : List (BranchEnd α)) {holder : Strand α}
    (alive : holder.alive = true) :
    holder.Goes ⟨[], !ends.isEmpty, false⟩ (settleEnds ends holder) := by
  have hkept : holder.breaks.isEmpty = (holder.breaks.isEmpty && !false) := (Bool.and_true _).symm
  unfold settleEnds
  split
  · exact ⟨rfl, hkept, id⟩
  · exact ⟨alive, hkept, fun _ => rfl⟩
  · next hnil hone =>
      have hends : (!ends.isEmpty) = true := by
        cases ends with
        | nil => exact absurd rfl hnil
        | cons e rest => rfl
      rw [hends]
      exact joinEnds_goes _ holder

theorem gatherBreaks_goes (breaks : List (α × α)) (holder : Strand α) :
    holder.Goes ⟨[], holder.alive || !breaks.isEmpty, false⟩ (x.gatherBreaks breaks holder) := by
  unfold gatherBreaks
  dsimp only
  split
  · next hnone =>
      rw [hnone, Bool.not_true, Bool.or_false]
      exact (Adds.refl holder).goes
  · next hsome =>
      rw [eq_false_of_ne_true hsome, Bool.not_false, Bool.or_true]
      refine ⟨rfl, ?_, fun _ => ?_⟩
      · rw [Bool.not_false, Bool.and_true]
        have hdrop (e : Strand α) : e.dropDeadTip.breaks = e.breaks := by
          unfold dropDeadTip
          split <;> rfl
        exact congrArg List.isEmpty
          (((trunkTo_adds _ _ false).quiet (route_adds _ _ _ _ _)).breaks.trans (hdrop _))
      · exact (route_adds _ _ _ _ _).tip (Option.isSome_iff_exists.mpr ⟨_, trunkTo_tip _ _ _⟩)

theorem closeSwitch_goes (hfan : g.Goes plan p f) (hends : g.ends = []) (hbreaks : g.breaks = [])
    (hholder : g.holder.breaks = []) (alive : g.holder.alive = true) (tip : g.holder.tip.isSome)
    (taken : plan.takesBreaks = true) (tap : α) (c : Strand α) :
    c.Goes ⟨[], p.alive || p.breaks, false⟩ (x.closeSwitch tap f c) := by
  have htap := drawTap_adds tap f.lastDx f.finish
  have hlive := htap.alive.trans (hfan.alive.trans alive)
  have hsettled := settleEnds_goes f.ends hlive
  have hgathered := gatherBreaks_goes (x := x) f.breaks
    (settleEnds f.ends (drawTap tap f.lastDx f.finish))
  have hclear : f.holder.breaks.isEmpty = true := (hfan.taken taken).trans (by rw [hholder]; rfl)
  have hreached : f.breaks.isEmpty = !p.breaks := by
    have h := hfan.breaks
    rw [isEmpty_append, hclear, Bool.and_true, hbreaks, hholder] at h
    exact h
  have hends : (!f.ends.isEmpty) = p.alive := by
    rw [hfan.ends, hends]
    exact Bool.not_not _
  unfold closeSwitch
  refine adopt_goes ?_ ?_ (hgathered.tip (hsettled.tip (htap.tip (hfan.tip ▸ tip)))) c
  · rw [hgathered.alive, hsettled.alive, hends, hreached, Bool.not_not]
  · rw [hgathered.breaks, hsettled.breaks, htap.breaks]
    change ((f.holder.breaks.isEmpty && !false) && !false) = _
    rw [hclear]
    rfl

theorem closeFrame_goes (top : α) (body holder : Strand α) :
    (x.closeFrame top body holder).ends.isEmpty = !body.alive ∧
      (x.closeFrame top body holder).holder.breaks.isEmpty =
        (holder.breaks.isEmpty && body.breaks.isEmpty) ∧
      (x.closeFrame top body holder).holder.tip = holder.tip := by
  unfold closeFrame
  dsimp only
  have hline := takeLine_adds body (body.reach + x.config.frame.padY)
  generalize body.takeLine (body.reach + x.config.frame.padY) = line at hline
  obtain ⟨bottom, lined⟩ := line
  have hended : body.Adds [] (if lined.alive then lined.trunkTo bottom false else lined) := by
    split
    · exact hline.quiet (trunkTo_adds _ _ _)
    · exact hline
  refine ⟨?_, ?_, tip_absorb _ _ _⟩
  · rw [hline.alive]
    cases body.alive <;> rfl
  · exact (breaks_absorb _ _ _).trans (by rw [hended.breaks])

theorem closeTry_goes {framed : Framed α} {body : Picture} (hfan : g.Goes plan p f)
    (hbody : framed.ends.isEmpty = !body.alive) (hbreaks : g.breaks = [])
    (hholder : g.holder.breaks.isEmpty = !body.breaks) (hends : g.ends = [])
    (tip : g.holder.tip.isSome) (left : plan.takesBreaks = false) (tap : α) (c : Strand α) :
    c.Goes ⟨[], body.alive || p.alive, body.breaks || p.breaks⟩ (closeTry tap framed f c) := by
  unfold closeTry
  dsimp only
  generalize hbus : Path.horizontal ((Path.start framed.right framed.bottom).vertical
    (tap - framed.bottom)) (f.lastDx - framed.right) = bus
  have hdrawn := drawPath_adds f.finish bus
  have hall : (framed.ends ++ f.ends.map fun e => (e.dx, e.tip)).isEmpty =
      !(body.alive || p.alive) := by
    rw [isEmpty_append, List.isEmpty_map, hbody, hfan.ends, hends, Bool.not_or]
    rfl
  have hpending : f.finish.breaks.isEmpty = !(body.breaks || p.breaks) := by
    have h := hfan.breaks
    rw [hfan.left left, hbreaks, List.nil_append, List.nil_append, hholder] at h
    rw [Bool.not_or]
    exact h
  have hend := hdrawn.tip (hfan.tip ▸ tip)
  have hclose {e : Strand α} (halive : e.alive = (body.alive || p.alive))
      (hkept : e.breaks.isEmpty = f.finish.breaks.isEmpty) (htip : e.tip.isSome) :=
    adopt_goes (p := ⟨[], body.alive || p.alive, body.breaks || p.breaks⟩) halive
      (hkept.trans hpending) htip c
  rw [hall]
  cases hlive : body.alive || p.alive with
  | false =>
      rw [hlive] at hclose
      exact hclose rfl (congrArg List.isEmpty hdrawn.breaks) hend
  | true =>
      have hjoined := joinEnds_goes (framed.ends ++ f.ends.map fun e => (e.dx, e.tip))
        (f.finish.draw (.path bus))
      rw [hlive] at hclose
      have hkept := hjoined.breaks.trans (Bool.and_true _)
      exact hclose hjoined.alive (hkept.trans (congrArg List.isEmpty hdrawn.breaks)) (hjoined.tip hend)

end Context

def Stage.Goes (w : Words) : Stage α → Prop
  | .statement s c c' => c.alive = true → c.Goes (s.picture w) c'
  | .block b c c' => c.alive = true → c.Goes (Statement.pictureAll w b) c'
  | .branches plan _ bs f f' => f.Goes plan (Statement.pictureBranches w bs) f'

namespace Context
open Strand
variable [Scalar α] {x : Context α} {c d : Strand α}

theorem openTry_rooted (h : c.Rooted) : (x.openTry c).2.2.Rooted := by
  refine h.of_keeps (x.openTry_keeps c).revise fun tip => ?_
  change Option.isSome (if c.tip.isSome then some _ else none) = true
  rw [if_pos tip]
  rfl

theorem Run.eq_of_dead {b : Block} (h : x.Run (.block b c d)) (dead : c.alive = false) : d = c := by
  cases h with
  | done => rfl
  | dead => rfl
  | next alive => rw [dead] at alive; cases alive

theorem Run.goes {stage : Stage α} (h : x.Run stage) (w : Words) : stage.Goes w := by
  induction h with
  | @text content c =>
      intro alive
      exact (arrangeText_adds (x := x) content c).goes.of_eq alive rfl
  | @pass c => exact fun alive => ⟨alive, (Bool.and_true _).symm, id⟩
  | jump hjump => exact fun _ => arrangeJump_goes hjump
  | twoJumps hyes hno _ hopen =>
      intro alive
      have hopened := openDecision_goes hopen
      rw [Statement.picture, picture_of_soleJump hyes, picture_of_soleJump hno]
      refine ⟨rfl, hopened.breaks.trans ?_, hopened.tip⟩
      simp [exitJumps, Exit.jump?, Picture.decision, Picture.below, Picture.beside]
  | yesBelow _ hno hopen _ ih =>
      intro alive
      have harm := ih rfl
      have hclosed := (openDecision_goes hopen).trans (closeBelow_goes _ harm.alive harm.breaks)
      rw [Statement.picture, picture_of_soleJump hno]
      refine hclosed.of_eq ?_ ?_
      · simp [Picture.decision, Picture.below, Picture.beside]
      · simp [exitJumps, Exit.jump?, Picture.decision, Picture.below, Picture.beside, Bool.or_comm]
  | noBelow hyes _ _ hopen _ ih =>
      intro alive
      have harm := ih rfl
      have hclosed := (openDecision_goes hopen).trans (closeBelow_goes _ harm.alive harm.breaks)
      rw [Statement.picture, picture_of_soleJump hyes]
      refine hclosed.of_eq ?_ ?_
      · simp [Picture.decision, Picture.below, Picture.beside]
      · simp [exitJumps, Exit.jump?, Picture.decision, Picture.below, Picture.beside]
  | @twoArms _ _ _ _ box opened south _ _ _ hopen _ _ ihs ihe =>
      intro alive
      have hsouth := ihs rfl
      have heast := ihe rfl
      have hbelow := closeBelow_goes opened hsouth.alive hsouth.breaks
      have hbeside := closeBeside_goes (x := x) (closeBelow south opened) heast.alive heast.breaks box
        south
      rw [Statement.picture]
      refine (((openDecision_goes hopen).trans hbelow).trans hbeside).of_eq ?_ ?_
      · rw [hbelow.alive]
        simp [Picture.decision, Picture.below, Picture.beside]
      · simp [exitJumps, Exit.jump?, Picture.decision, Picture.below, Picture.beside]
  | whileLoop =>
      intro alive
      exact ((enter_adds _).goes.trans (closeWhile_goes _ _ _ _ _)).of_eq rfl rfl
  | doLoop =>
      intro alive
      exact ((enter_adds _).goes.trans (closeDo_goes _ _ _ _)).of_eq rfl rfl
  | @switch subject cases c box tap holder fan hopen _ ih =>
      intro alive
      obtain ⟨hpicture, hbreaks, htip, -⟩ := openSwitch_picture (x := x) subject c
      rw [hopen] at hpicture hbreaks htip
      exact (closeSwitch_goes ih rfl rfl hbreaks (congrArg Picture.alive hpicture) htip rfl tap c).of_eq
        rfl rfl
  | @tryBlock body handlers c top holder inner framed drawn tap opened fan hopen _ hframe hline _ ihb
      ihh =>
      intro alive
      obtain ⟨hholder, htip, -, hinner, -⟩ := openTry_picture (x := x) c
      rw [hopen] at hholder htip hinner
      have hbody := ihb (congrArg Picture.alive hinner)
      obtain ⟨hends, hbreaks, hdrawnTip⟩ := closeFrame_goes (x := x) top framed holder
      rw [hframe] at hends hbreaks hdrawnTip
      have hlined := takeLine_adds drawn.holder drawn.holder.reach
      rw [hline] at hlined
      have hstart : (Fan.start opened drawn.right).holder.breaks.isEmpty =
          !(Statement.pictureAll w body).breaks := by
        have hfresh (e : Strand α) (he : e.picture = .blank) : e.breaks.isEmpty = true := by
          simpa [Strand.picture, Picture.blank] using congrArg Picture.breaks he
        change opened.breaks.isEmpty = _
        rw [hlined.breaks, hbreaks, hbody.breaks, hfresh _ hholder, hfresh _ hinner, Bool.true_and,
          Bool.true_and]
      refine (closeTry_goes ihh (hends.trans (by rw [hbody.alive])) rfl hstart rfl
        (hlined.tip (hdrawnTip ▸ htip)) rfl tap c).of_eq ?_ ?_ <;> rfl
  | done => exact fun alive => ⟨alive, (Bool.and_true _).symm, id⟩
  | dead dead =>
      intro alive
      rw [dead] at alive
      cases alive
  | @next s rest c mid c' alive _ hrest ihs ihr =>
      intro _
      have hmid := ihs alive
      rw [Statement.pictureAll]
      cases hlive : (s.picture w).alive with
      | true =>
          rw [Picture.followedBy_of_alive hlive]
          exact (hmid.trans (ihr (hmid.alive.trans hlive))).of_eq rfl rfl
      | false =>
          rw [Picture.followedBy_of_dead hlive, hrest.eq_of_dead (hmid.alive.trans hlive)]
          exact hmid
  | @noBranch plan _ f => exact .refl plan f
  | @branch plan index label block rest f arm _ _ _ ihb ihr =>
      obtain ⟨hopen, htip, -⟩ := openBranch_picture (x := x) plan label f
      have harm := ihb (congrArg Picture.alive hopen)
      have hfresh : (x.openBranch plan label f).breaks.isEmpty = true := by
        simpa [Strand.picture, Picture.of] using congrArg Picture.breaks hopen
      have hbreaks := harm.breaks
      rw [hfresh, Bool.true_and] at hbreaks
      change f.Goes plan (Statement.pictureBranches w ((label, block) :: rest)) _
      rw [Statement.pictureBranches]
      exact (closeBranch_goes (p := (Statement.pictureAll w block).below (Mark.label label)) index
        harm.alive hbreaks (harm.tip htip)).trans ihr

/-- After a statement that control does not fall out of, a strand is dead. -/
theorem alive_of_arrange {s : Statement} (h : x.arrange s c = .ok d) (alive : c.alive = true)
    (w : Words) : d.alive = (s.picture w).alive :=
  ((run_of_arrange h).goes w alive).alive

end Context
end Flowchart
