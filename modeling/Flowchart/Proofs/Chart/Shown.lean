import Flowchart.Proofs.Chart.Progress
import Flowchart.Proofs.Shape.Marks
/-! The picture of a layout. What is laid out after a strand extends the picture of that strand by
the picture of the statements, so a finished chart shows what the recursion on the tree says. -/
namespace Flowchart
variable {α : Type}

namespace Strand

def picture (c : Strand α) : Picture := ⟨c.group.marks, c.alive, !c.breaks.isEmpty⟩

structure Adds (marks : List Mark) (c d : Strand α) : Prop where
  marks : d.group.marks = c.group.marks ++ marks
  alive : d.alive = c.alive
  breaks : d.breaks = c.breaks
  debug : d.debug = c.debug
  tip : c.tip.isSome → d.tip.isSome

variable {ms ns : List Mark} {c d e : Strand α}

theorem Adds.refl (c : Strand α) : c.Adds [] c := ⟨(List.append_nil _).symm, rfl, rfl, rfl, id⟩

theorem Adds.trans (h : c.Adds ms d) (k : d.Adds ns e) : c.Adds (ms ++ ns) e where
  marks := by rw [k.marks, h.marks, List.append_assoc]
  alive := k.alive.trans h.alive
  breaks := k.breaks.trans h.breaks
  debug := k.debug.trans h.debug
  tip := k.tip ∘ h.tip

theorem Adds.quiet (h : c.Adds ms d) (k : d.Adds [] e) : c.Adds ms e := by
  have hk := h.trans k
  rwa [List.append_nil] at hk

theorem Adds.revise (h : c.Adds ms d) {reach : α} {lanes : Lanes α}
    {breakTarget continueTarget : Option JumpTarget} {continues : List (α × α)} {pad : α}
    {journal : List (Stroke α)} :
    c.Adds ms ⟨d.group, reach, d.tip, lanes, breakTarget, continueTarget, d.breaks, continues,
      d.alive, pad, d.debug, journal⟩ :=
  ⟨h.marks, h.alive, h.breaks, h.debug, h.tip⟩

theorem Adds.settle (h : c.Adds ms d) {reach y : α} {lanes : Lanes α}
    {breakTarget continueTarget : Option JumpTarget} {continues : List (α × α)} {pad : α}
    {journal : List (Stroke α)} :
    c.Adds ms ⟨d.group, reach, some y, lanes, breakTarget, continueTarget, d.breaks, continues,
      d.alive, pad, d.debug, journal⟩ :=
  ⟨h.marks, h.alive, h.breaks, h.debug, fun _ => rfl⟩

theorem Adds.picture (h : c.Adds ms d) :
    d.picture = ⟨c.picture.marks ++ ms, c.picture.alive, c.picture.breaks⟩ := by
  unfold Strand.picture
  rw [h.marks, h.alive, h.breaks]

theorem Adds.same (h : c.Adds [] d) : d.picture = c.picture := by
  rw [h.picture, List.append_nil]

theorem foldl_adds {β : Type} (f : Strand α → β → Strand α) (hf : ∀ c b, Adds [] c (f c b))
    (l : List β) (c : Strand α) : c.Adds [] (l.foldl f c) := by
  induction l generalizing c with
  | nil => exact .refl c
  | cons b rest ih => exact (hf c b).trans (ih (f c b))

theorem dropDeadTip_picture (c : Strand α) : c.dropDeadTip.picture = c.picture := by
  unfold dropDeadTip
  split <;> rfl

variable [Scalar α]

theorem draw_adds (c : Strand α) (s : Shape α) : c.Adds s.marks (c.draw s) :=
  ⟨Group.marks_push _ _, rfl, rfl, rfl, id⟩

theorem drawPath_adds (c : Strand α) (p : Path α) : c.Adds [] (c.draw (.path p)) :=
  draw_adds c (.path p)

theorem drawLabel_adds (c : Strand α) (text : String) (size : Size α) (x y : α) :
    c.Adds [.text text true] (c.drawLabel text size x y) :=
  draw_adds c (.text ⟨x, y, size.width, size.height, text, true⟩)

theorem drawGroup_adds (c : Strand α) (g : Group α) (dx dy : α) :
    c.Adds g.marks (c.draw (g.shift dx dy).toShape) := by
  have h := draw_adds c (g.shift dx dy).toShape
  rwa [Group.marks_toShape, Group.marks_shift] at h

theorem trunkTo_adds (c : Strand α) (y : α) (arrow : Bool) : c.Adds [] (c.trunkTo y arrow) := by
  unfold trunkTo
  split
  · exact ⟨Group.marks_push _ _, rfl, rfl, rfl, fun _ => rfl⟩
  · exact ⟨(List.append_nil _).symm, rfl, rfl, rfl, fun _ => rfl⟩

theorem trunkTo_tip (c : Strand α) (y : α) (arrow : Bool) : (c.trunkTo y arrow).tip = some y := by
  unfold trunkTo
  split <;> rfl

theorem takeBand_adds (c : Strand α) (start size : α) : c.Adds [] (c.takeBand start size).2 :=
  (Adds.refl c).revise

theorem takeLine_adds (c : Strand α) (start : α) : c.Adds [] (c.takeLine start).2 :=
  (Adds.refl c).revise

theorem takeExit_adds {start size y : α} {east : Bool}
    (h : c.takeExit start size east = .ok (y, d)) : c.Adds [] d := by
  unfold takeExit at h
  split at h
  · cases h
    exact (Adds.refl c).revise
  · cases h

theorem reclaim_adds (c body : Strand α) : c.Adds [] (c.reclaim body) := (Adds.refl c).revise

theorem labelExit_adds (c : Strand α) (text : String) (size : Size α) (d : Direction)
    (box : DecisionBox α) : c.Adds (Mark.label text) (c.labelExit text size d box) := by
  unfold labelExit Mark.label
  split
  · exact .refl c
  · cases d <;> exact drawLabel_adds _ _ _ _ _

theorem route_adds (c : Strand α) (role : RouteRole) (points : List (α × α)) (lane target : α) :
    c.Adds [] (c.route role points lane target) := by
  unfold route
  dsimp only
  split
  · exact (Adds.refl c).revise
  · refine Adds.quiet ?_ (foldl_adds _ (fun c (p : α × α) => drawPath_adds c (Path.across p.1 p.2 (lane - p.1))) _ _)
    exact (Adds.refl c).revise.quiet (drawPath_adds _ _)

theorem absorb_eq (h : c.debug = false) (child : Strand α) (dx : α) :
    c.absorb child dx =
      { c with
        group := c.group.push (child.group.shift dx 0).toShape
        breaks := c.breaks ++ child.breaks.map fun p => (p.1 + dx, p.2)
        continues := c.continues ++ child.continues.map fun p => (p.1 + dx, p.2)
        journal := c.journal ++ child.journal } := by
  unfold absorb
  simp only [h, Bool.false_and, Bool.false_eq_true, if_false]

theorem noteJump_eq (h : c.debug = false) (j : Jump) (p : α × α) :
    c.noteJump j p =
      match j with
      | .leave => { c with breaks := c.breaks ++ [p] }
      | .resume => { c with continues := c.continues ++ [p] } := by
  unfold noteJump
  cases j <;> simp only [h, Bool.false_eq_true, if_false]

theorem absorb_picture (h : c.debug = false) (child : Strand α) (dx : α) :
    (c.absorb child dx).picture =
      ⟨c.picture.marks ++ child.picture.marks, c.alive, c.picture.breaks || child.picture.breaks⟩ := by
  rw [absorb_eq h]
  unfold picture
  dsimp only
  rw [Group.marks_push, Group.marks_toShape, Group.marks_shift]
  cases c.breaks <;> cases child.breaks <;> rfl

theorem noteJump_picture (h : c.debug = false) (j : Jump) (p : α × α) :
    (c.noteJump j p).picture =
      ⟨c.picture.marks, c.alive, c.picture.breaks || j == .leave⟩ := by
  rw [noteJump_eq h]
  cases j with
  | leave => cases hb : c.breaks <;> simp [picture, hb]
  | resume => simp [picture]

theorem noteJump_tip (h : c.debug = false) (j : Jump) (p : α × α) :
    (c.noteJump j p).tip = c.tip := by
  rw [noteJump_eq h]
  cases j <;> rfl

theorem absorb_tip (h : c.debug = false) (child : Strand α) (dx : α) :
    (c.absorb child dx).tip = c.tip := by
  rw [absorb_eq h]

theorem foldl_noteJump {β : Type} (point : β → α × α) (jumps : List (Jump × β))
    (h : c.debug = false) :
    (jumps.foldl (fun c b => c.noteJump b.1 (point b.2)) c).picture =
        ⟨c.picture.marks, c.alive, c.picture.breaks || jumps.any (·.1 == .leave)⟩ ∧
      (jumps.foldl (fun c b => c.noteJump b.1 (point b.2)) c).tip = c.tip := by
  induction jumps generalizing c with
  | nil => exact ⟨by simp [picture], rfl⟩
  | cons b rest ih =>
      have hdebug : (c.noteJump b.1 (point b.2)).debug = false := by
        rw [(c.noteJump_redraws _ _).debug, h]
      obtain ⟨hpicture, htip⟩ := ih hdebug
      refine ⟨?_, htip.trans (noteJump_tip h _ _)⟩
      rw [List.foldl_cons, hpicture, noteJump_picture h, (c.noteJump_redraws _ _).alive,
        List.any_cons, Bool.or_assoc]

end Strand

/-- What branches that are laid out so far show. Control goes on after those that have an end. -/
def Fan.picture (f : Fan α) : Picture :=
  ⟨f.holder.group.marks, !f.ends.isEmpty, !(f.breaks ++ f.holder.breaks).isEmpty⟩

theorem Picture.followedBy_of_alive {p : Picture} (h : p.alive = true) (q : Picture) :
    p.followedBy q = ⟨p.marks ++ q.marks, q.alive, p.breaks || q.breaks⟩ := if_pos h

theorem Picture.followedBy_of_dead {p : Picture} (h : p.alive = false) (q : Picture) :
    p.followedBy q = p := if_neg (by simp [h])

theorem Picture.followedBy_assoc (p q r : Picture) :
    (p.followedBy q).followedBy r = p.followedBy (q.followedBy r) := by
  unfold followedBy
  cases hp : p.alive <;> cases hq : q.alive <;> simp [hp, hq, List.append_assoc, Bool.or_assoc]

theorem Block.picture_of_soleJump {w : Words} {block : Block} {j : Jump}
    (h : block.soleJump? = some j) : Statement.pictureAll w block = ⟨[], false, j == .leave⟩ := by
  unfold soleJump? at h
  split at h
  · cases h
    rw [Statement.pictureAll, Statement.picture]
    rfl
  · cases h

theorem Strand.Adds.followedBy {ms : List Mark} {c d : Strand α} (h : c.Adds ms d)
    (alive : c.alive = true) : d.picture = c.picture.followedBy (.of ms) := by
  rw [h.picture, Picture.followedBy_of_alive alive]
  simp [Strand.picture, Picture.of, alive]

theorem Strand.picture_of_soleJump {w : Words} {c : Strand α} {block : Block} {j : Jump}
    {d : Direction} (h : c.soleJump block = .ok (some (j, d))) :
    Statement.pictureAll w block = ⟨[], false, j == .leave⟩ := by
  unfold soleJump aim at h
  split at h
  · next k hk =>
      obtain ⟨heading, -, h⟩ := exists_of_bind_eq_ok h
      cases h
      exact Block.picture_of_soleJump hk
  · cases h

namespace Context
open Strand
variable [Scalar α] {x : Context α} {c d : Strand α}

theorem drawDecision_adds (c : Strand α) (test : String) (top : α) :
    c.Adds (Mark.test test) (c.drawDecision (x.diamond test) top).2 := by
  have h := (trunkTo_adds c top true).trans
    (drawGroup_adds _ (x.diamond test) (-(x.diamond test).bounds.width / 2.0) top)
  rwa [show (x.diamond test).marks = Mark.test test from Group.marks_around _ _ _ _] at h

theorem arrangeText_adds (content : String) (c : Strand α) :
    c.Adds [.rect, .text content false] (x.arrangeText content c) := by
  unfold arrangeText
  dsimp only
  generalize hbox : Group.boxAround content (x.captionSize content).width
    (x.captionSize content).height x.config.rect.padX x.config.rect.padY = box
  have hmarks : box.marks = [.rect, .text content false] := by
    rw [← hbox]
    exact Group.marks_around _ _ _ _
  rw [← hmarks]
  exact (((takeBand_adds _ _ _).trans (trunkTo_adds _ _ _)).trans (drawGroup_adds _ _ _ _)).settle

theorem enter_adds (c : Strand α) : c.Adds [] (x.enter c).2 :=
  (takeLine_adds _ _).trans (trunkTo_adds _ _ _)

theorem openWhile_picture (test : String) (c : Strand α) :
    (x.openWhile test c).2.picture = .of (Mark.test test ++ x.config.words.labels) ∧
      (x.openWhile test c).2.debug = c.debug := by
  have h : (c.loopBody .whileLoop).Adds (Mark.test test ++ x.config.words.labels)
      (x.openWhile test c).2 := by
    unfold openWhile
    dsimp only
    exact ((takeBand_adds _ _ _).trans (((drawDecision_adds _ _ _).trans
      ((labelExit_adds _ _ _ _ _).trans (labelExit_adds _ _ _ _ _))))).settle
  exact ⟨h.picture, h.debug⟩

theorem arrangeJump_picture {j : Jump} (h : x.arrangeJump j c = .ok d) (debug : c.debug = false) :
    d.picture = ⟨c.picture.marks, false, c.picture.breaks || j == .leave⟩ ∧ d.tip.isSome := by
  obtain ⟨heading, -, h⟩ := exists_of_bind_eq_ok h
  obtain ⟨⟨pos, taken⟩, htake, h⟩ := exists_of_bind_eq_ok h
  cases h
  have hdrawn := (takeExit_adds htake).quiet (trunkTo_adds taken (pos + taken.pad) false)
  have hdebug := hdrawn.debug.trans debug
  have hnote := noteJump_picture hdebug j (0, pos + taken.pad)
  have htip := noteJump_tip hdebug j (0, pos + taken.pad)
  rw [hdrawn.same] at hnote
  rw [trunkTo_tip] at htip
  exact ⟨congrArg (fun p : Picture => { p with alive := false }) hnote,
    Option.isSome_iff_exists.mpr ⟨_, htip⟩⟩

theorem takeDecision_adds {test : String} {exits : Exit × Exit} {pos : α}
    (h : x.takeDecision test exits c = .ok (pos, d)) : c.Adds [] d := by
  unfold takeDecision at h
  dsimp only at h
  split at h
  · cases h
    exact takeBand_adds _ _ _
  · exact takeExit_adds h

theorem claimEast_adds (exits : Exit × Exit) (middle : α) (c : Strand α) :
    c.Adds [] (claimEast exits middle c) := by
  unfold claimEast
  split
  · exact (Adds.refl c).revise
  · exact .refl c

theorem drawExits_picture (test : String) (exits : Exit × Exit) (top : α)
    (debug : c.debug = false) :
    (x.drawExits test exits top c).2.picture =
        ⟨c.picture.marks ++ (Mark.test test ++ x.config.words.labels), c.alive,
          c.picture.breaks || (exitJumps exits).any (·.1 == .leave)⟩ ∧
      (c.tip.isSome → (x.drawExits test exits top c).2.tip.isSome) := by
  have hdrawn := (drawDecision_adds (x := x) c test top).trans
    ((labelExit_adds _ x.config.yesText x.yesSize exits.1.direction
      (c.drawDecision (x.diamond test) top).1).trans
        (labelExit_adds _ x.config.noText x.noSize exits.2.direction
          (c.drawDecision (x.diamond test) top).1))
  obtain ⟨hpicture, htip⟩ := foldl_noteJump
    (fun (d : Direction) => (if d = .east then (c.drawDecision (x.diamond test) top).1.width / 2.0
        else -(c.drawDecision (x.diamond test) top).1.width / 2.0,
      (c.drawDecision (x.diamond test) top).1.middle))
    (exitJumps exits) (hdrawn.debug.trans debug)
  refine ⟨hpicture.trans ?_, fun h => ?_⟩
  · rw [hdrawn.picture, hdrawn.alive]
    rfl
  · exact htip.symm ▸ hdrawn.tip h

theorem openDecision_picture {test : String} {exits : Exit × Exit} {box : DecisionBox α}
    (h : x.openDecision test exits c = .ok (box, d)) (debug : c.debug = false) :
    d.picture = ⟨c.picture.marks ++ (Mark.test test ++ x.config.words.labels), c.alive,
        c.picture.breaks || (exitJumps exits).any (·.1 == .leave)⟩ ∧
      (c.tip.isSome → d.tip.isSome) := by
  obtain ⟨⟨pos, taken⟩, htake, h⟩ := exists_of_bind_eq_ok h
  cases h
  have htaken := (takeDecision_adds htake).quiet (claimEast_adds exits
    (pos + taken.pad + (x.diamond test).bounds.height / 2.0) taken)
  obtain ⟨hpicture, htip⟩ :=
    drawExits_picture (x := x) test exits (pos + taken.pad) (htaken.debug.trans debug)
  refine ⟨hpicture.trans ?_, htip ∘ htaken.tip⟩
  rw [htaken.same, htaken.alive]

theorem closeBelow_picture (debug : c.debug = false) (arm : Strand α) :
    (closeBelow arm c).picture =
      ⟨c.picture.marks ++ arm.picture.marks, arm.alive,
        c.picture.breaks || arm.picture.breaks⟩ := by
  have h := absorb_picture debug arm 0
  exact congrArg (fun p : Picture => { p with alive := arm.alive }) h

theorem closeBelow_tip (arm : Strand α) (h : c.tip.isSome) :
    (closeBelow arm c).tip.isSome := by
  change (arm.liveTip.or c.tip).isSome
  rw [Option.isSome_or, h, Bool.or_true]

theorem decisionBelow_picture {test : String} {exits : Exit × Exit} {box : DecisionBox α}
    {arm : Strand α} {p : Picture} (h : x.openDecision test exits c = .ok (box, d))
    (debug : c.debug = false) (harm : arm.picture = p) :
    (closeBelow arm d).picture =
        ⟨c.picture.marks ++ (Mark.test test ++ x.config.words.labels) ++ p.marks, p.alive,
          (c.picture.breaks || (exitJumps exits).any (·.1 == .leave)) || p.breaks⟩ ∧
      (c.tip.isSome → (closeBelow arm d).tip.isSome) := by
  obtain ⟨hpicture, htip⟩ := openDecision_picture h debug
  refine ⟨?_, closeBelow_tip arm ∘ htip⟩
  rw [closeBelow_picture ((x.openDecision_keeps h).debug.trans debug), hpicture,
    show arm.alive = arm.picture.alive from rfl, harm]

theorem closeBeside_picture (debug : c.debug = false) (box : DecisionBox α) (below arm : Strand α) :
    (x.closeBeside box below arm c).picture =
        ⟨c.picture.marks ++ arm.picture.marks, c.alive || arm.alive,
          c.picture.breaks || arm.picture.breaks⟩ ∧
      (c.tip.isSome → (x.closeBeside box below arm c).tip.isSome) := by
  generalize hdx : x.eastShift box (max (box.width / 2.0) below.group.extent.maxX) arm = dx
  have hdrawn := drawPath_adds c (Path.across (box.width / 2.0) box.middle (dx - box.width / 2.0))
  have habsorb := absorb_picture (hdrawn.debug.trans debug) arm dx
  have htip := absorb_tip (hdrawn.debug.trans debug) arm dx
  rw [hdrawn.same, hdrawn.alive] at habsorb
  unfold closeBeside
  dsimp only
  rw [hdx]
  generalize (c.draw (.path (Path.across (box.width / 2.0) box.middle
    (dx - box.width / 2.0)))).absorb arm dx = merged at habsorb htip ⊢
  split
  · next halive =>
      -- the trunk goes on from the end of the arm below, which shows no more and no less
      refine ⟨?_, fun _ => ?_⟩
      · have hjoined : ∀ (e : Strand α) (tip : Option α) (y : α), e.picture = merged.picture →
            ({ ({ e with tip }).trunkTo y false with alive := true } : Strand α).picture =
              ⟨merged.picture.marks, true, merged.picture.breaks⟩ := by
          intro e tip y he
          have hend := (trunkTo_adds { e with tip } y false).same.trans he
          exact congrArg (fun p : Picture => { p with alive := true }) hend
        rw [hjoined, habsorb, halive, Bool.or_true]
        exact (((Adds.refl merged).revise.quiet (takeLine_adds _ _)).quiet (drawPath_adds _ _)).same
      · exact Option.isSome_iff_exists.mpr ⟨_, trunkTo_tip _ _ _⟩
  · next hdead =>
      refine ⟨habsorb.trans ?_, fun h => ?_⟩
      · rw [eq_false_of_ne_true hdead, Bool.or_false]
      · exact htip ▸ h

end Context
end Flowchart
