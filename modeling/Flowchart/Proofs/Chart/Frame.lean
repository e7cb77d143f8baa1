import Flowchart.Proofs.Chart.Run
/-! What drawing leaves alone. Drawing changes what is seen of a strand and its pending jumps, and
laying out a statement changes neither the targets of jumps nor the line margin. -/
namespace Flowchart
variable {α : Type}

namespace Strand

/-- The second strand differs from the first in its drawing, trunk end, journal and jumps only. -/
structure Redraws (c c' : Strand α) : Prop where
  reach : c'.reach = c.reach
  lanes : c'.lanes = c.lanes
  breakTarget : c'.breakTarget = c.breakTarget
  continueTarget : c'.continueTarget = c.continueTarget
  alive : c'.alive = c.alive
  pad : c'.pad = c.pad
  debug : c'.debug = c.debug

/-- The second strand refers to the same constructs and keeps the same margin. -/
structure Keeps (c c' : Strand α) : Prop where
  breakTarget : c'.breakTarget = c.breakTarget
  continueTarget : c'.continueTarget = c.continueTarget
  pad : c'.pad = c.pad
  debug : c'.debug = c.debug

variable {c d e : Strand α}

theorem Redraws.refl (c : Strand α) : c.Redraws c := ⟨rfl, rfl, rfl, rfl, rfl, rfl, rfl⟩

theorem Redraws.trans (h : c.Redraws d) (k : d.Redraws e) : c.Redraws e where
  reach := k.reach.trans h.reach
  lanes := k.lanes.trans h.lanes
  breakTarget := k.breakTarget.trans h.breakTarget
  continueTarget := k.continueTarget.trans h.continueTarget
  alive := k.alive.trans h.alive
  pad := k.pad.trans h.pad
  debug := k.debug.trans h.debug

theorem Redraws.keeps (h : c.Redraws d) : c.Keeps d :=
  ⟨h.breakTarget, h.continueTarget, h.pad, h.debug⟩

theorem Keeps.refl (c : Strand α) : c.Keeps c := ⟨rfl, rfl, rfl, rfl⟩

theorem Keeps.trans (h : c.Keeps d) (k : d.Keeps e) : c.Keeps e where
  breakTarget := k.breakTarget.trans h.breakTarget
  continueTarget := k.continueTarget.trans h.continueTarget
  pad := k.pad.trans h.pad
  debug := k.debug.trans h.debug

theorem Keeps.headingOf (h : c.Keeps d) (j : Jump) : d.headingOf j = c.headingOf j := by
  cases j with
  | leave => simp only [Strand.headingOf, h.breakTarget]
  | resume => simp only [Strand.headingOf, h.continueTarget]

theorem Keeps.revise (h : c.Keeps d) {group : Group α} {reach : α} {tip : Option α}
    {lanes : Lanes α} {breaks continues : List (α × α)} {alive : Bool} {journal : List (Stroke α)} :
    c.Keeps ⟨group, reach, tip, lanes, d.breakTarget, d.continueTarget, breaks, continues, alive,
      d.pad, d.debug, journal⟩ :=
  ⟨h.breakTarget, h.continueTarget, h.pad, h.debug⟩

theorem share_keeps (c arm : Strand α) : c.Keeps (c.share arm) := ⟨rfl, rfl, rfl, rfl⟩

theorem foldl_redraws {β : Type} (f : Strand α → β → Strand α) (hf : ∀ c b, Redraws c (f c b))
    (l : List β) (c : Strand α) : c.Redraws (l.foldl f c) := by
  induction l generalizing c with
  | nil => exact .refl c
  | cons b rest ih => exact (hf c b).trans (ih (f c b))

theorem dropDeadTip_redraws (c : Strand α) : c.Redraws c.dropDeadTip := by
  unfold dropDeadTip
  split <;> exact ⟨rfl, rfl, rfl, rfl, rfl, rfl, rfl⟩

@[simp]
theorem dropDeadTip_lanes (c : Strand α) : c.dropDeadTip.lanes = c.lanes :=
  c.dropDeadTip_redraws.lanes

variable [Scalar α]

theorem draw_redraws (c : Strand α) (s : Shape α) : c.Redraws (c.draw s) :=
  ⟨rfl, rfl, rfl, rfl, rfl, rfl, rfl⟩

theorem trunkTo_redraws (c : Strand α) (y : α) (arrow : Bool) : c.Redraws (c.trunkTo y arrow) := by
  unfold trunkTo
  split <;> exact ⟨rfl, rfl, rfl, rfl, rfl, rfl, rfl⟩

theorem noteJump_redraws (c : Strand α) (j : Jump) (p : α × α) : c.Redraws (c.noteJump j p) := by
  unfold noteJump
  cases j <;> dsimp only <;> split <;> exact ⟨rfl, rfl, rfl, rfl, rfl, rfl, rfl⟩

theorem absorb_redraws (c child : Strand α) (dx : α) : c.Redraws (c.absorb child dx) := by
  unfold absorb
  dsimp only
  split <;> exact ⟨rfl, rfl, rfl, rfl, rfl, rfl, rfl⟩

theorem drawDecision_redraws (c : Strand α) (diamond : Group α) (top : α) :
    c.Redraws (c.drawDecision diamond top).2 :=
  (c.trunkTo_redraws top true).trans (draw_redraws _ _)

theorem labelExit_redraws (c : Strand α) (text : String) (size : Size α) (d : Direction)
    (box : DecisionBox α) : c.Redraws (c.labelExit text size d box) := by
  unfold labelExit
  split
  · exact .refl c
  · cases d <;> exact draw_redraws _ _

theorem route_redraws (c : Strand α) (role : RouteRole) (points : List (α × α)) (lane target : α) :
    c.Redraws (c.route role points lane target) := by
  unfold route
  dsimp only
  split
  · exact ⟨rfl, rfl, rfl, rfl, rfl, rfl, rfl⟩
  · refine .trans ?_ (foldl_redraws _ (fun c p => draw_redraws c _) _ _)
    exact ⟨rfl, rfl, rfl, rfl, rfl, rfl, rfl⟩

@[simp]
theorem draw_lanes (c : Strand α) (s : Shape α) : (c.draw s).lanes = c.lanes := rfl

@[simp]
theorem trunkTo_lanes (c : Strand α) (y : α) (arrow : Bool) : (c.trunkTo y arrow).lanes = c.lanes :=
  (c.trunkTo_redraws y arrow).lanes

@[simp]
theorem absorb_lanes (c child : Strand α) (dx : α) : (c.absorb child dx).lanes = c.lanes :=
  (c.absorb_redraws child dx).lanes

@[simp]
theorem drawDecision_lanes (c : Strand α) (diamond : Group α) (top : α) :
    (c.drawDecision diamond top).2.lanes = c.lanes :=
  (c.drawDecision_redraws diamond top).lanes

@[simp]
theorem labelExit_lanes (c : Strand α) (text : String) (size : Size α) (d : Direction)
    (box : DecisionBox α) : (c.labelExit text size d box).lanes = c.lanes :=
  (c.labelExit_redraws text size d box).lanes

@[simp]
theorem route_lanes (c : Strand α) (role : RouteRole) (points : List (α × α)) (lane target : α) :
    (c.route role points lane target).lanes = c.lanes :=
  (c.route_redraws role points lane target).lanes

@[simp]
theorem takeBand_lanes (c : Strand α) (start size : α) :
    (c.takeBand start size).2.lanes = (c.lanes.placeBand start size).2 := rfl

@[simp]
theorem takeLine_lanes (c : Strand α) (start : α) :
    (c.takeLine start).2.lanes = (c.lanes.placeBand start (2.0 * c.pad)).2 := rfl

@[simp]
theorem reclaim_lanes (c body : Strand α) :
    (c.reclaim body).lanes = c.lanes.fold body.lanes := rfl

theorem takeBand_keeps (c : Strand α) (start size : α) : c.Keeps (c.takeBand start size).2 :=
  ⟨rfl, rfl, rfl, rfl⟩

theorem takeLine_keeps (c : Strand α) (start : α) : c.Keeps (c.takeLine start).2 :=
  ⟨rfl, rfl, rfl, rfl⟩

theorem takeExit_keeps {start size y : α} {east : Bool} (h : c.takeExit start size east = .ok (y, d)) :
    c.Keeps d := by
  unfold takeExit at h
  split at h
  · cases h
    exact ⟨rfl, rfl, rfl, rfl⟩
  · cases h

theorem reclaim_keeps (c body : Strand α) : c.Keeps (c.reclaim body) := ⟨rfl, rfl, rfl, rfl⟩

theorem fork_keeps (c : Strand α) : c.Keeps c.fork := ⟨rfl, rfl, rfl, rfl⟩

theorem armFrom_keeps (c : Strand α) (tip : α) : c.Keeps (c.armFrom tip) := ⟨rfl, rfl, rfl, rfl⟩

end Strand

def Stage.Keeps : Stage α → Prop
  | .statement _ c c' => c.Keeps c'
  | .block _ c c' => c.Keeps c'
  | .branches _ _ _ f f' => f.holder.Keeps f'.holder

namespace Context
open Strand
variable [Scalar α] (x : Context α) {c d : Strand α}

theorem arrangeText_keeps (content : String) (c : Strand α) : c.Keeps (x.arrangeText content c) := by
  unfold arrangeText
  exact ((takeBand_keeps c _ _).trans
    ((trunkTo_redraws _ _ _).trans (draw_redraws _ _)).keeps).revise

theorem arrangeJump_keeps {j : Jump} (h : x.arrangeJump j c = .ok d) : c.Keeps d := by
  obtain ⟨heading, -, h⟩ := exists_of_bind_eq_ok h
  obtain ⟨⟨pos, taken⟩, htake, h⟩ := exists_of_bind_eq_ok h
  cases h
  exact ((takeExit_keeps htake).trans
    ((trunkTo_redraws _ _ _).trans (noteJump_redraws _ _ _)).keeps).revise

theorem takeDecision_keeps {test : String} {exits : Exit × Exit} {pos : α}
    (h : x.takeDecision test exits c = .ok (pos, d)) : c.Keeps d := by
  unfold takeDecision at h
  dsimp only at h
  split at h
  · cases h
    exact takeBand_keeps c _ _
  · exact takeExit_keeps h

theorem claimEast_keeps (exits : Exit × Exit) (middle : α) (c : Strand α) :
    c.Keeps (claimEast exits middle c) := by
  unfold claimEast
  split <;> exact ⟨rfl, rfl, rfl, rfl⟩

theorem drawExits_redraws (test : String) (exits : Exit × Exit) (top : α) (c : Strand α) :
    c.Redraws (x.drawExits test exits top c).2 := by
  unfold drawExits
  dsimp only
  exact (((drawDecision_redraws c _ _).trans (labelExit_redraws _ _ _ _ _)).trans
    (labelExit_redraws _ _ _ _ _)).trans (foldl_redraws _ (fun c _ => noteJump_redraws c _ _) _ _)

theorem openDecision_keeps {test : String} {exits : Exit × Exit} {box : DecisionBox α}
    (h : x.openDecision test exits c = .ok (box, d)) : c.Keeps d := by
  obtain ⟨⟨pos, taken⟩, htake, h⟩ := exists_of_bind_eq_ok h
  cases h
  exact ((x.takeDecision_keeps htake).trans (claimEast_keeps _ _ _)).trans
    (x.drawExits_redraws _ _ _ _).keeps

theorem closeBelow_keeps (arm c : Strand α) : c.Keeps (closeBelow arm c) :=
  (absorb_redraws c arm 0).keeps.revise

theorem closeBeside_keeps (box : DecisionBox α) (below arm c : Strand α) :
    c.Keeps (x.closeBeside box below arm c) := by
  have merged (s : Shape α) (dx : α) : c.Keeps ((c.draw s).absorb arm dx) :=
    ((draw_redraws c s).trans (absorb_redraws _ arm dx)).keeps
  unfold closeBeside
  dsimp only
  split
  · refine Keeps.revise (Keeps.trans ?_ (trunkTo_redraws _ _ _).keeps)
    exact ((merged _ _).revise.trans
      ((takeLine_keeps _ _).trans (draw_redraws _ _).keeps)).revise
  · exact (merged _ _).revise

theorem enter_keeps (c : Strand α) : c.Keeps (x.enter c).2 :=
  (takeLine_keeps c _).trans (trunkTo_redraws _ _ _).keeps

theorem openWhile_keeps (test : String) (c : Strand α) :
    (c.loopBody .whileLoop).Keeps (x.openWhile test c).2 := by
  unfold openWhile
  dsimp only
  exact ((takeBand_keeps _ _ _).trans (((drawDecision_redraws _ _ _).trans
    (labelExit_redraws _ _ _ _ _)).trans (labelExit_redraws _ _ _ _ _)).keeps).revise

theorem openSwitch_keeps (subject : String) (c : Strand α) :
    c.switchHolder.Keeps (x.openSwitch subject c).2.2 := by
  unfold openSwitch
  dsimp only
  refine Keeps.trans ?_ (trunkTo_redraws _ _ _).keeps
  refine Keeps.trans ?_ (takeLine_keeps _ _)
  exact ((takeBand_keeps _ _ _).trans (drawDecision_redraws _ _ _).keeps).revise

theorem openTry_keeps (c : Strand α) : c.Keeps (x.openTry c).2.1 := by
  unfold openTry
  dsimp only
  exact ((fork_keeps c).trans (takeLine_keeps _ _)).trans (trunkTo_redraws _ _ _).keeps

theorem closeFrame_keeps (top : α) (body holder : Strand α) :
    holder.Keeps (x.closeFrame top body holder).holder := by
  unfold closeFrame
  dsimp only
  exact (Keeps.refl holder).revise.trans
    ((absorb_redraws _ _ _).trans (draw_redraws _ _)).keeps

/-- Handlers are laid out on the drawing of the frame, under the settings of the strand around the try. -/
theorem openHandlers_keeps {x : Context α} {c holder inner body opened : Strand α} {top tap : α} {drawn : Framed α}
    (hopen : x.openTry c = (top, holder, inner)) (hframe : x.closeFrame top body holder = drawn)
    (hline : drawn.holder.takeLine drawn.holder.reach = (tap, opened)) :
    c.Keeps opened ∧ opened.group = drawn.holder.group := by
  have hholder := x.openTry_keeps c
  have hdrawn := x.closeFrame_keeps top body holder
  have hlined := takeLine_keeps drawn.holder drawn.holder.reach
  have hsame : (drawn.holder.takeLine drawn.holder.reach).2.group = drawn.holder.group := rfl
  rw [hopen] at hholder
  rw [hframe] at hdrawn
  rw [hline] at hlined hsame
  exact ⟨(hholder.trans hdrawn).trans hlined, hsame⟩

theorem closeWhile_keeps (entry : α) (box : DecisionBox α) (back : List (α × α))
    (body c : Strand α) : c.Keeps (x.closeWhile entry box back body c) := by
  unfold closeWhile
  dsimp only
  exact ((reclaim_keeps c _).trans
    ((takeLine_keeps _ _).trans (absorb_redraws _ _ _).keeps)).revise

theorem gatherOnward_keeps (body : Strand α) : body.Keeps (x.gatherOnward body) := by
  unfold gatherOnward
  dsimp only
  split
  · exact (Keeps.refl body).revise
  · refine Keeps.revise (Keeps.trans ?_ (route_redraws _ _ _ _ _).keeps)
    refine Keeps.trans ?_ ((dropDeadTip_redraws _).trans (trunkTo_redraws _ _ _)).keeps
    exact (Keeps.refl body).revise.trans (takeLine_keeps { body with continues := [] } _)

theorem closeDo_keeps (test : String) (entry : α) (body c : Strand α) :
    c.Keeps (x.closeDo test entry body c) := by
  unfold closeDo
  dsimp only
  split
  · exact ((reclaim_keeps c _).trans (absorb_redraws _ _ _).keeps).revise
  · exact ((reclaim_keeps c _).trans
      ((takeLine_keeps _ _).trans (absorb_redraws _ _ _).keeps)).revise

theorem adopt_keeps (holder c : Strand α) : c.Keeps (adopt holder c) :=
  (absorb_redraws c holder 0).keeps.revise

theorem labelBranch_keeps (text : String) (arm : Strand α) : arm.Keeps (x.labelBranch text arm) := by
  unfold labelBranch
  split
  · exact .refl arm
  · exact (takeBand_keeps arm _ _).trans (draw_redraws _ _).keeps

theorem openBranch_keeps (plan : FanPlan α) (label : String) (f : Fan α) :
    f.holder.Keeps (x.openBranch plan label f) :=
  (armFrom_keeps f.holder plan.tap).trans (x.labelBranch_keeps label _)

theorem closeBranch_keeps (plan : FanPlan α) (index : Nat) (arm : Strand α) (f : Fan α) :
    f.holder.Keeps (x.closeBranch plan index arm f).holder :=
  (absorb_redraws f.holder _ _).keeps.revise

theorem Run.keeps {stage : Stage α} (h : x.Run stage) : stage.Keeps := by
  induction h with
  | text => exact x.arrangeText_keeps _ _
  | pass => exact (Keeps.refl _).revise
  | jump h => exact x.arrangeJump_keeps h
  | twoJumps _ _ _ hopen => exact (x.openDecision_keeps hopen).revise
  | yesBelow _ _ hopen => exact (x.openDecision_keeps hopen).trans (closeBelow_keeps _ _)
  | noBelow _ _ _ hopen => exact (x.openDecision_keeps hopen).trans (closeBelow_keeps _ _)
  | twoArms _ _ hopen =>
      exact ((x.openDecision_keeps hopen).trans (closeBelow_keeps _ _)).trans
        (x.closeBeside_keeps _ _ _ _)
  | whileLoop => exact (x.enter_keeps _).trans (x.closeWhile_keeps _ _ _ _ _)
  | doLoop => exact (x.enter_keeps _).trans (x.closeDo_keeps _ _ _ _)
  | switch => exact adopt_keeps _ _
  | tryBlock => exact adopt_keeps _ _
  | done => exact .refl _
  | dead => exact .refl _
  | next _ _ _ hs hrest => exact hs.trans hrest
  | noBranch => exact .refl _
  | branch _ _ _ hrest => exact (x.closeBranch_keeps _ _ _ _).trans hrest

end Context
end Flowchart
