import Flowchart.Proofs.Chart.Flow
import Flowchart.Proofs.Shape.Overlay
/-! Drawing with and without debug marks. A strand that is debugged is the strand that is not, but for
marks in its drawing, and stays so whatever is drawn on both. -/
namespace Flowchart

inductive Strand.Overlaid : Strand ℚ → Strand ℚ → Prop
  | intro {c : Strand ℚ} {g : Group ℚ} {journal : List (Stroke ℚ)} : c.debug = false →
      c.group.Overlaid g → Overlaid c { c with group := g, debug := true, journal }

theorem Shape.extent_frame (b : Bounds ℚ) :
    (Shape.frame ⟨b.minX, b.minY, b.width, b.height⟩).extent = b := by
  change (⟨0 + b.minX, 0 + b.minY, b.maxX - b.minX + b.minX, b.maxY - b.minY + b.minY⟩ : Bounds ℚ) = b
  rw [zero_add, zero_add, sub_add_cancel, sub_add_cancel]

namespace Strand.Overlaid
variable {c d arm marked : Strand ℚ}

theorem extent (h : c.Overlaid d) : d.group.extent = c.group.extent := by
  cases h with
  | intro _ hg => exact hg.extent

theorem agree {β : Type} (h : c.Overlaid d) (f : Strand ℚ → β)
    (hf : ∀ c g journal, f { c with group := g, debug := true, journal } = f c) : f d = f c := by
  cases h with
  | intro => exact hf _ _ _

theorem alive (h : c.Overlaid d) : d.alive = c.alive :=
  h.agree (·.alive) fun _ _ _ => rfl

theorem reach (h : c.Overlaid d) : d.reach = c.reach :=
  h.agree (·.reach) fun _ _ _ => rfl

theorem tip (h : c.Overlaid d) : d.tip = c.tip :=
  h.agree (·.tip) fun _ _ _ => rfl

theorem liveTip (h : c.Overlaid d) : d.liveTip = c.liveTip :=
  h.agree (·.liveTip) fun _ _ _ => rfl

theorem lanes (h : c.Overlaid d) : d.lanes = c.lanes :=
  h.agree (·.lanes) fun _ _ _ => rfl

theorem breaks (h : c.Overlaid d) : d.breaks = c.breaks :=
  h.agree (·.breaks) fun _ _ _ => rfl

theorem continues (h : c.Overlaid d) : d.continues = c.continues :=
  h.agree (·.continues) fun _ _ _ => rfl

theorem pad (h : c.Overlaid d) : d.pad = c.pad :=
  h.agree (·.pad) fun _ _ _ => rfl

theorem startBelow (h : c.Overlaid d) (gap : ℚ) : d.startBelow gap = c.startBelow gap :=
  h.agree (·.startBelow gap) fun _ _ _ => rfl

theorem revise (h : c.Overlaid d) (f : Strand ℚ → Strand ℚ)
    (hf : ∀ c g debug journal,
      f { c with group := g, debug, journal } = { f c with group := g, debug, journal }) :
    (f c).Overlaid (f d) := by
  have hself : f c = { f c with group := c.group, debug := c.debug, journal := c.journal } :=
    hf c c.group c.debug c.journal
  have hkept : (f c).debug = c.debug := by rw [hself]
  have hdrawing : (f c).group = c.group := by rw [hself]
  cases h with
  | @intro g journal hdebug hg =>
      rw [hf c g true journal]
      exact .intro (hkept.trans hdebug) (hdrawing.symm ▸ hg)

theorem setTip (h : c.Overlaid d) (tip : Option ℚ) : Overlaid { c with tip } { d with tip } :=
  h.revise (fun c => { c with tip }) fun _ _ _ _ => rfl

theorem setAlive (h : c.Overlaid d) (alive : Bool) : Overlaid { c with alive } { d with alive } :=
  h.revise (fun c => { c with alive }) fun _ _ _ _ => rfl

theorem setReach (h : c.Overlaid d) (reach : ℚ) : Overlaid { c with reach } { d with reach } :=
  h.revise (fun c => { c with reach }) fun _ _ _ _ => rfl

theorem setLanes (h : c.Overlaid d) (lanes : Lanes ℚ) : Overlaid { c with lanes } { d with lanes } :=
  h.revise (fun c => { c with lanes }) fun _ _ _ _ => rfl

theorem setBreaks (h : c.Overlaid d) (breaks : List (ℚ × ℚ)) :
    Overlaid { c with breaks } { d with breaks } :=
  h.revise (fun c => { c with breaks }) fun _ _ _ _ => rfl

theorem setContinues (h : c.Overlaid d) (continues : List (ℚ × ℚ)) :
    Overlaid { c with continues } { d with continues } :=
  h.revise (fun c => { c with continues }) fun _ _ _ _ => rfl

theorem draw (h : c.Overlaid d) {s : Shape ℚ} (hs : s.IsLeaf) (hshown : s.isPlaceholder = false) :
    (c.draw s).Overlaid (d.draw s) := by
  cases h with
  | intro hdebug hg => exact .intro (c := c.draw s) hdebug (hg.leaf hs hshown)

theorem drawPath (h : c.Overlaid d) (p : Path ℚ) :
    (c.draw (.path p)).Overlaid (d.draw (.path p)) :=
  h.draw (fun _ _ => rfl) rfl

theorem drawLabel (h : c.Overlaid d) (text : String) (size : Size ℚ) (x y : ℚ) :
    (c.drawLabel text size x y).Overlaid (d.drawLabel text size x y) :=
  h.draw (fun _ _ => rfl) rfl

theorem drawGroup (h : c.Overlaid d) (g : Group ℚ) :
    (c.draw g.toShape).Overlaid (d.draw g.toShape) := by
  cases h with
  | intro hdebug hg => exact .intro (c := c.draw g.toShape) hdebug (hg.group (.refl g))

theorem foldl {β : Type} {f : Strand ℚ → β → Strand ℚ}
    (hf : ∀ c d b, Overlaid c d → Overlaid (f c b) (f d b)) (l : List β) (h : c.Overlaid d) :
    (l.foldl f c).Overlaid (l.foldl f d) := by
  induction l generalizing c d with
  | nil => exact h
  | cons b rest ih => exact ih (hf c d b h)

theorem trunkTo (h : c.Overlaid d) (y : ℚ) (arrow : Bool) :
    (c.trunkTo y arrow).Overlaid (d.trunkTo y arrow) := by
  cases h with
  | intro hdebug hg =>
      unfold Strand.trunkTo
      cases c.tip with
      | none => exact .intro (c := { c with tip := some y }) hdebug hg
      | some tip =>
          exact .intro (c := { c.draw _ with tip := some y, journal := _ }) hdebug
            (hg.leaf (fun _ _ => rfl) rfl)

theorem dropDeadTip (h : c.Overlaid d) : c.dropDeadTip.Overlaid d.dropDeadTip := by
  refine h.revise Strand.dropDeadTip fun _ _ _ _ => ?_
  unfold Strand.dropDeadTip
  split <;> rfl

theorem noteJump (h : c.Overlaid d) {p : ℚ × ℚ} (hp : c.group.Covers p) (j : Jump) :
    (c.noteJump j p).Overlaid (d.noteJump j p) := by
  cases h with
  | intro hdebug hg =>
      rw [noteJump_eq hdebug]
      cases j with
      | leave => exact .intro (c := { c with breaks := c.breaks ++ [p] }) hdebug (hg.marker hp)
      | resume => exact .intro (c := { c with continues := c.continues ++ [p] }) hdebug (hg.marker hp)

theorem absorb (h : c.Overlaid d) (harm : arm.Overlaid marked) (dx : ℚ) :
    (c.absorb arm dx).Overlaid (d.absorb marked dx) := by
  cases h with
  | intro hdebug hg =>
  cases harm with
  | intro _ hk =>
      have hmoved := hk.shift dx 0
      have hpushed := hg.group hmoved
      rw [absorb_eq hdebug]
      unfold Strand.absorb
      simp only [Bool.true_and]
      split
      · refine .intro (c := { c with group := _, breaks := _, continues := _, journal := _ }) hdebug
          (hpushed.mark .frame (Group.isEmpty_push _ rfl) ?_)
        rw [hmoved.extent, Shape.extent_frame]
        exact Group.inside_push _ (arm.group.shift dx 0).toShape
      · exact .intro (c := { c with group := _, breaks := _, continues := _, journal := _ }) hdebug
          hpushed

theorem takeBand (h : c.Overlaid d) (start size : ℚ) :
    (c.takeBand start size).2.Overlaid (d.takeBand start size).2 :=
  h.revise (fun c => (c.takeBand start size).2) fun _ _ _ _ => rfl

theorem takeLine (h : c.Overlaid d) (start : ℚ) :
    (c.takeLine start).2.Overlaid (d.takeLine start).2 :=
  h.revise (fun c => (c.takeLine start).2) fun _ _ _ _ => rfl

theorem band (h : c.Overlaid d) (start size : ℚ) :
    (d.takeBand start size).1 = (c.takeBand start size).1 :=
  h.agree (fun c => (c.takeBand start size).1) fun _ _ _ => rfl

theorem line (h : c.Overlaid d) (start : ℚ) : (d.takeLine start).1 = (c.takeLine start).1 :=
  h.agree (fun c => (c.takeLine start).1) fun _ _ _ => rfl

theorem lineBelow (h : c.Overlaid d) : (d.takeLine d.reach).1 = (c.takeLine c.reach).1 ∧
    ((c.takeLine c.reach).2.trunkTo (c.takeLine c.reach).1 false).Overlaid
      ((d.takeLine d.reach).2.trunkTo (d.takeLine d.reach).1 false) := by
  rw [h.reach, h.line]
  exact ⟨rfl, (h.takeLine _).trunkTo _ false⟩

theorem takeExit (h : c.Overlaid d) {start size y : ℚ} {east : Bool} {e : Strand ℚ}
    (htake : c.takeExit start size east = .ok (y, e)) :
    ∃ f, d.takeExit start size east = .ok (y, f) ∧ e.Overlaid f := by
  cases h with
  | intro hdebug hg =>
      unfold Strand.takeExit at htake ⊢
      dsimp only
      split at htake
      · next pos lanes hplace =>
          cases htake
          exact ⟨_, rfl, .intro (c := { c with lanes, reach := _ }) hdebug hg⟩
      · cases htake

theorem reclaim (h : c.Overlaid d) (hbody : arm.Overlaid marked) :
    (c.reclaim arm).Overlaid (d.reclaim marked) := by
  cases h with
  | intro hdebug hg =>
  cases hbody with
  | intro => exact .intro (c := c.reclaim arm) hdebug hg

theorem fork (h : c.Overlaid d) : c.fork.Overlaid d.fork := by
  cases h with
  | intro hdebug _ => exact .intro (c := c.fork) hdebug (.refl _)

theorem armFrom (h : c.Overlaid d) (tip : ℚ) : (c.armFrom tip).Overlaid (d.armFrom tip) :=
  h.fork.setTip (some tip)

theorem loopBody (h : c.Overlaid d) (kind : JumpTarget) :
    (c.loopBody kind).Overlaid (d.loopBody kind) := by
  cases h with
  | intro hdebug _ => exact .intro (c := c.loopBody kind) hdebug (.refl _)

theorem switchHolder (h : c.Overlaid d) : c.switchHolder.Overlaid d.switchHolder := by
  cases h with
  | intro hdebug _ => exact .intro (c := c.switchHolder) hdebug (.refl _)

theorem share (h : c.Overlaid d) (harm : arm.Overlaid marked) :
    (c.share arm).Overlaid (d.share marked) := by
  cases h with
  | intro hdebug hg =>
  cases harm with
  | intro => exact .intro (c := c.share arm) hdebug hg

theorem headingOf (h : c.Overlaid d) (j : Jump) : d.headingOf j = c.headingOf j :=
  h.agree (·.headingOf j) fun _ _ _ => rfl

theorem soleJump (h : c.Overlaid d) (block : Block) : d.soleJump block = c.soleJump block :=
  h.agree (·.soleJump block) fun _ _ _ => rfl

theorem drawDecision (h : c.Overlaid d) (diamond : Group ℚ) (top : ℚ) :
    (c.drawDecision diamond top).2.Overlaid (d.drawDecision diamond top).2 :=
  (h.trunkTo top true).drawGroup _

theorem labelExit (h : c.Overlaid d) (text : String) (size : Size ℚ) (direction : Direction)
    (box : DecisionBox ℚ) :
    (c.labelExit text size direction box).Overlaid (d.labelExit text size direction box) := by
  unfold Strand.labelExit
  split
  · exact h
  · cases direction <;> exact h.drawLabel _ _ _ _

theorem westLane (h : c.Overlaid d) (step : ℚ) : d.westLane step = c.westLane step := by
  unfold Strand.westLane
  rw [h.extent]

theorem eastLane (h : c.Overlaid d) (step : ℚ) : d.eastLane step = c.eastLane step := by
  unfold Strand.eastLane
  rw [h.extent]

theorem route (h : c.Overlaid d) (role : RouteRole) (points : List (ℚ × ℚ)) (lane target : ℚ) :
    (c.route role points lane target).Overlaid (d.route role points lane target) := by
  have hnoted : Overlaid
      { c with journal := c.journal ++ [.route role points lane target c.group] }
      { d with journal := d.journal ++ [.route role points lane target d.group] } := by
    cases h with
    | intro hdebug hg => exact .intro (c := { c with journal := _ }) hdebug hg
  unfold Strand.route
  dsimp only
  split
  · exact hnoted
  · exact foldl (fun c d (p : ℚ × ℚ) hcd => hcd.drawPath (Path.across p.1 p.2 (lane - p.1))) _
      (hnoted.drawPath _)

end Strand.Overlaid

theorem Strand.trunkTo_covers {c : Strand ℚ} (h : c.tip.isSome) (y : ℚ) (arrow : Bool) :
    (c.trunkTo y arrow).group.Covers (0, y) := by
  obtain ⟨tip, htip⟩ := Option.isSome_iff_exists.mp h
  have hreach := Path.down_reaches 0 tip (y - tip)
  rw [add_sub_cancel] at hreach
  unfold trunkTo
  rw [htip]
  cases arrow <;> exact Group.covers_push rfl hreach _

namespace Context
open Strand
variable {x : Context ℚ} {c d e arm marked : Strand ℚ}

theorem arrangeText_overlaid (h : c.Overlaid d) (content : String) :
    (x.arrangeText content c).Overlaid (x.arrangeText content d) := by
  unfold arrangeText
  dsimp only
  rw [h.startBelow, h.pad, h.band, (h.takeBand _ _).pad]
  exact (((h.takeBand _ _).trunkTo _ true).drawGroup _).setTip (some _)

theorem arrangeJump_overlaid (h : c.Overlaid d) (tip : c.tip.isSome) {j : Jump}
    (hjump : x.arrangeJump j c = .ok e) : ∃ f, x.arrangeJump j d = .ok f ∧ e.Overlaid f := by
  obtain ⟨direction, hheading, hjump⟩ := exists_of_bind_eq_ok hjump
  obtain ⟨⟨pos, taken⟩, htake, hjump⟩ := exists_of_bind_eq_ok hjump
  cases hjump
  obtain ⟨taken', htake', htaken⟩ := h.takeExit htake
  rw [← h.startBelow, ← h.pad] at htake'
  refine ⟨_, bind_eq_ok ((h.headingOf j).trans hheading) (bind_eq_ok htake' rfl), ?_⟩
  have hcovers := trunkTo_covers ((takeExit_adds htake).tip tip) (pos + taken.pad) false
  dsimp only
  rw [htaken.pad]
  exact ((htaken.trunkTo (pos + taken.pad) false).noteJump hcovers j).setAlive false

theorem takeDecision_overlaid (h : c.Overlaid d) {test : String} {exits : Exit × Exit} {pos : ℚ}
    (htake : x.takeDecision test exits c = .ok (pos, e)) :
    ∃ f, x.takeDecision test exits d = .ok (pos, f) ∧ e.Overlaid f := by
  unfold takeDecision at htake ⊢
  dsimp only at htake ⊢
  rw [h.startBelow, h.pad]
  split at htake
  · next hplain =>
      rw [if_pos hplain]
      cases htake
      refine ⟨_, ?_, h.takeBand (c.startBelow x.config.stepY) _⟩
      exact congrArg Except.ok (Prod.ext (h.band _ _) rfl)
  · next hjumps =>
      rw [if_neg hjumps]
      exact h.takeExit htake

theorem claimEast_overlaid (h : c.Overlaid d) (exits : Exit × Exit) (middle : ℚ) :
    (claimEast exits middle c).Overlaid (claimEast exits middle d) := by
  refine h.revise (claimEast exits middle) fun _ _ _ _ => ?_
  unfold claimEast
  split <;> rfl

theorem foldl_noteJump_overlaid {β : Type} (h : c.Overlaid d) (point : β → ℚ × ℚ)
    (jumps : List (Jump × β)) (hp : ∀ b, c.group.Covers (point b)) :
    (jumps.foldl (fun c b => c.noteJump b.1 (point b.2)) c).Overlaid
      (jumps.foldl (fun c b => c.noteJump b.1 (point b.2)) d) := by
  induction jumps generalizing c d with
  | nil => exact h
  | cons b rest ih =>
      have hnoted := h.noteJump (hp b.2) b.1
      refine ih hnoted fun other => ?_
      cases h with
      | intro hdebug _ =>
          dsimp only
          rw [noteJump_eq hdebug]
          cases b.1 <;> exact hp other

theorem drawDecision_covers (hmeasure : ∀ text attrs, 0 ≤ (x.measure text attrs).width ∧
    0 ≤ (x.measure text attrs).height) (test : String) (top : ℚ) (c : Strand ℚ)
    (direction : Direction) : (c.drawDecision (x.diamond test) top).2.group.Covers
      (if direction = .east then (c.drawDecision (x.diamond test) top).1.width / 2.0
        else -(c.drawDecision (x.diamond test) top).1.width / 2.0,
      (c.drawDecision (x.diamond test) top).1.middle) := by
  obtain ⟨w, h, -, hw, hh, hx0, hy0, -, hbounds⟩ := diamond_bounds hmeasure test
  have hextent (dx : ℚ) : ((x.diamond test).shift dx top).toShape.extent =
      ⟨dx, top, w + dx, h + top⟩ := by
    change (x.diamond test).bounds.offset ((x.diamond test).x + dx) ((x.diamond test).y + top) = _
    rw [hbounds, hx0, hy0, zero_add, zero_add]
    unfold Bounds.offset
    rw [zero_add, zero_add]
  refine Group.covers_push rfl ?_ _
  unfold drawDecision
  dsimp only
  rw [hextent, show (x.diamond test).bounds.width = w by rw [hbounds]; exact sub_zero w,
    show (x.diamond test).bounds.height = h by rw [hbounds]; exact sub_zero h]
  have hpoint (px py : ℚ) : (Shape.point ⟨px, py, false⟩).extent = ⟨px, py, px, py⟩ := by
    change (⟨0 + px, 0 + py, 0 + px, 0 + py⟩ : Bounds ℚ) = _
    rw [zero_add, zero_add]
  rw [hpoint]
  norm_num
  split <;> refine ⟨?_, ?_, ?_, ?_⟩ <;> dsimp only <;> linarith

theorem labelExit_covers {p : ℚ × ℚ} (h : c.group.Covers p) (text : String) (size : Size ℚ)
    (direction : Direction) (box : DecisionBox ℚ) :
    (c.labelExit text size direction box).group.Covers p := by
  unfold labelExit
  split
  · exact h
  · cases direction <;> exact h.push rfl

theorem drawExits_overlaid (hmeasure : ∀ text attrs, 0 ≤ (x.measure text attrs).width ∧
    0 ≤ (x.measure text attrs).height) (h : c.Overlaid d) (test : String) (exits : Exit × Exit)
    (top : ℚ) : (x.drawExits test exits top c).2.Overlaid (x.drawExits test exits top d).2 := by
  have hlabelled := ((h.drawDecision (x.diamond test) top).labelExit x.config.yesText x.yesSize
    exits.1.direction (c.drawDecision (x.diamond test) top).1).labelExit x.config.noText x.noSize
      exits.2.direction (c.drawDecision (x.diamond test) top).1
  refine foldl_noteJump_overlaid hlabelled (fun direction : Direction =>
    (if direction = .east then (c.drawDecision (x.diamond test) top).1.width / 2.0
      else -(c.drawDecision (x.diamond test) top).1.width / 2.0,
    (c.drawDecision (x.diamond test) top).1.middle)) (exitJumps exits) fun direction => ?_
  exact labelExit_covers (labelExit_covers (drawDecision_covers hmeasure test top c direction)
    _ _ _ _) _ _ _ _

theorem openDecision_overlaid (hmeasure : ∀ text attrs, 0 ≤ (x.measure text attrs).width ∧
    0 ≤ (x.measure text attrs).height) (h : c.Overlaid d) {test : String} {exits : Exit × Exit}
    {box : DecisionBox ℚ} (hopen : x.openDecision test exits c = .ok (box, e)) :
    ∃ f, x.openDecision test exits d = .ok (box, f) ∧ e.Overlaid f := by
  obtain ⟨⟨pos, taken⟩, htake, hopen⟩ := exists_of_bind_eq_ok hopen
  obtain ⟨taken', htake', htaken⟩ := takeDecision_overlaid h htake
  cases hopen
  have hclaimed := claimEast_overlaid htaken exits
    (pos + taken.pad + (x.diamond test).bounds.height / 2.0)
  refine ⟨_, bind_eq_ok htake' ?_, drawExits_overlaid hmeasure hclaimed test exits (pos + taken.pad)⟩
  dsimp only
  rw [htaken.pad]
  rfl

theorem closeBelow_overlaid (h : c.Overlaid d) (harm : arm.Overlaid marked) :
    (closeBelow arm c).Overlaid (closeBelow marked d) := by
  unfold closeBelow
  rw [h.reach, h.tip, harm.reach, harm.liveTip, harm.lanes, harm.alive]
  exact ((((h.absorb harm 0).setReach (max c.reach arm.reach)).setTip (arm.liveTip.or c.tip)).setLanes
    arm.lanes).setAlive arm.alive

theorem eastShift_overlaid (harm : arm.Overlaid marked) (box : DecisionBox ℚ) (right : ℚ) :
    x.eastShift box right marked = x.eastShift box right arm := by
  unfold eastShift
  rw [harm.extent]

theorem closeBeside_overlaid {below lower : Strand ℚ} (h : c.Overlaid d)
    (hbelow : below.Overlaid lower) (harm : arm.Overlaid marked) (box : DecisionBox ℚ) :
    (x.closeBeside box below arm c).Overlaid (x.closeBeside box lower marked d) := by
  unfold closeBeside
  dsimp only
  rw [hbelow.extent, hbelow.liveTip, eastShift_overlaid harm, h.reach, harm.reach, harm.lanes,
    harm.alive, harm.tip]
  generalize x.eastShift box (max (box.width / 2.0) below.group.extent.maxX) arm = dx
  have hmerged := (((h.drawPath (Path.across (box.width / 2.0) box.middle
    (dx - box.width / 2.0))).absorb harm dx).setReach (max c.reach arm.reach)).setLanes arm.lanes
  split
  · rw [hmerged.line]
    exact ((((hmerged.takeLine _).drawPath _).setTip below.liveTip).trunkTo _ false).setAlive true
  · exact hmerged

theorem enter_overlaid (h : c.Overlaid d) :
    (x.enter d).1 = (x.enter c).1 ∧ (x.enter c).2.Overlaid (x.enter d).2 := by
  unfold enter
  dsimp only
  rw [h.startBelow, h.line]
  exact ⟨rfl, (h.takeLine _).trunkTo _ false⟩

theorem openWhile_overlaid (h : c.Overlaid d) (test : String) :
    (x.openWhile test d).1 = (x.openWhile test c).1 ∧
      (x.openWhile test c).2.Overlaid (x.openWhile test d).2 := by
  have hbody := h.loopBody .whileLoop
  cases h with
  | intro =>
      refine ⟨rfl, ?_⟩
      exact ((((hbody.takeBand _ _).drawDecision (x.diamond test) _).labelExit _ _ _ _).labelExit
        _ _ _ _).setTip _

theorem gatherBack_overlaid (h : arm.Overlaid marked) {back : List (ℚ × ℚ)}
    (hback : x.gatherBack arm = .ok (back, e)) :
    ∃ f, x.gatherBack marked = .ok (back, f) ∧ e.Overlaid f := by
  have hcleared := h.setContinues []
  cases h with
  | intro =>
      unfold gatherBack at hback ⊢
      dsimp only at hback ⊢
      by_cases hlive : arm.alive = true
      · rw [if_pos hlive] at hback ⊢
        obtain ⟨⟨pos, taken⟩, htake, hback⟩ := exists_of_bind_eq_ok hback
        cases hback
        obtain ⟨taken', htake', htaken⟩ := hcleared.takeExit htake
        have hdrawn := htaken.trunkTo (pos + taken.pad) false
        cases htaken with
        | intro => exact ⟨_, bind_eq_ok htake' rfl, hdrawn⟩
      · rw [if_neg hlive] at hback ⊢
        cases hback
        exact ⟨_, rfl, hcleared⟩

theorem routeBack_overlaid (h : arm.Overlaid marked) (back : List (ℚ × ℚ)) (entry : ℚ) :
    (x.routeBack back entry arm).Overlaid (x.routeBack back entry marked) := by
  unfold routeBack
  rw [h.westLane]
  split
  · exact h
  · exact h.route _ _ _ _

theorem closeWhile_overlaid (h : c.Overlaid d) (harm : arm.Overlaid marked) (entry : ℚ)
    (box : DecisionBox ℚ) (back : List (ℚ × ℚ)) :
    (x.closeWhile entry box back arm c).Overlaid (x.closeWhile entry box back marked d) := by
  have hrouted := routeBack_overlaid (x := x) harm back entry
  unfold closeWhile
  dsimp only
  generalize x.routeBack back entry arm = body at hrouted ⊢
  generalize x.routeBack back entry marked = body' at hrouted ⊢
  have hdrained := hrouted.setBreaks []
  have hreclaimed := h.reclaim hdrained
  rw [hrouted.breaks, hdrained.eastLane, hreclaimed.reach, hreclaimed.line]
  exact (((hreclaimed.takeLine _).absorb (hdrained.route _ _ _ _) 0).setTip
    (some (takeLine _ _).1)).setAlive true

theorem gatherOnward_overlaid (h : arm.Overlaid marked) :
    (x.gatherOnward arm).Overlaid (x.gatherOnward marked) := by
  have hcleared := h.setContinues []
  have hstart := congrArg (· + x.halfGap) h.reach
  unfold gatherOnward
  dsimp only at hstart ⊢
  rw [h.continues]
  split
  · exact hcleared
  · rw [hcleared.eastLane, hstart, hcleared.line]
    exact ((((hcleared.takeLine _).dropDeadTip).trunkTo _ false).route _ _ _ _).setAlive true

theorem testDo_overlaid (h : arm.Overlaid marked) (test : String) (entry : ℚ) :
    (x.testDo test entry marked).1 = (x.testDo test entry arm).1 ∧
      (x.testDo test entry arm).2.Overlaid (x.testDo test entry marked).2 := by
  have hband := h.takeBand (arm.reach + x.config.stepY)
    ((x.diamond test).bounds.height + 2.0 * arm.pad + x.noSize.height)
  unfold testDo
  dsimp only
  rw [h.pad, h.reach, h.band, hband.pad]
  generalize arm.takeBand _ _ = band at hband ⊢
  generalize (marked.takeBand _ _).2 = body' at hband ⊢
  have hdrawn := hband.dropDeadTip.drawDecision (x.diamond test) (band.1 + band.2.pad)
  refine ⟨rfl, ?_⟩
  rw [((hdrawn.labelExit _ _ _ _).labelExit _ _ _ _).westLane]
  exact (((hdrawn.labelExit _ _ _ _).labelExit _ _ _ _).route _ _ _ _).setTip
    (some (drawDecision _ _ _).1.bottom)

theorem closeDo_overlaid (h : c.Overlaid d) (harm : arm.Overlaid marked) (test : String) (entry : ℚ) :
    (x.closeDo test entry arm c).Overlaid (x.closeDo test entry marked d) := by
  obtain ⟨hbox, htested⟩ := testDo_overlaid (x := x) (gatherOnward_overlaid (x := x) harm) test entry
  unfold closeDo
  dsimp only
  rw [hbox, htested.breaks]
  generalize x.testDo test entry (x.gatherOnward arm) = tested at htested ⊢
  generalize (x.testDo test entry (x.gatherOnward marked)).2 = body' at htested ⊢
  have hdrained := htested.setBreaks []
  have hreclaimed := h.reclaim hdrained
  split
  · exact ((hreclaimed.absorb hdrained 0).setTip (some tested.1.bottom)).setAlive true
  · rw [hdrained.eastLane, hreclaimed.reach, hreclaimed.line]
    exact (((hreclaimed.takeLine _).absorb ((hdrained.trunkTo _ false).route _ _ _ _) 0).setTip
      (some (takeLine _ _).1)).setAlive true

end Context
end Flowchart
