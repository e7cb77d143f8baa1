import Flowchart.Proofs.Chart.Recorded
import Flowchart.Proofs.Chart.Framing
/-! The trunk only grows downward. What a strand has in use ends at or below the end of its trunk, and
whatever is taken for the trunk to go on begins below that; so no strand ever takes back what it has in
use, and no piece of a trunk is drawn upward. -/
namespace Flowchart
open Recording

/-- No strand takes back what it has in use, and no trunk ends below that or is drawn upward. -/
def Event.Descends : Event ℚ → Prop
  | .change before after => before.reach ≤ after.reach
  | .trunk c y => ∀ tip ∈ c.tip, tip ≤ y
  | .begins _ c | .ends c => ∀ tip ∈ c.tip, tip ≤ c.reach

namespace Strand
variable {c d e arm : Strand ℚ}

/-- The pieces of the trunk were drawn downward. -/
def Falls (c : Strand ℚ) : Prop := ∀ top bottom, .trunk top bottom ∈ c.journal → top ≤ bottom

/-- The trunk fell to an end within what is in use. -/
structure Descends (c : Strand ℚ) : Prop where
  pad : 0 ≤ c.pad
  tip : ∀ tip ∈ c.tip, tip ≤ c.reach
  falls : c.Falls

structure KeepsTrunk (c d : Strand ℚ) : Prop where
  pad : d.pad = c.pad
  reach : d.reach = c.reach
  tip : d.tip = c.tip
  strokes : ∀ top bottom, .trunk top bottom ∈ d.journal → .trunk top bottom ∈ c.journal

theorem KeepsTrunk.refl (c : Strand ℚ) : c.KeepsTrunk c := ⟨rfl, rfl, rfl, fun _ _ mem => mem⟩

theorem KeepsTrunk.trans (h : c.KeepsTrunk d) (k : d.KeepsTrunk e) : c.KeepsTrunk e where
  pad := k.pad.trans h.pad
  reach := k.reach.trans h.reach
  tip := k.tip.trans h.tip
  strokes top bottom mem := h.strokes top bottom (k.strokes top bottom mem)

theorem draw_keepsTrunk (c : Strand ℚ) (s : Shape ℚ) : c.KeepsTrunk (c.draw s) :=
  ⟨rfl, rfl, rfl, fun _ _ mem => mem⟩

theorem foldl_keepsTrunk {β : Type} (f : Strand ℚ → β → Strand ℚ)
    (hf : ∀ c b, KeepsTrunk c (f c b)) (l : List β) (c : Strand ℚ) : c.KeepsTrunk (l.foldl f c) := by
  induction l generalizing c with
  | nil => exact .refl c
  | cons b rest ih => exact (hf c b).trans (ih (f c b))

theorem labelExit_keepsTrunk (c : Strand ℚ) (text : String) (size : Size ℚ) (d : Direction)
    (box : DecisionBox ℚ) : c.KeepsTrunk (c.labelExit text size d box) := by
  unfold labelExit
  split
  · exact .refl c
  · cases d <;> exact draw_keepsTrunk c _

theorem noteJump_keepsTrunk (c : Strand ℚ) (j : Jump) (p : ℚ × ℚ) :
    c.KeepsTrunk (c.noteJump j p) := by
  unfold noteJump
  cases j <;> dsimp only <;> split <;> exact ⟨rfl, rfl, rfl, fun _ _ mem => mem⟩

theorem route_keepsTrunk (c : Strand ℚ) (role : RouteRole) (points : List (ℚ × ℚ))
    (lane target : ℚ) : c.KeepsTrunk (c.route role points lane target) := by
  have noted : c.KeepsTrunk
      { c with journal := c.journal ++ [.route role points lane target c.group] } := by
    refine ⟨rfl, rfl, rfl, fun top bottom mem => ?_⟩
    obtain mem | mem := List.mem_append.mp mem
    · exact mem
    · cases List.mem_singleton.mp mem
  unfold route
  dsimp only
  split
  · exact noted
  · exact noted.trans ((draw_keepsTrunk _ _).trans
      (foldl_keepsTrunk _ (fun d _ => draw_keepsTrunk d _) _ _))

theorem Falls.keep (h : c.Falls) (k : c.KeepsTrunk d) : d.Falls :=
  fun top bottom mem => h top bottom (k.strokes top bottom mem)

theorem Falls.trunkTo (h : c.Falls) {y : ℚ} (above : ∀ tip ∈ c.tip, tip ≤ y) (arrow : Bool) :
    (c.trunkTo y arrow).Falls := by
  unfold Strand.trunkTo
  split
  · next tip here =>
      intro top bottom mem
      obtain mem | mem := List.mem_append.mp mem
      · exact h top bottom mem
      · cases List.mem_singleton.mp mem
        exact above _ here
  · exact h

theorem Descends.keep (h : c.Descends) (k : c.KeepsTrunk d) : d.Descends where
  pad := h.pad.trans_eq k.pad.symm
  tip tip mem := (h.tip tip (k.tip ▸ mem)).trans_eq k.reach.symm
  falls := h.falls.keep k

theorem Descends.revise (h : c.Descends) {group : Group ℚ} {reach : ℚ} {tip : Option ℚ}
    {lanes : Lanes ℚ} {breakTarget continueTarget : Option JumpTarget}
    {breaks continues : List (ℚ × ℚ)} {alive debug : Bool} (within : ∀ t ∈ tip, t ≤ reach) :
    Descends ⟨group, reach, tip, lanes, breakTarget, continueTarget, breaks, continues, alive, c.pad,
      debug, c.journal⟩ :=
  ⟨h.pad, within, h.falls⟩

theorem Descends.branch (h : c.Descends) {reach : ℚ} {tip : Option ℚ} {lanes : Lanes ℚ}
    {breakTarget continueTarget : Option JumpTarget} (within : ∀ t ∈ tip, t ≤ reach) :
    Descends ⟨.empty, reach, tip, lanes, breakTarget, continueTarget, [], [], true, c.pad, c.debug,
      []⟩ :=
  ⟨h.pad, within, fun _ _ mem => absurd mem List.not_mem_nil⟩

theorem Descends.absorb (h : c.Descends) (harm : arm.Falls) (dx : ℚ) :
    (c.absorb arm dx).Descends := by
  have both : ∀ top bottom, .trunk top bottom ∈ c.journal ++ arm.journal → top ≤ bottom := by
    intro top bottom mem
    obtain mem | mem := List.mem_append.mp mem
    · exact h.falls top bottom mem
    · exact harm top bottom mem
  unfold Strand.absorb
  dsimp only
  split <;> exact ⟨h.pad, h.tip, both⟩

theorem Descends.trunkTo (h : c.Descends) {y : ℚ} (above : ∀ tip ∈ c.tip, tip ≤ y)
    (within : y ≤ c.reach) (arrow : Bool) : (c.trunkTo y arrow).Descends := by
  have same := c.trunkTo_redraws y arrow
  refine ⟨h.pad.trans_eq same.pad.symm, fun tip mem => ?_, h.falls.trunkTo above arrow⟩
  rw [trunkTo_tip] at mem
  rw [same.reach]
  exact Option.some.inj mem ▸ within

theorem mem_tip_of_mem_liveTip {tip : ℚ} (h : tip ∈ arm.liveTip) : tip ∈ arm.tip := by
  unfold liveTip at h
  split at h
  · exact h
  · cases h

structure Banded (c : Strand ℚ) (start size : ℚ) (t : ℚ × Strand ℚ) : Prop where
  descends : t.2.Descends
  pad : t.2.pad = c.pad
  tip : t.2.tip = c.tip
  reach : c.reach ≤ t.2.reach
  start : start ≤ t.1
  room : t.1 + size ≤ t.2.reach

structure Lined (c : Strand ℚ) (t : ℚ × Strand ℚ) : Prop where
  descends : t.2.Descends
  below : c.reach ≤ t.1
  within : t.1 ≤ t.2.reach
  above : ∀ tip ∈ t.2.tip, tip ≤ t.1

/-- A decision was drawn, and a trunk may begin at its middle or at its lower corner. -/
structure Tested (t : DecisionBox ℚ × Strand ℚ) : Prop where
  descends : t.2.Descends
  middle : t.1.middle ≤ t.2.reach
  bottom : t.1.bottom ≤ t.2.reach

theorem Descends.takeBand (h : c.Descends) (start size : ℚ) :
    c.Banded start size (c.takeBand start size) := by
  obtain ⟨low, room⟩ := takeBand_bounds c start size
  have more : c.reach ≤ (c.takeBand start size).2.reach := (c.takeBand_widens start size).reach
  exact ⟨h.revise fun tip mem => (h.tip tip mem).trans more, rfl, rfl, more, low, room⟩

theorem Descends.takeExit (h : c.Descends) {start size : ℚ} {east : Bool} {t : ℚ × Strand ℚ}
    (took : c.takeExit start size east = .ok t) : c.Banded start size t := by
  obtain ⟨pos, d⟩ := t
  obtain ⟨widens, -, low, room⟩ := takeExit_widens took
  have more := widens.reach
  unfold Strand.takeExit at took
  split at took
  · cases took
    exact ⟨h.revise fun tip mem => (h.tip tip mem).trans more, rfl, rfl, more, low, room⟩
  · cases took

theorem Banded.above {start size pad : ℚ} {t : ℚ × Strand ℚ} (h : c.Banded start size t)
    (hc : c.Descends) (hstart : c.reach ≤ start) (hpad : 0 ≤ pad) :
    ∀ tip ∈ t.2.tip, tip ≤ t.1 + pad := by
  intro tip mem
  have within := hc.tip tip (h.tip ▸ mem)
  have low := h.start
  linarith

theorem Banded.lined {start size : ℚ} {t : ℚ × Strand ℚ} (h : c.Banded start size t)
    (hc : c.Descends) (hstart : c.reach ≤ start) (hsize : c.pad ≤ size) :
    c.Lined (t.1 + t.2.pad, t.2) := by
  have pad := hc.pad
  have low := h.start
  have room := h.room
  rw [h.pad]
  refine ⟨h.descends, ?_, ?_, h.above hc hstart pad⟩
  · exact hstart.trans (low.trans (le_add_of_nonneg_right pad))
  · exact le_trans (add_le_add_right hsize t.1) room

theorem Descends.pad_le (h : c.Descends) : c.pad ≤ 2.0 * c.pad := by
  have pad := h.pad
  linarith

theorem Lined.dropDeadTip {t : ℚ × Strand ℚ} (h : c.Lined t) : c.Lined (t.1, t.2.dropDeadTip) := by
  unfold Strand.dropDeadTip
  split
  · exact h
  · exact ⟨h.descends.revise fun _ mem => absurd mem (Option.not_mem_none _), h.below, h.within,
      fun _ mem => absurd mem (Option.not_mem_none _)⟩

theorem Tested.keep {t : DecisionBox ℚ × Strand ℚ} (h : Tested t) (k : t.2.KeepsTrunk d) :
    Tested (t.1, d) :=
  ⟨h.descends.keep k, h.middle.trans_eq k.reach.symm, h.bottom.trans_eq k.reach.symm⟩

end Strand

namespace Recording
open Strand
variable {c d : Strand ℚ}

theorem become_tells {post : Strand ℚ → Prop} (reach : c.reach ≤ d.reach) (h : post d) :
    Tells Event.Descends post (become c d) (.ok d) := by
  refine (Tells.note reach).andThen fun _ _ _ => ?_
  exact Tells.pure h

theorem become_andThen {β : Type} {last : β → Prop} {next : Strand ℚ → Recording ℚ β}
    {r : Except LayoutFault β} (reach : c.reach ≤ d.reach) (h : d.Descends)
    (k : ∀ e, d = e → e.Descends → Tells Event.Descends last (next e) r) :
    Tells Event.Descends last (become c d >>= next) r :=
  (become_tells reach h).andThen k

theorem become_keeps (h : c.Descends) (k : c.KeepsTrunk d) :
    Tells Event.Descends (fun e => e.Descends ∧ c.KeepsTrunk e) (become c d) (.ok d) :=
  become_tells k.reach.ge ⟨h.keep k, k⟩

theorem tested_andThen {t : DecisionBox ℚ × Strand ℚ} {β : Type} {last : β → Prop}
    {next : Strand ℚ → Recording ℚ β} {r : Except LayoutFault β} (h : Tested t)
    (kept : t.2.KeepsTrunk d)
    (k : ∀ e, d = e → Tested (t.1, e) → Tells Event.Descends last (next e) r) :
    Tells Event.Descends last (become t.2 d >>= next) r :=
  (become_tells kept.reach.ge (h.keep kept)).andThen k

theorem takeBand_tells (hc : c.Descends) (start size : ℚ) :
    Tells Event.Descends (c.Banded start size) (takeBand c start size)
      (.ok (c.takeBand start size)) := by
  have banded := hc.takeBand start size
  refine become_andThen banded.reach banded.descends fun d same _ => ?_
  subst same
  exact Tells.pure banded

theorem takeLine_tells (hc : c.Descends) {start : ℚ} (hstart : c.reach ≤ start) :
    Tells Event.Descends c.Lined (takeLine c start) (.ok (c.takeLine start)) := by
  refine (takeBand_tells hc _ _).andThen fun t same banded => ?_
  have lined := banded.lined hc hstart hc.pad_le
  subst same
  exact Tells.pure lined

theorem takeExit_tells (hc : c.Descends) (start size : ℚ) (east : Bool) :
    Tells Event.Descends (c.Banded start size) (takeExit c start size east)
      (c.takeExit start size east) := by
  have same : c.takeExit start size east = c.takeExit start size east >>= fun t => .ok t := by
    cases c.takeExit start size east <;> rfl
  rw [same]
  refine (Tells.lift _).bind fun t took => ?_
  have banded := hc.takeExit took
  refine become_andThen banded.reach banded.descends fun d same _ => ?_
  subst same
  exact Tells.pure banded

theorem trunkTo_tells (hc : c.Descends) {y : ℚ} (above : ∀ tip ∈ c.tip, tip ≤ y)
    (within : y ≤ c.reach) (arrow : Bool) :
    Tells Event.Descends (fun d => d.Descends ∧ d.reach = c.reach) (trunkTo c y arrow)
      (.ok (c.trunkTo y arrow)) := by
  have kept := (c.trunkTo_redraws y arrow).reach
  refine (Tells.note above).andThen fun _ _ _ => ?_
  exact become_tells kept.ge ⟨hc.trunkTo above within arrow, kept⟩

theorem trunkTo_falls_tells (hc : c.Falls) {y : ℚ} (above : ∀ tip ∈ c.tip, tip ≤ y) (arrow : Bool) :
    Tells Event.Descends Strand.Falls (trunkTo c y arrow) (.ok (c.trunkTo y arrow)) := by
  refine (Tells.note above).andThen fun _ _ _ => ?_
  exact become_tells (c.trunkTo_redraws y arrow).reach.ge (hc.trunkTo above arrow)

end Recording

namespace Context
open Strand
variable {x : Context ℚ} {c d arm body holder : Strand ℚ}

theorem Padded.box (hx : x.Padded) (content : String) :
    0 ≤ (Group.boxAround content (x.captionSize content).width (x.captionSize content).height
      x.config.rect.padX x.config.rect.padY).bounds.height := by
  obtain ⟨-, -, bounds, -⟩ := box_bounds hx.measure hx.rectX hx.rectY content rfl rfl
  have caption : 0 ≤ (x.captionSize content).height := (hx.measure _ _).2
  have pad := hx.rectY
  rw [bounds]
  change 0 ≤ (x.captionSize content).height + 2.0 * x.config.rect.padY - 0
  linarith

theorem Padded.diamond (hx : x.Padded) (test : String) : 0 ≤ (x.diamond test).bounds.height := by
  obtain ⟨w, height, text, -, high, -, -, -, bounds⟩ := diamond_bounds hx.measure test
  rw [bounds]
  exact high.trans_eq (sub_zero height).symm

theorem drawDecision_tells (hx : x.Padded) (hc : c.Descends) (test : String) {top : ℚ}
    (above : ∀ tip ∈ c.tip, tip ≤ top) (room : top + (x.diamond test).bounds.height ≤ c.reach) :
    Tells Event.Descends Tested (Recording.drawDecision c (x.diamond test) top)
      (.ok (c.drawDecision (x.diamond test) top)) := by
  have high := hx.diamond test
  refine (trunkTo_tells hc above (by linarith) true).andThen fun d hd ⟨drawn, reach⟩ => ?_
  refine (become_keeps drawn (draw_keepsTrunk _ _)).andThen fun e he ⟨boxed, kept⟩ => ?_
  have reach' := kept.reach
  refine Tells.of_eq (Tells.pure ⟨boxed, ?_, ?_⟩) ?_
  · dsimp only
    linarith
  · dsimp only
    linarith
  · subst hd he
    rfl

theorem recordText_tells (hx : x.Padded) (hc : c.Descends) (content : String) :
    Tells Event.Descends Strand.Descends (x.recordText content c) (.ok (x.arrangeText content c)) := by
  have high := hx.box content
  have pad := hc.pad
  have start := c.reach_le_startBelow hx.stepY
  refine (takeBand_tells hc _ _).andThen fun t ht banded => ?_
  have room := banded.room
  have same := banded.pad
  refine (trunkTo_tells banded.descends (banded.above hc start (pad.trans_eq same.symm)) ?_
    true).andThen fun d hd ⟨drawn, reach⟩ => ?_
  · linarith
  refine (become_keeps drawn (draw_keepsTrunk _ _)).andThen fun e he ⟨boxed, kept⟩ => ?_
  have reach' := kept.reach
  refine Tells.of_eq (become_tells le_rfl (boxed.revise fun tip mem => ?_)) ?_
  · obtain rfl := Option.some.inj mem
    linarith
  · subst ht hd he
    rfl

theorem recordJump_tells (hx : x.Padded) (hc : c.Descends) (j : Jump) :
    Tells Event.Descends Strand.Descends (x.recordJump j c) (x.arrangeJump j c) := by
  have start := c.reach_le_startBelow hx.ample.halfGap
  unfold arrangeJump
  refine (Tells.lift _).bind fun d _ => ?_
  refine (takeExit_tells hc _ _ _).bind fun t banded => ?_
  have lined := banded.lined hc start hc.pad_le
  refine (trunkTo_tells lined.descends lined.above lined.within false).andThen
    fun e he ⟨drawn, _⟩ => ?_
  refine (become_keeps drawn (noteJump_keepsTrunk _ _ _)).andThen fun f hf ⟨noted, _⟩ => ?_
  refine Tells.of_eq (become_tells le_rfl (noted.revise noted.tip)) ?_
  subst he hf
  rfl

theorem claimEast_keepsTrunk (exits : Exit × Exit) (middle : ℚ) (c : Strand ℚ) :
    c.KeepsTrunk (claimEast exits middle c) := by
  unfold claimEast
  split
  · exact ⟨rfl, rfl, rfl, fun _ _ mem => mem⟩
  · exact .refl c

theorem recordBand_tells (hc : c.Descends) (test : String) (exits : Exit × Exit) :
    Tells Event.Descends (c.Banded (c.startBelow x.config.stepY) ((x.diamond test).bounds.height +
        2.0 * c.pad + max x.yesSize.height x.noSize.height))
      (x.recordBand test exits c) (x.takeDecision test exits c) := by
  unfold recordBand takeDecision
  dsimp only
  split
  · exact takeBand_tells hc _ _
  · exact takeExit_tells hc _ _ _

theorem recordExits_tells (hx : x.Padded) (hc : c.Descends) (test : String) (exits : Exit × Exit)
    {top : ℚ} (above : ∀ tip ∈ c.tip, tip ≤ top)
    (room : top + (x.diamond test).bounds.height ≤ c.reach) :
    Tells Event.Descends Tested (x.recordExits test exits top c)
      (.ok (x.drawExits test exits top c)) := by
  refine (drawDecision_tells hx hc test above room).andThen fun t ht tested => ?_
  refine tested_andThen tested (labelExit_keepsTrunk _ _ _ _ _) fun d hd yes => ?_
  refine tested_andThen yes (labelExit_keepsTrunk _ _ _ _ _) fun e he no => ?_
  refine tested_andThen no (foldl_keepsTrunk _ (fun c _ => noteJump_keepsTrunk c _ _) _ _)
    fun f hf noted => ?_
  refine Tells.of_eq (Tells.pure noted) ?_
  subst ht hd he hf
  rfl

theorem recordDecision_tells (hx : x.Padded) (hc : c.Descends) (test : String)
    (exits : Exit × Exit) : Tells Event.Descends Tested (x.recordDecision test exits c)
      (x.openDecision test exits c) := by
  have pad := hc.pad
  have start := c.reach_le_startBelow hx.stepY
  have label : 0 ≤ max x.yesSize.height x.noSize.height := le_max_of_le_left (hx.ample.labelSize _)
  unfold openDecision
  refine (recordBand_tells hc test exits).bind fun t banded => ?_
  have same := banded.pad
  have room := banded.room
  refine (become_keeps banded.descends (claimEast_keepsTrunk _ _ _)).andThen
    fun d hd ⟨claimed, kept⟩ => ?_
  have above := banded.above hc start (pad.trans_eq same.symm)
  rw [← kept.tip] at above
  rw [← kept.reach] at room
  subst hd
  exact recordExits_tells hx claimed test exits above (by linarith)

theorem closeBelow_descends (hc : c.Descends) (harm : arm.Descends) :
    (closeBelow arm c).Descends := by
  refine (hc.absorb harm.falls 0).revise fun tip mem => ?_
  obtain mem | ⟨_, mem⟩ := Option.or_eq_some_iff.mp mem
  · exact (harm.tip tip (mem_tip_of_mem_liveTip mem)).trans (le_max_right _ _)
  · exact (hc.tip tip mem).trans (le_max_left _ _)

theorem recordBeside_tells (hc : c.Descends) (harm : arm.Descends) {below : Strand ℚ}
    (hbelow : ∀ tip ∈ below.tip, tip ≤ c.reach) (box : DecisionBox ℚ) :
    Tells Event.Descends Strand.Descends (x.recordBeside box below arm c)
      (.ok (x.closeBeside box below arm c)) := by
  have more : c.reach ≤ max c.reach arm.reach := le_max_left _ _
  unfold recordBeside closeBeside
  dsimp only
  refine become_andThen ?_ ?_ fun merged hmerged desc => ?_
  · exact more
  · refine ((hc.keep (draw_keepsTrunk _ _)).absorb harm.falls _).revise fun tip mem => ?_
    rw [tip_absorb] at mem
    exact (hc.tip tip mem).trans more
  -- The end of the arm below is set aside until the arm beside it is merged, and then goes on.
  have reach : c.reach ≤ merged.reach := hmerged ▸ more
  cases live : arm.alive with
  | false =>
      refine Tells.of_eq (Tells.pure desc) ?_
      subst hmerged
      rfl
  | true =>
      refine (takeLine_tells desc le_rfl).andThen fun t ht lined => ?_
      refine (become_keeps lined.descends (draw_keepsTrunk _ _)).andThen fun d hd ⟨drawn, kept⟩ => ?_
      have within : t.1 ≤ d.reach := lined.within.trans_eq kept.reach.symm
      have above : ∀ tip ∈ below.liveTip, tip ≤ t.1 := fun tip mem =>
        (hbelow tip (mem_tip_of_mem_liveTip mem)).trans (reach.trans lined.below)
      refine become_andThen le_rfl (drawn.revise fun tip mem => (above tip mem).trans within)
        fun e he opened => ?_
      refine (trunkTo_tells opened ?_ ?_ false).andThen fun f hf ⟨joined, _⟩ => ?_
      · subst he
        exact above
      · subst he
        exact within
      refine Tells.of_eq (become_tells le_rfl (joined.revise joined.tip)) ?_
      subst hmerged ht hd he hf
      rfl

theorem recordEnter_tells (hx : x.Padded) (hc : c.Descends) :
    Tells Event.Descends (fun t => t.2.Descends) (x.recordEnter c) (.ok (x.enter c)) := by
  refine (takeLine_tells hc (c.reach_le_startBelow hx.ample.halfGap)).andThen fun t ht lined => ?_
  refine (trunkTo_tells lined.descends lined.above lined.within false).andThen
    fun d hd ⟨drawn, _⟩ => ?_
  refine Tells.of_eq (Tells.pure drawn) ?_
  subst ht hd
  rfl

theorem recordOpenWhile_tells (hx : x.Padded) (hc : c.Descends) (test : String) :
    Tells Event.Descends (fun t => t.2.Descends) (x.recordOpenWhile test c)
      (.ok (x.openWhile test c)) := by
  have pad := hc.pad
  have label : 0 ≤ x.yesSize.height := hx.ample.labelSize _
  have hbody : (c.loopBody .whileLoop).Descends := hc.branch hc.tip
  refine (takeBand_tells hbody _ _).andThen fun t ht banded => ?_
  have room := banded.room
  have start : (c.loopBody .whileLoop).reach ≤ (c.loopBody .whileLoop).reach + x.halfGap :=
    le_add_of_nonneg_right hx.ample.halfGap
  refine (drawDecision_tells hx banded.descends test (banded.above hbody start pad)
    (by linarith)).andThen fun u hu tested => ?_
  refine tested_andThen tested (labelExit_keepsTrunk _ _ _ _ _) fun d hd yes => ?_
  refine tested_andThen yes (labelExit_keepsTrunk _ _ _ _ _) fun e he no => ?_
  refine become_andThen le_rfl (no.descends.revise fun tip mem => ?_) fun f hf opened => ?_
  · exact Option.some.inj mem ▸ no.bottom
  refine Tells.of_eq (Tells.pure opened) ?_
  subst ht hu hd he hf
  rfl

theorem recordGatherBack_tells (hx : x.Padded) (hbody : body.Descends) :
    Tells Event.Descends (fun t => t.2.Descends) (x.recordGatherBack body) (x.gatherBack body) := by
  unfold recordGatherBack gatherBack
  dsimp only
  refine become_andThen le_rfl (hbody.revise hbody.tip) fun d hd emptied => ?_
  subst hd
  dsimp only
  split
  · refine (takeExit_tells emptied _ _ _).bind fun t banded => ?_
    have lined := banded.lined emptied (le_add_of_nonneg_right hx.ample.halfGap) emptied.pad_le
    refine (trunkTo_tells lined.descends lined.above lined.within false).andThen
      fun e he ⟨drawn, _⟩ => ?_
    refine Tells.of_eq (Tells.pure drawn) ?_
    subst he
    rfl
  · exact Tells.pure emptied

theorem routeBack_keepsTrunk (back : List (ℚ × ℚ)) (entry : ℚ) (body : Strand ℚ) :
    body.KeepsTrunk (x.routeBack back entry body) := by
  unfold routeBack
  split
  · exact .refl body
  · exact route_keepsTrunk _ _ _ _ _

theorem reclaim_descends (hc : c.Descends) (body : Strand ℚ) : (c.reclaim body).Descends :=
  hc.revise fun tip mem => (hc.tip tip mem).trans (le_max_left _ _)

theorem mergeLoop_tells (hc : c.Descends) (hbody : body.Falls) {tip : ℚ} (within : tip ≤ c.reach) :
    Tells Event.Descends Strand.Descends (do
        let c ← become c (c.absorb body 0)
        become c { c with tip := some tip, alive := true })
      (.ok { c.absorb body 0 with tip := some tip, alive := true }) := by
  have kept := (c.absorb_redraws body 0).reach
  refine become_andThen kept.ge (hc.absorb hbody 0) fun d hd merged => ?_
  subst hd
  refine become_tells le_rfl (merged.revise fun t mem => ?_)
  rw [kept]
  exact Option.some.inj mem ▸ within

theorem recordCloseWhile_tells (hbody : body.Descends) (hc : c.Descends) (entry : ℚ)
    (box : DecisionBox ℚ) (back : List (ℚ × ℚ)) :
    Tells Event.Descends Strand.Descends (x.recordCloseWhile entry box back body c)
      (.ok (x.closeWhile entry box back body c)) := by
  refine (become_keeps hbody (routeBack_keepsTrunk back entry body)).andThen
    fun b hb ⟨routed, _⟩ => ?_
  refine become_andThen le_rfl (routed.revise routed.tip) fun b' hb' emptied => ?_
  refine become_andThen (le_max_left _ _) (reclaim_descends hc b') fun d hd reclaimed => ?_
  refine (takeLine_tells reclaimed le_rfl).andThen fun t ht lined => ?_
  refine (become_keeps emptied (route_keepsTrunk _ _ _ _ _)).andThen fun b'' hb'' ⟨left, _⟩ => ?_
  refine Tells.of_eq (mergeLoop_tells lined.descends left.falls lined.within) ?_
  subst hb hb' hd ht hb''
  rfl

theorem routeLine_tells {t : ℚ × Strand ℚ} (h : c.Lined t) (role : RouteRole)
    (points : List (ℚ × ℚ)) (lane : ℚ) :
    Tells Event.Descends Strand.Descends (do
        let d ← become t.2 t.2.dropDeadTip
        let d ← Recording.trunkTo d t.1 false
        let d ← become d (d.route role points lane t.1)
        become d { d with alive := true })
      (.ok { (t.2.dropDeadTip.trunkTo t.1 false).route role points lane t.1 with alive := true }) := by
  have dropped := h.dropDeadTip
  refine become_andThen (t.2.dropDeadTip_redraws).reach.ge dropped.descends fun d hd _ => ?_
  subst hd
  refine (trunkTo_tells dropped.descends dropped.above dropped.within false).andThen
    fun e he ⟨drawn, _⟩ => ?_
  refine (become_keeps drawn (route_keepsTrunk _ _ _ _ _)).andThen fun f hf ⟨routed, _⟩ => ?_
  refine Tells.of_eq (become_tells le_rfl (routed.revise routed.tip)) ?_
  subst he hf
  rfl

theorem recordGatherOnward_tells (hx : x.Padded) (hbody : body.Descends) :
    Tells Event.Descends Strand.Descends (x.recordGatherOnward body) (.ok (x.gatherOnward body)) := by
  unfold recordGatherOnward gatherOnward
  dsimp only
  refine become_andThen le_rfl (hbody.revise hbody.tip) fun b hb emptied => ?_
  subst hb
  dsimp only
  split
  · exact Tells.pure emptied
  · refine (takeLine_tells emptied (le_add_of_nonneg_right hx.ample.halfGap)).andThen
      fun t ht lined => ?_
    refine Tells.of_eq (routeLine_tells lined .onward _ _) ?_
    subst ht
    rfl

theorem recordTestDo_tells (hx : x.Padded) (hbody : body.Descends) (test : String) (entry : ℚ) :
    Tells Event.Descends Tested (x.recordTestDo test entry body) (.ok (x.testDo test entry body)) := by
  have pad := hbody.pad
  have high := hx.diamond test
  have label : 0 ≤ x.noSize.height := hx.ample.labelSize _
  refine (takeBand_tells hbody _ _).andThen fun t ht banded => ?_
  have same := banded.pad
  have room := banded.room
  have dropped := (banded.lined hbody (le_add_of_nonneg_right hx.stepY) (by linarith)).dropDeadTip
  have kept := (t.2.dropDeadTip_redraws).reach
  refine become_andThen kept.ge dropped.descends fun d hd _ => ?_
  subst hd
  refine (drawDecision_tells hx dropped.descends test dropped.above ?_).andThen fun u hu tested => ?_
  · rw [kept]
    linarith
  refine tested_andThen tested (labelExit_keepsTrunk _ _ _ _ _) fun d hd yes => ?_
  refine tested_andThen yes (labelExit_keepsTrunk _ _ _ _ _) fun e he no => ?_
  refine tested_andThen no (route_keepsTrunk _ _ _ _ _) fun f hf routed => ?_
  refine become_andThen le_rfl (routed.descends.revise fun tip mem => ?_) fun g hg opened => ?_
  · exact Option.some.inj mem ▸ routed.bottom
  have ended : Tested (u.1, g) := by
    subst hg
    exact ⟨opened, routed.middle, routed.bottom⟩
  refine Tells.of_eq (Tells.pure ended) ?_
  subst ht hu hd he hf hg
  rfl

theorem recordCloseDo_tells (hx : x.Padded) (hbody : body.Descends) (hc : c.Descends)
    (test : String) (entry : ℚ) :
    Tells Event.Descends Strand.Descends (x.recordCloseDo test entry body c)
      (.ok (x.closeDo test entry body c)) := by
  refine (recordGatherOnward_tells hx hbody).andThen fun b hb gathered => ?_
  refine (recordTestDo_tells hx gathered test entry).andThen fun u hu tested => ?_
  refine become_andThen le_rfl (tested.descends.revise tested.descends.tip) fun b' hb' emptied => ?_
  refine become_andThen (le_max_left _ _) (reclaim_descends hc b') fun d hd reclaimed => ?_
  have within : b'.reach ≤ d.reach := hd ▸ le_max_right _ _
  have bottom : u.1.bottom ≤ d.reach := by
    refine le_trans ?_ within
    subst hb'
    exact tested.bottom
  unfold closeDo
  dsimp only
  rw [hb, hu]
  split
  · refine Tells.of_eq (mergeLoop_tells reclaimed emptied.falls bottom) ?_
    subst hb' hd
    rfl
  · -- The line of the exit is taken by the outer strand, below all that the body has in use. So the
    -- trunk of the body falls, but ends outside of what its own strand has in use.
    refine (takeLine_tells reclaimed le_rfl).andThen fun t ht lined => ?_
    refine (trunkTo_falls_tells emptied.falls ?_ false).andThen fun lower hlower drawn => ?_
    · exact fun tip mem => (emptied.tip tip mem).trans (within.trans lined.below)
    refine (become_tells (route_redraws _ _ _ _ _).reach.ge
      (drawn.keep (route_keepsTrunk _ _ _ _ _))).andThen fun routed hrouted left => ?_
    refine Tells.of_eq (mergeLoop_tells lined.descends left lined.within) ?_
    subst hb' hd ht hlower hrouted
    rfl

end Context
end Flowchart
