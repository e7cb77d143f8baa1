import Flowchart.Proofs.Chart.Accounted
import Flowchart.Proofs.Chart.Descending
/-! The trunk of a whole program only grows downward. Branches side by side hang from a line above all
that is in use, and their ends are joined below it. -/
namespace Flowchart
open Recording

structure Fan.Descends (tap : ℚ) (f : Fan ℚ) : Prop where
  holder : f.holder.Descends
  tap : tap ≤ f.holder.reach
  reach : f.holder.reach ≤ f.reach
  ends : ∀ e ∈ f.ends, e.tip ≤ f.reach

namespace Context
open Strand
variable {x : Context ℚ} {c d arm body holder : Strand ℚ} {f : Fan ℚ} {plan : FanPlan ℚ} {tap : ℚ}

theorem recordLabel_tells (harm : arm.Descends) (text : String) :
    Tells Event.Descends Strand.Descends (x.recordLabel text arm) (.ok (x.labelBranch text arm)) := by
  unfold recordLabel labelBranch
  split
  · exact Tells.pure harm
  · refine (takeBand_tells harm _ _).andThen fun t ht banded => ?_
    have drawn : t.2.KeepsTrunk (t.2.drawLabel text (x.labelSize text)
        ((x.labelSize text).width / 2.0 + labelGap) (t.1 + (x.labelSize text).height / 2.0)) :=
      draw_keepsTrunk _ _
    refine Tells.of_eq (become_tells drawn.reach.ge (banded.descends.keep drawn)) ?_
    subst ht
    rfl

theorem start_descends (hholder : holder.Descends) (htap : tap ≤ holder.reach) (right : ℚ) :
    (Fan.start holder right).Descends tap :=
  ⟨hholder, htap, le_rfl, fun _ mem => absurd mem List.not_mem_nil⟩

theorem closeBranch_reach (plan : FanPlan ℚ) (index : Nat) (arm : Strand ℚ) (f : Fan ℚ) :
    (x.closeBranch plan index arm f).holder.reach = f.holder.reach :=
  (absorb_redraws _ _ _).reach

theorem closeBranch_descends (hf : f.Descends tap) (harm : arm.Descends) (plan : FanPlan ℚ)
    (index : Nat) : (x.closeBranch plan index arm f).Descends tap := by
  have kept := closeBranch_reach (x := x) plan index arm f
  refine ⟨?_, hf.tap.trans_eq kept.symm, kept.trans_le (hf.reach.trans (le_max_left _ _)), ?_⟩
  · have rest : (if plan.takesBreaks then { arm with breaks := [] } else arm).Falls := by
      split
      · exact harm.falls
      · exact harm.falls
    have merged := hf.holder.absorb rest (x.branchDx plan index arm f)
    exact merged.revise merged.tip
  · intro e mem
    obtain mem | mem := List.mem_append.mp mem
    · exact (hf.ends e mem).trans (le_max_left _ _)
    · refine le_trans ?_ (le_max_right _ _)
      unfold branchEnd at mem
      split at mem
      · next tip here =>
          rw [List.mem_singleton.mp mem]
          exact harm.tip tip (mem_tip_of_mem_liveTip here)
      · cases mem

theorem recordBranch_tells (hf : f.Descends tap) (harm : arm.Descends) (plan : FanPlan ℚ)
    (index : Nat) : Tells Event.Descends (Fan.Descends tap) (x.recordBranch plan index arm f)
      (.ok (x.closeBranch plan index arm f)) := by
  have closed := closeBranch_descends (x := x) hf harm plan index
  refine become_andThen (closeBranch_reach plan index arm f).ge closed.holder fun d hd _ => ?_
  subst hd
  exact Tells.pure closed

theorem recordJoin_tells (hholder : holder.Descends) (ends : List (ℚ × ℚ)) :
    Tells Event.Descends Strand.Descends (recordJoin ends holder) (.ok (joinEnds ends holder)) := by
  refine (takeLine_tells hholder le_rfl).andThen fun t ht lined => ?_
  refine (become_keeps lined.descends (foldl_keepsTrunk _ (fun d e => ?_) _ _)).andThen
    fun d hd ⟨drawn, kept⟩ => ?_
  · dsimp only
    split <;> exact draw_keepsTrunk d _
  refine Tells.of_eq (become_tells le_rfl (drawn.revise fun tip mem => ?_)) ?_
  · rw [kept.reach]
    exact Option.some.inj mem ▸ lined.within
  · subst ht hd
    rfl

theorem recordSettle_tells (hholder : holder.Descends) {ends : List (BranchEnd ℚ)}
    (hends : ∀ e ∈ ends, e.tip ≤ holder.reach) :
    Tells Event.Descends Strand.Descends (recordSettle ends holder) (.ok (settleEnds ends holder)) := by
  match ends with
  | [] => exact become_tells le_rfl (hholder.revise hholder.tip)
  | [⟨0, _, tip⟩] =>
      refine become_tells le_rfl (hholder.revise fun t mem => ?_)
      exact Option.some.inj mem ▸ hends _ List.mem_cons_self
  | ⟨0, _, _⟩ :: _ :: _ | ⟨_ + 1, _, _⟩ :: _ => exact recordJoin_tells hholder _

theorem adopt_descends (hc : c.Descends) (hholder : holder.Descends) : (adopt holder c).Descends :=
  (hc.absorb hholder.falls 0).revise fun tip mem => (hholder.tip tip mem).trans (le_max_right _ _)

theorem finish_descends (hf : f.Descends tap) : f.finish.Descends :=
  hf.holder.revise fun tip mem => (hf.holder.tip tip mem).trans hf.reach

theorem recordOpenSwitch_tells (hx : x.Padded) (hc : c.Descends) (subject : String) :
    Tells Event.Descends (fun t => t.2.2.Descends ∧ t.2.1 ≤ t.2.2.reach)
      (x.recordOpenSwitch subject c) (.ok (x.openSwitch subject c)) := by
  have pad := hc.pad
  have hholder : c.switchHolder.Descends := hc.branch hc.tip
  refine (takeBand_tells hholder _ _).andThen fun t ht banded => ?_
  have room := banded.room
  refine (drawDecision_tells hx banded.descends subject
    (banded.above hholder (c.switchHolder.reach_le_startBelow hx.stepY) pad)
    (by linarith)).andThen fun u hu tested => ?_
  refine become_andThen le_rfl (tested.descends.revise fun tip mem => ?_) fun d hd opened => ?_
  · exact Option.some.inj mem ▸ tested.bottom
  refine (takeLine_tells opened le_rfl).andThen fun v hv lined => ?_
  refine (trunkTo_tells lined.descends lined.above lined.within false).andThen
    fun e he ⟨drawn, reach⟩ => ?_
  refine Tells.of_eq (Tells.pure ⟨drawn, lined.within.trans_eq reach.symm⟩) ?_
  subst ht hu hd hv he
  rfl

theorem recordGatherBreaks_tells (hholder : holder.Descends) (breaks : List (ℚ × ℚ)) :
    Tells Event.Descends Strand.Descends (x.recordGatherBreaks breaks holder)
      (.ok (x.gatherBreaks breaks holder)) := by
  unfold recordGatherBreaks gatherBreaks
  split
  · exact Tells.pure hholder
  · refine (takeLine_tells hholder le_rfl).andThen fun t ht lined => ?_
    refine Tells.of_eq (routeLine_tells lined .out _ _) ?_
    subst ht
    rfl

theorem drawTap_keepsTrunk (tap lastDx : ℚ) (holder : Strand ℚ) :
    holder.KeepsTrunk (drawTap tap lastDx holder) := by
  unfold drawTap
  split
  · exact draw_keepsTrunk holder _
  · exact .refl holder

theorem recordCloseSwitch_tells (hc : c.Descends) (hf : f.Descends tap) :
    Tells Event.Descends Strand.Descends (x.recordCloseSwitch tap f c)
      (.ok (x.closeSwitch tap f c)) := by
  refine become_andThen hf.reach (finish_descends hf) fun d hd finished => ?_
  refine (become_keeps finished (drawTap_keepsTrunk tap f.lastDx d)).andThen
    fun e he ⟨drawn, kept⟩ => ?_
  have hends : ∀ b ∈ f.ends, b.tip ≤ e.reach := by
    rw [kept.reach]
    subst hd
    exact hf.ends
  refine (recordSettle_tells drawn hends).andThen fun g hg settled => ?_
  refine (recordGatherBreaks_tells settled f.breaks).andThen fun h hh gathered => ?_
  refine Tells.of_eq (become_tells (le_max_left _ _) (adopt_descends hc gathered)) ?_
  subst hd he hg hh
  rfl

theorem recordOpenTry_tells (hx : x.Padded) (hc : c.Descends) :
    Tells Event.Descends (fun t => t.2.1.Descends ∧ t.2.2.Descends) (x.recordOpenTry c)
      (.ok (x.openTry c)) := by
  have frame := hx.frameY
  have hfork : c.fork.Descends := hc.branch hc.tip
  refine (takeLine_tells hfork (c.fork.reach_le_startBelow hx.stepY)).andThen fun t ht lined => ?_
  refine (trunkTo_tells lined.descends lined.above lined.within false).andThen
    fun d hd ⟨drawn, reach⟩ => ?_
  have more : d.reach ≤ d.reach + x.config.frame.padY := le_add_of_nonneg_right frame
  refine become_andThen more (drawn.branch fun tip mem => ?_) fun e he begun => ?_
  · split at mem
    · obtain rfl := Option.some.inj mem
      exact (lined.within.trans_eq reach.symm).trans more
    · cases mem
  refine Tells.of_eq (Tells.pure ⟨drawn, begun⟩) ?_
  subst ht hd he
  rfl

theorem recordFoot_tells {t : ℚ × Strand ℚ} (h : c.Lined t) :
    Tells Event.Descends Strand.Descends (recordFoot t.1 t.2)
      (.ok (if t.2.alive then t.2.trunkTo t.1 false else t.2)) := by
  unfold recordFoot
  split
  · refine (trunkTo_tells h.descends h.above h.within false).mono fun _ told => told.1
  · exact Tells.pure h.descends

theorem recordCloseFrame_tells (hx : x.Padded) (hbody : body.Descends) (hholder : holder.Descends)
    (top : ℚ) : Tells Event.Descends (fun framed => framed.holder.Descends)
      (x.recordCloseFrame top body holder) (.ok (x.closeFrame top body holder)) := by
  refine (takeLine_tells hbody (le_add_of_nonneg_right hx.frameY)).andThen fun t ht lined => ?_
  refine (recordFoot_tells lined).andThen fun b hb ended => ?_
  have more : holder.reach ≤ max holder.reach b.reach := le_max_left _ _
  refine become_andThen more (hholder.revise fun tip mem => (hholder.tip tip mem).trans more)
    fun d hd raised => ?_
  refine become_andThen (d.absorb_redraws b 0).reach.ge (raised.absorb ended.falls 0)
    fun e he merged => ?_
  refine (become_keeps merged (draw_keepsTrunk _ _)).andThen fun g hg ⟨framed, _⟩ => ?_
  refine Tells.of_eq (Tells.pure framed) ?_
  subst ht hb hd he hg
  rfl

theorem recordEnds_tells (hholder : holder.Descends) (ends : List (ℚ × ℚ)) :
    Tells Event.Descends Strand.Descends (recordEnds ends holder)
      (.ok (if ends.isEmpty then { holder with alive := false } else joinEnds ends holder)) := by
  unfold recordEnds
  split
  · exact become_tells le_rfl (hholder.revise hholder.tip)
  · exact recordJoin_tells hholder ends

theorem recordCloseTry_tells (hc : c.Descends) (hf : f.Descends tap) (framed : Framed ℚ) :
    Tells Event.Descends Strand.Descends (recordCloseTry tap framed f c)
      (.ok (closeTry tap framed f c)) := by
  refine become_andThen hf.reach (finish_descends hf) fun d hd finished => ?_
  refine (become_keeps finished (draw_keepsTrunk _ _)).andThen fun e he ⟨drawn, _⟩ => ?_
  refine (recordEnds_tells drawn _).andThen fun g hg ended => ?_
  refine Tells.of_eq (become_tells (le_max_left _ _) (adopt_descends hc ended)) ?_
  subst hd he hg
  rfl

theorem armFrom_descends (hc : c.Descends) {tip : ℚ} (within : tip ≤ c.reach) :
    (c.armFrom tip).Descends :=
  hc.branch fun _ mem => Option.some.inj mem ▸ within

theorem recordBelow_tells {block : Block} {tip : ℚ} (hc : c.Descends) (harm : Tells Event.Descends
      Strand.Descends (x.recordAll block (c.armFrom tip)) (x.arrangeAll block (c.armFrom tip))) :
    Tells Event.Descends Strand.Descends
      (x.recordAll block (c.armFrom tip) >>= fun arm => become c (closeBelow arm c))
      (x.arrangeAll block (c.armFrom tip) >>= fun arm => .ok (closeBelow arm c)) :=
  harm.bind fun _ arm => become_tells (le_max_left _ _) (closeBelow_descends hc arm)

theorem begun_tells {s : Statement} {m : Recording ℚ (Strand ℚ)} {r : Except LayoutFault (Strand ℚ)}
    (hc : c.Descends) (h : Tells Event.Descends Strand.Descends m r) :
    Tells Event.Descends Strand.Descends (note (.begins s c) >>= fun _ => m) r :=
  (Tells.note hc.tip).andThen fun _ _ _ => h

theorem ended_tells (hc : c.Descends) : Tells Event.Descends Strand.Descends
    (note (.ends c) >>= fun _ => (return c : Recording ℚ (Strand ℚ))) (.ok c) :=
  (Tells.note hc.tip).andThen fun _ _ _ => Tells.pure hc

mutual

theorem record_tells {c : Strand ℚ} (hx : x.Padded) (hc : c.Descends) (s : Statement) :
    Tells Event.Descends Strand.Descends (x.record s c) (x.arrange s c) := by
  cases s with
  | text content =>
      unfold record arrange
      exact begun_tells hc (recordText_tells hx hc content)
  | pass =>
      unfold record arrange
      have more : c.reach ≤ c.reach + x.config.stepY := le_add_of_nonneg_right hx.stepY
      exact begun_tells hc (become_tells more (hc.revise fun tip mem => (hc.tip tip mem).trans more))
  | jump j =>
      unfold record arrange
      exact begun_tells hc (recordJump_tells hx hc j)
  | flaw fault =>
      unfold record arrange
      exact begun_tells hc (Tells.throw fault)
  | decision test yes no =>
      unfold record arrange arrangeTest
      refine begun_tells hc ((Tells.lift _).bind fun yesJump _ => ?_)
      refine (Tells.lift _).bind fun noJump _ => ?_
      refine (Tells.lift _).bind fun exits chosen => ?_
      refine (recordDecision_tells hx hc test exits).bind fun t tested => ?_
      have hsouth := armFrom_descends tested.descends tested.bottom
      rcases chosen_cases chosen with ⟨j, d, k, e, -, -, -, rfl⟩ | ⟨k, e, -, -, rfl⟩ |
        ⟨j, d, -, -, rfl⟩ | ⟨-, -, rfl⟩
      · exact become_tells le_rfl (tested.descends.revise tested.descends.tip)
      · exact recordBelow_tells tested.descends (recordAll_tells hx hsouth yes)
      · exact recordBelow_tells tested.descends (recordAll_tells hx hsouth no)
      · refine (recordAll_tells hx hsouth yes).bind fun south below => ?_
        have shared : (t.2.share south).Descends := tested.descends.revise tested.descends.tip
        refine (recordAll_tells hx (armFrom_descends shared tested.middle) no).bind
          fun east beside => ?_
        refine become_andThen (le_max_left _ _) (closeBelow_descends tested.descends below)
          fun d hd closed => ?_
        subst hd
        exact recordBeside_tells closed beside
          (fun tip mem => (below.tip tip mem).trans (le_max_right _ _)) t.1
  | whileLoop test body =>
      unfold record arrange arrangeWhile
      refine begun_tells hc ((recordEnter_tells hx hc).andThen fun t ht entered => ?_)
      rw [ht]
      refine (recordOpenWhile_tells hx entered test).andThen fun u hu opened => ?_
      dsimp only
      rw [hu]
      refine (recordAll_tells hx opened body).bind fun inner ended => ?_
      refine (recordGatherBack_tells hx ended).bind fun v gathered => ?_
      exact recordCloseWhile_tells gathered entered t.1 u.1 v.1
  | doLoop body test =>
      unfold record arrange arrangeDo
      refine begun_tells hc ((recordEnter_tells hx hc).andThen fun t ht entered => ?_)
      rw [ht]
      have begun : (t.2.loopBody .doWhile).Descends := entered.branch entered.tip
      refine (recordAll_tells hx begun body).bind fun inner ended => ?_
      exact recordCloseDo_tells hx ended entered test t.1
  | switch subject cases =>
      unfold record arrange arrangeSwitch
      refine begun_tells hc ((recordOpenSwitch_tells hx hc subject).andThen
        fun t ht ⟨opened, tap⟩ => ?_)
      rw [ht]
      have begun := start_descends opened tap (t.1.width / 2.0)
      refine (recordBranches_tells hx ⟨t.2.1, some 0, true⟩ 0 begun cases).bind fun fan ended => ?_
      exact recordCloseSwitch_tells hc ended
  | tryBlock body handlers =>
      unfold record arrange arrangeTry
      refine begun_tells hc ((recordOpenTry_tells hx hc).andThen fun t ht ⟨opened, begun⟩ => ?_)
      rw [ht]
      refine (recordAll_tells hx begun body).bind fun inner ended => ?_
      refine (recordCloseFrame_tells hx ended opened t.1).andThen fun framed hframed drawn => ?_
      rw [hframed]
      refine (takeLine_tells drawn le_rfl).andThen fun u hu lined => ?_
      dsimp only
      rw [hu]
      have beside := start_descends lined.descends lined.within framed.right
      refine (recordBranches_tells hx ⟨u.1, none, false⟩ 0 beside handlers).bind
        fun fan joined => ?_
      exact recordCloseTry_tells hc joined framed

theorem recordAll_tells {c : Strand ℚ} (hx : x.Padded) (hc : c.Descends) (block : Block) :
    Tells Event.Descends Strand.Descends (x.recordAll block c) (x.arrangeAll block c) := by
  cases block with
  | nil =>
      unfold recordAll arrangeAll
      exact ended_tells hc
  | cons s rest =>
      unfold recordAll arrangeAll
      split
      · exact (record_tells hx hc s).bind fun d next => recordAll_tells hx next rest
      · exact ended_tells hc

theorem recordBranches_tells {f : Fan ℚ} (hx : x.Padded) (plan : FanPlan ℚ) (index : Nat)
    (hf : f.Descends plan.tap) (branches : Branches) :
    Tells Event.Descends (Fan.Descends plan.tap) (x.recordBranches plan index branches f)
      (x.arrangeBranches index branches plan f) := by
  cases branches with
  | nil =>
      unfold recordBranches arrangeBranches
      exact Tells.pure hf
  | cons branch rest =>
      obtain ⟨label, block⟩ := branch
      unfold recordBranches arrangeBranches
      have begun : Strand.Descends { f.holder.fork with tip := some plan.tap } :=
        armFrom_descends hf.holder hf.tap
      refine (recordLabel_tells begun label).andThen fun arm harm labelled => ?_
      rw [openBranch, harm]
      refine (recordAll_tells hx labelled block).bind fun arm ended => ?_
      refine (recordBranch_tells hf ended plan index).andThen fun g hg added => ?_
      rw [hg]
      exact recordBranches_tells hx plan (index + 1) added rest

end

theorem recordTrunk_tells (hx : x.Padded) (block : Block) :
    Tells Event.Descends Strand.Descends (x.recordTrunk block) (x.arrangeAll block x.root) := by
  refine recordAll_tells hx ⟨?_, ?_, ?_⟩ block
  · exact div_nonneg hx.margin (by norm_num)
  · exact fun _ mem => absurd mem (Option.not_mem_none _)
  · exact fun _ _ mem => absurd mem List.not_mem_nil

end Context

/-- Every source that the parser accepts has a layout in which the trunk only grows downward. A
recording of that layout tells of every strand how it came about from the root, and so it tells that no
strand ever takes back what it has in use, that the end of its trunk lies within that whenever a
statement begins or a block ends, and that no trunk is drawn to a y above its end; no piece of a trunk
leads upward. -/
theorem layout_trunks_descend (config : Config ℚ) (measure : Measure ℚ)
    (hspace : (⟨config, measure⟩ : Context ℚ).Padded) (source : String) (program : Node)
    (h : config.lexis.parse source = .ok program) :
    ∃ c events, (⟨config, measure⟩ : Context ℚ).trunk program = .ok c ∧
      Layout.ofProgram config measure program = .ok ((⟨config, measure⟩ : Context ℚ).canvas c.group) ∧
      ((⟨config, measure⟩ : Context ℚ).recordTrunk (Block.ofProgram program)).run [] =
        .ok (c, events) ∧
      (∀ e ∈ events, Stems events e.strand) ∧ Stems events c ∧
      (∀ before after, .change before after ∈ events → before.reach ≤ after.reach) ∧
      (∀ s d, .begins s d ∈ events → ∀ tip ∈ d.tip, tip ≤ d.reach) ∧
      (∀ d, .ends d ∈ events → ∀ tip ∈ d.tip, tip ≤ d.reach) ∧
      (∀ d y, .trunk d y ∈ events → ∀ tip ∈ d.tip, tip ≤ y) ∧
      ∀ top bottom, .trunk top bottom ∈ c.journal → top ≤ bottom := by
  have hprogram := Rules.isProgram_of_parse h
  obtain ⟨l, hl⟩ := Context.ofProgram_ok config measure hprogram
  obtain ⟨c, hc, rfl⟩ := Layout.ofProgram_eq_ok_iff.mp hl
  have told := Context.recordTrunk_tells hspace (Block.ofProgram program)
  obtain ⟨events, descends, ran⟩ := told.run []
  rw [hc] at ran
  obtain ⟨-, accounts, stems⟩ := Context.recordTrunk_adds _ c events ran
  refine ⟨c, events, (Context.trunk_eq program).trans hc, hl, ran, accounts, stems, ?_, ?_, ?_, ?_,
    (told.post c hc).falls⟩
  · exact fun _ _ mem => descends _ mem
  · exact fun _ _ mem => descends _ mem
  · exact fun _ mem => descends _ mem
  · exact fun _ _ mem => descends _ mem

/-- The trunk of the sample only grows downward, through the loop and its test to the last text. -/
theorem layout_trunks_descend_sample :
    (⟨Config.classic, fun _ _ => ⟨30, 10⟩⟩ : Context ℚ).Padded ∧
    (Config.classic : Config ℚ).lexis.parse Sample.source = .ok Sample.program ∧
    ∃ c events, (⟨Config.classic, fun _ _ => ⟨30, 10⟩⟩ : Context ℚ).trunk Sample.program = .ok c ∧
      Layout.ofProgram Config.classic (fun _ _ => ⟨30, 10⟩ : Measure ℚ) Sample.program =
        .ok ((⟨Config.classic, fun _ _ => ⟨30, 10⟩⟩ : Context ℚ).canvas c.group) ∧
      ((⟨Config.classic, fun _ _ => ⟨30, 10⟩⟩ : Context ℚ).recordTrunk
        (Block.ofProgram Sample.program)).run [] = .ok (c, events) ∧
      (∀ e ∈ events, Stems events e.strand) ∧ Stems events c ∧
      (∀ before after, .change before after ∈ events → before.reach ≤ after.reach) ∧
      (∀ s d, .begins s d ∈ events → ∀ tip ∈ d.tip, tip ≤ d.reach) ∧
      (∀ d, .ends d ∈ events → ∀ tip ∈ d.tip, tip ≤ d.reach) ∧
      (∀ d y, .trunk d y ∈ events → ∀ tip ∈ d.tip, tip ≤ y) ∧
      ∀ top bottom, .trunk top bottom ∈ c.journal → top ≤ bottom := by
  have hspace : (⟨Config.classic, fun _ _ => ⟨30, 10⟩⟩ : Context ℚ).Padded :=
    Context.padded_classic fun _ _ => by norm_num
  exact ⟨hspace, Sample.parse_source, layout_trunks_descend Config.classic (fun _ _ => ⟨30, 10⟩)
    hspace Sample.source Sample.program Sample.parse_source⟩

end Flowchart
