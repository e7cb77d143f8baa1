import Flowchart.Proofs.Chart.Recorded
import Flowchart.Proofs.Outcome
/-! What a recording leaves out: nothing. Every strand that it tells of stems from the root of the
drawing, by changes that are noted and by branches that begin where such a strand has got to. -/
namespace Flowchart
variable {α β γ : Type} [Scalar α]

/-- The strand that an event is about, as it was before. -/
def Event.strand : Event α → Strand α
  | .change before _ => before
  | .trunk c _ | .begins _ c | .ends c => c

/-- What is noted accounts for a strand: a noted change made it of a strand that is accounted for, or
nothing is drawn on it yet and it begins where one has got to. -/
inductive Stems (events : List (Event α)) : Strand α → Prop where
  | root (pad : α) (debug : Bool) : Stems events (.root pad debug)
  | change {c d : Strand α} (h : Stems events c) (noted : .change c d ∈ events) : Stems events d
  | branch {c d : Strand α} (h : Stems events c) (blank : d.group = .empty) (fresh : d.journal = [])
    (reach : d.reach = c.reach) : Stems events d

/-- What is noted accounts for every strand that it tells of. -/
def Accounts (events : List (Event α)) : Prop := ∀ e ∈ events, Stems events e.strand

/-- Begun after some events, a recording adds to them, and what is noted by then accounts for all. -/
def Recording.Adds (log : List (Event α)) (m : Recording α β)
    (post : β → List (Event α) → Prop) : Prop :=
  ∀ v after, m.run log = .ok (v, after) → log ⊆ after ∧ Accounts after ∧ post v after

variable {log : List (Event α)}

theorem Stems.mono {after : List (Event α)} {c : Strand α} (h : Stems log c) (more : log ⊆ after) :
    Stems after c := by
  induction h with
  | root pad debug => exact .root pad debug
  | change _ noted ih => exact .change ih (more noted)
  | branch _ blank fresh reach ih => exact .branch ih blank fresh reach

namespace Recording
variable {c d : Strand α} {m : Recording α β} {next : β → Recording α γ}
  {post : β → List (Event α) → Prop} {last : γ → List (Event α) → Prop}

theorem Adds.pure {v : β} (hlog : Accounts log) (h : post v log) : Adds log (pure v) post := by
  intro w after ran
  cases ran
  exact ⟨List.Subset.refl log, hlog, h⟩

theorem Adds.throw (fault : LayoutFault) : Adds log (throw fault : Recording α β) post := by
  intro w after ran
  cases ran

theorem Adds.lift (hlog : Accounts log) (r : Except LayoutFault β) :
    Adds log (liftM r : Recording α β) (fun v _ => r = .ok v) := by
  intro w after ran
  cases r with
  | error fault => cases ran
  | ok v =>
      cases ran
      exact ⟨List.Subset.refl log, hlog, rfl⟩

theorem Adds.note (hlog : Accounts log) (e : Event α) (h : Stems log e.strand) :
    Adds log (note e) (fun _ after => e ∈ after) := by
  intro w after ran
  cases ran
  have more : log ⊆ log ++ [e] := List.subset_append_left log [e]
  have last : e ∈ log ++ [e] := List.mem_append_right log (List.mem_singleton_self e)
  refine ⟨more, fun other mem => ?_, last⟩
  obtain mem | mem := List.mem_append.mp mem
  · exact (hlog other mem).mono more
  · rw [List.mem_singleton.mp mem]
    exact h.mono more

theorem Adds.bind (h : Adds log m post)
    (k : ∀ v mid, log ⊆ mid → Accounts mid → post v mid → Adds mid (next v) last) :
    Adds log (m >>= next) last := by
  intro w after ran
  rw [StateT.run_bind] at ran
  obtain ⟨⟨v, mid⟩, first, ran⟩ := exists_of_bind_eq_ok ran
  obtain ⟨more, hmid, told⟩ := h v mid first
  obtain ⟨more', hafter, ended⟩ := k v mid more hmid told w after ran
  exact ⟨List.Subset.trans more more', hafter, ended⟩

theorem become_adds (hlog : Accounts log) (hc : Stems log c) :
    Adds log (become c d) (fun e after => Stems after e) := by
  refine (Adds.note hlog (.change c d) hc).bind fun _ mid more hmid noted => ?_
  exact Adds.pure hmid (.change (hc.mono more) noted)

theorem takeBand_adds (hlog : Accounts log) (hc : Stems log c) (start size : α) :
    Adds log (takeBand c start size) (fun t after => Stems after t.2) := by
  refine (become_adds hlog hc).bind fun d _ _ hlog hd => ?_
  exact Adds.pure hlog hd

theorem takeExit_adds (hlog : Accounts log) (hc : Stems log c) (start size : α) (east : Bool) :
    Adds log (takeExit c start size east) (fun t after => Stems after t.2) := by
  refine (Adds.lift hlog _).bind fun t _ more hlog _ => ?_
  refine (become_adds hlog (hc.mono more)).bind fun d _ _ hlog hd => ?_
  exact Adds.pure hlog hd

theorem takeLine_adds (hlog : Accounts log) (hc : Stems log c) (start : α) :
    Adds log (takeLine c start) (fun t after => Stems after t.2) := by
  refine (takeBand_adds hlog hc _ _).bind fun t _ _ hlog ht => ?_
  exact Adds.pure hlog ht

theorem trunkTo_adds (hlog : Accounts log) (hc : Stems log c) (y : α) (arrow : Bool) :
    Adds log (trunkTo c y arrow) (fun d after => Stems after d) := by
  refine (Adds.note hlog (.trunk c y) hc).bind fun _ _ more hlog _ => ?_
  exact become_adds hlog (hc.mono more)

theorem drawDecision_adds (hlog : Accounts log) (hc : Stems log c) (diamond : Group α) (top : α) :
    Adds log (drawDecision c diamond top) (fun t after => Stems after t.2) := by
  refine (trunkTo_adds hlog hc _ _).bind fun c _ _ hlog hc => ?_
  refine (become_adds hlog hc).bind fun c _ _ hlog hc => ?_
  exact Adds.pure hlog hc

end Recording

namespace Context
open Recording
variable {x : Context α} {c arm body holder : Strand α} {f : Fan α}

theorem recordText_adds (hlog : Accounts log) (hc : Stems log c) (content : String) :
    Adds log (x.recordText content c) (fun d after => Stems after d) := by
  refine (takeBand_adds hlog hc _ _).bind fun t _ _ hlog hc => ?_
  refine (trunkTo_adds hlog hc _ _).bind fun c _ _ hlog hc => ?_
  refine (become_adds hlog hc).bind fun c _ _ hlog hc => ?_
  exact become_adds hlog hc

theorem recordJump_adds (hlog : Accounts log) (hc : Stems log c) (j : Jump) :
    Adds log (x.recordJump j c) (fun d after => Stems after d) := by
  refine (Adds.lift hlog _).bind fun d _ more hlog _ => ?_
  refine (takeExit_adds hlog (hc.mono more) _ _ _).bind fun t _ _ hlog hc => ?_
  refine (trunkTo_adds hlog hc _ _).bind fun c _ _ hlog hc => ?_
  refine (become_adds hlog hc).bind fun c _ _ hlog hc => ?_
  exact become_adds hlog hc

theorem recordBand_adds (hlog : Accounts log) (hc : Stems log c) (test : String)
    (exits : Exit × Exit) :
    Adds log (x.recordBand test exits c) (fun t after => Stems after t.2) := by
  unfold recordBand
  dsimp only
  split
  · exact takeBand_adds hlog hc _ _
  · exact takeExit_adds hlog hc _ _ _

theorem recordExits_adds (hlog : Accounts log) (hc : Stems log c) (test : String)
    (exits : Exit × Exit) (top : α) :
    Adds log (x.recordExits test exits top c) (fun t after => Stems after t.2) := by
  refine (drawDecision_adds hlog hc _ _).bind fun t _ _ hlog hc => ?_
  refine (become_adds hlog hc).bind fun c _ _ hlog hc => ?_
  refine (become_adds hlog hc).bind fun c _ _ hlog hc => ?_
  refine (become_adds hlog hc).bind fun c _ _ hlog hc => ?_
  exact Adds.pure hlog hc

theorem recordDecision_adds (hlog : Accounts log) (hc : Stems log c) (test : String)
    (exits : Exit × Exit) :
    Adds log (x.recordDecision test exits c) (fun t after => Stems after t.2) := by
  refine (recordBand_adds hlog hc test exits).bind fun t _ _ hlog hc => ?_
  refine (become_adds hlog hc).bind fun c _ _ hlog hc => ?_
  exact recordExits_adds hlog hc test exits _

theorem recordBeside_adds (hlog : Accounts log) (hc : Stems log c) (box : DecisionBox α)
    (below arm : Strand α) :
    Adds log (x.recordBeside box below arm c) (fun d after => Stems after d) := by
  refine (become_adds hlog hc).bind fun merged _ _ hlog hc => ?_
  split
  · refine (takeLine_adds hlog hc _).bind fun t _ _ hlog hc => ?_
    refine (become_adds hlog hc).bind fun c _ _ hlog hc => ?_
    refine (become_adds hlog hc).bind fun c _ _ hlog hc => ?_
    refine (trunkTo_adds hlog hc _ _).bind fun c _ _ hlog hc => ?_
    exact become_adds hlog hc
  · exact Adds.pure hlog hc

theorem recordEnter_adds (hlog : Accounts log) (hc : Stems log c) :
    Adds log (x.recordEnter c) (fun t after => Stems after t.2) := by
  refine (takeLine_adds hlog hc _).bind fun t _ _ hlog hc => ?_
  refine (trunkTo_adds hlog hc _ _).bind fun c _ _ hlog hc => ?_
  exact Adds.pure hlog hc

theorem recordOpenWhile_adds (hlog : Accounts log) (hc : Stems log c) (test : String) :
    Adds log (x.recordOpenWhile test c) (fun t after => Stems after t.2) := by
  have hbody : Stems log (c.loopBody .whileLoop) := hc.branch rfl rfl rfl
  refine (takeBand_adds hlog hbody _ _).bind fun t _ _ hlog hbody => ?_
  refine (drawDecision_adds hlog hbody _ _).bind fun t _ _ hlog hbody => ?_
  refine (become_adds hlog hbody).bind fun body _ _ hlog hbody => ?_
  refine (become_adds hlog hbody).bind fun body _ _ hlog hbody => ?_
  refine (become_adds hlog hbody).bind fun body _ _ hlog hbody => ?_
  exact Adds.pure hlog hbody

theorem recordGatherBack_adds (hlog : Accounts log) (hbody : Stems log body) :
    Adds log (x.recordGatherBack body) (fun t after => Stems after t.2) := by
  refine (become_adds hlog hbody).bind fun body _ _ hlog hbody => ?_
  split
  · refine (takeExit_adds hlog hbody _ _ _).bind fun t _ _ hlog hbody => ?_
    refine (trunkTo_adds hlog hbody _ _).bind fun body _ _ hlog hbody => ?_
    exact Adds.pure hlog hbody
  · exact Adds.pure hlog hbody

theorem recordCloseWhile_adds (hlog : Accounts log) (hbody : Stems log body) (hc : Stems log c)
    (entry : α) (box : DecisionBox α) (back : List (α × α)) :
    Adds log (x.recordCloseWhile entry box back body c) (fun d after => Stems after d) := by
  refine (become_adds hlog hbody).bind fun body _ more hlog hbody => ?_
  replace hc := hc.mono more
  refine (become_adds hlog hbody).bind fun body _ more hlog hbody => ?_
  replace hc := hc.mono more
  refine (become_adds hlog hc).bind fun c _ more hlog hc => ?_
  replace hbody := hbody.mono more
  refine (takeLine_adds hlog hc _).bind fun t _ more hlog hc => ?_
  replace hbody := hbody.mono more
  refine (become_adds hlog hbody).bind fun body _ more hlog hbody => ?_
  replace hc := hc.mono more
  refine (become_adds hlog hc).bind fun c _ _ hlog hc => ?_
  exact become_adds hlog hc

theorem recordGatherOnward_adds (hlog : Accounts log) (hbody : Stems log body) :
    Adds log (x.recordGatherOnward body) (fun d after => Stems after d) := by
  refine (become_adds hlog hbody).bind fun body _ _ hlog hbody => ?_
  split
  · exact Adds.pure hlog hbody
  · refine (takeLine_adds hlog hbody _).bind fun t _ _ hlog hbody => ?_
    refine (become_adds hlog hbody).bind fun body _ _ hlog hbody => ?_
    refine (trunkTo_adds hlog hbody _ _).bind fun body _ _ hlog hbody => ?_
    refine (become_adds hlog hbody).bind fun body _ _ hlog hbody => ?_
    exact become_adds hlog hbody

theorem recordTestDo_adds (hlog : Accounts log) (hbody : Stems log body) (test : String)
    (entry : α) : Adds log (x.recordTestDo test entry body) (fun t after => Stems after t.2) := by
  refine (takeBand_adds hlog hbody _ _).bind fun t _ _ hlog hbody => ?_
  refine (become_adds hlog hbody).bind fun body _ _ hlog hbody => ?_
  refine (drawDecision_adds hlog hbody _ _).bind fun t _ _ hlog hbody => ?_
  refine (become_adds hlog hbody).bind fun body _ _ hlog hbody => ?_
  refine (become_adds hlog hbody).bind fun body _ _ hlog hbody => ?_
  refine (become_adds hlog hbody).bind fun body _ _ hlog hbody => ?_
  refine (become_adds hlog hbody).bind fun body _ _ hlog hbody => ?_
  exact Adds.pure hlog hbody

theorem recordCloseDo_adds (hlog : Accounts log) (hbody : Stems log body) (hc : Stems log c)
    (test : String) (entry : α) :
    Adds log (x.recordCloseDo test entry body c) (fun d after => Stems after d) := by
  refine (recordGatherOnward_adds hlog hbody).bind fun body _ more hlog hbody => ?_
  replace hc := hc.mono more
  refine (recordTestDo_adds hlog hbody test entry).bind fun t _ more hlog hbody => ?_
  replace hc := hc.mono more
  refine (become_adds hlog hbody).bind fun body _ more hlog hbody => ?_
  refine (become_adds hlog (hc.mono more)).bind fun c _ more hlog hc => ?_
  replace hbody := hbody.mono more
  split
  · refine (become_adds hlog hc).bind fun c _ _ hlog hc => ?_
    exact become_adds hlog hc
  · refine (takeLine_adds hlog hc _).bind fun t _ more hlog hc => ?_
    refine (trunkTo_adds hlog (hbody.mono more) _ _).bind fun body _ more hlog hbody => ?_
    replace hc := hc.mono more
    refine (become_adds hlog hbody).bind fun body _ more hlog hbody => ?_
    refine (become_adds hlog (hc.mono more)).bind fun c _ _ hlog hc => ?_
    exact become_adds hlog hc

theorem recordLabel_adds (hlog : Accounts log) (harm : Stems log arm) (text : String) :
    Adds log (x.recordLabel text arm) (fun d after => Stems after d) := by
  unfold recordLabel
  split
  · exact Adds.pure hlog harm
  · refine (takeBand_adds hlog harm _ _).bind fun t _ _ hlog harm => ?_
    exact become_adds hlog harm

theorem recordBranch_adds (hlog : Accounts log) (hf : Stems log f.holder) (plan : FanPlan α)
    (index : Nat) (arm : Strand α) :
    Adds log (x.recordBranch plan index arm f) (fun g after => Stems after g.holder) := by
  refine (become_adds hlog hf).bind fun holder _ _ hlog hholder => ?_
  exact Adds.pure hlog hholder

theorem recordJoin_adds (hlog : Accounts log) (hholder : Stems log holder) (ends : List (α × α)) :
    Adds log (recordJoin ends holder) (fun d after => Stems after d) := by
  refine (takeLine_adds hlog hholder _).bind fun t _ _ hlog hholder => ?_
  refine (become_adds hlog hholder).bind fun holder _ _ hlog hholder => ?_
  exact become_adds hlog hholder

theorem recordOpenSwitch_adds (hlog : Accounts log) (hc : Stems log c) (subject : String) :
    Adds log (x.recordOpenSwitch subject c) (fun t after => Stems after t.2.2) := by
  have hholder : Stems log c.switchHolder := hc.branch rfl rfl rfl
  refine (takeBand_adds hlog hholder _ _).bind fun t _ _ hlog hholder => ?_
  refine (drawDecision_adds hlog hholder _ _).bind fun t _ _ hlog hholder => ?_
  refine (become_adds hlog hholder).bind fun holder _ _ hlog hholder => ?_
  refine (takeLine_adds hlog hholder _).bind fun t _ _ hlog hholder => ?_
  refine (trunkTo_adds hlog hholder _ _).bind fun holder _ _ hlog hholder => ?_
  exact Adds.pure hlog hholder

theorem recordSettle_adds (hlog : Accounts log) (hholder : Stems log holder)
    (ends : List (BranchEnd α)) :
    Adds log (recordSettle ends holder) (fun d after => Stems after d) := by
  unfold recordSettle
  split
  · exact become_adds hlog hholder
  · exact become_adds hlog hholder
  · exact recordJoin_adds hlog hholder _

theorem recordGatherBreaks_adds (hlog : Accounts log) (hholder : Stems log holder)
    (breaks : List (α × α)) :
    Adds log (x.recordGatherBreaks breaks holder) (fun d after => Stems after d) := by
  unfold recordGatherBreaks
  split
  · exact Adds.pure hlog hholder
  · refine (takeLine_adds hlog hholder _).bind fun t _ _ hlog hholder => ?_
    refine (become_adds hlog hholder).bind fun holder _ _ hlog hholder => ?_
    refine (trunkTo_adds hlog hholder _ _).bind fun holder _ _ hlog hholder => ?_
    refine (become_adds hlog hholder).bind fun holder _ _ hlog hholder => ?_
    exact become_adds hlog hholder

theorem recordCloseSwitch_adds (hlog : Accounts log) (hf : Stems log f.holder) (hc : Stems log c)
    (tap : α) : Adds log (x.recordCloseSwitch tap f c) (fun d after => Stems after d) := by
  refine (become_adds hlog hf).bind fun holder _ more hlog hholder => ?_
  replace hc := hc.mono more
  refine (become_adds hlog hholder).bind fun holder _ more hlog hholder => ?_
  replace hc := hc.mono more
  refine (recordSettle_adds hlog hholder f.ends).bind fun holder _ more hlog hholder => ?_
  replace hc := hc.mono more
  refine (recordGatherBreaks_adds hlog hholder f.breaks).bind fun holder _ more hlog _ => ?_
  exact become_adds hlog (hc.mono more)

theorem recordOpenTry_adds (hlog : Accounts log) (hc : Stems log c) :
    Adds log (x.recordOpenTry c) (fun t after => Stems after t.2.1 ∧ Stems after t.2.2) := by
  have hholder : Stems log c.fork := hc.branch rfl rfl rfl
  refine (takeLine_adds hlog hholder _).bind fun t _ _ hlog hholder => ?_
  refine (trunkTo_adds hlog hholder _ _).bind fun holder _ _ hlog hholder => ?_
  have hbody : Stems _ holder.fork := hholder.branch rfl rfl rfl
  refine (become_adds hlog hbody).bind fun body _ more hlog hbody => ?_
  exact Adds.pure hlog ⟨hholder.mono more, hbody⟩

theorem recordFoot_adds (hlog : Accounts log) (hbody : Stems log body) (bottom : α) :
    Adds log (recordFoot bottom body) (fun d after => Stems after d) := by
  unfold recordFoot
  split
  · exact trunkTo_adds hlog hbody bottom false
  · exact Adds.pure hlog hbody

theorem recordCloseFrame_adds (hlog : Accounts log) (hbody : Stems log body)
    (hholder : Stems log holder) (top : α) :
    Adds log (x.recordCloseFrame top body holder) (fun framed after => Stems after framed.holder) := by
  refine (takeLine_adds hlog hbody _).bind fun t _ more hlog hbody => ?_
  replace hholder := hholder.mono more
  refine (recordFoot_adds hlog hbody _).bind fun body _ more hlog _ => ?_
  refine (become_adds hlog (hholder.mono more)).bind fun holder _ _ hlog hholder => ?_
  refine (become_adds hlog hholder).bind fun holder _ _ hlog hholder => ?_
  refine (become_adds hlog hholder).bind fun holder _ _ hlog hholder => ?_
  exact Adds.pure hlog hholder

theorem recordEnds_adds (hlog : Accounts log) (hholder : Stems log holder) (ends : List (α × α)) :
    Adds log (recordEnds ends holder) (fun d after => Stems after d) := by
  unfold recordEnds
  split
  · exact become_adds hlog hholder
  · exact recordJoin_adds hlog hholder ends

theorem recordCloseTry_adds (hlog : Accounts log) (hf : Stems log f.holder) (hc : Stems log c)
    (tap : α) (framed : Framed α) :
    Adds log (recordCloseTry tap framed f c) (fun d after => Stems after d) := by
  refine (become_adds hlog hf).bind fun holder _ more hlog hholder => ?_
  replace hc := hc.mono more
  refine (become_adds hlog hholder).bind fun holder _ more hlog hholder => ?_
  replace hc := hc.mono more
  refine (recordEnds_adds hlog hholder _).bind fun holder _ more hlog _ => ?_
  exact become_adds hlog (hc.mono more)

mutual

theorem record_adds {log : List (Event α)} {c : Strand α} (hlog : Accounts log) (hc : Stems log c)
    (s : Statement) : Adds log (x.record s c) (fun d after => Stems after d) := by
  unfold record
  refine (Adds.note hlog (.begins s c) hc).bind fun _ _ more hlog _ => ?_
  replace hc := hc.mono more
  cases s with
  | text content => exact recordText_adds hlog hc content
  | pass => exact become_adds hlog hc
  | jump j => exact recordJump_adds hlog hc j
  | flaw fault => exact Adds.throw fault
  | decision test yes no =>
      refine (Adds.lift hlog _).bind fun yesJump _ more hlog _ => ?_
      replace hc := hc.mono more
      refine (Adds.lift hlog _).bind fun noJump _ more hlog _ => ?_
      replace hc := hc.mono more
      refine (Adds.lift hlog _).bind fun exits _ more hlog _ => ?_
      replace hc := hc.mono more
      refine (recordDecision_adds hlog hc test exits).bind fun t _ _ hlog hc => ?_
      have hsouth : Stems _ (t.2.armFrom t.1.bottom) := hc.branch rfl rfl rfl
      dsimp only
      split
      · refine (recordAll_adds hlog hsouth yes).bind fun south _ more hlog _ => ?_
        replace hc := hc.mono more
        have heast : Stems _ ((t.2.share south).armFrom t.1.middle) := hc.branch rfl rfl rfl
        refine (recordAll_adds hlog heast no).bind fun east _ more hlog _ => ?_
        refine (become_adds hlog (hc.mono more)).bind fun c _ _ hlog hc => ?_
        exact recordBeside_adds hlog hc t.1 south east
      · refine (recordAll_adds hlog hsouth yes).bind fun arm _ more hlog _ => ?_
        exact become_adds hlog (hc.mono more)
      · refine (recordAll_adds hlog hsouth no).bind fun arm _ more hlog _ => ?_
        exact become_adds hlog (hc.mono more)
      · exact become_adds hlog hc
  | whileLoop test body =>
      refine (recordEnter_adds hlog hc).bind fun t _ _ hlog hc => ?_
      refine (recordOpenWhile_adds hlog hc test).bind fun u _ more hlog hinner => ?_
      replace hc := hc.mono more
      refine (recordAll_adds hlog hinner body).bind fun inner _ more hlog hinner => ?_
      replace hc := hc.mono more
      refine (recordGatherBack_adds hlog hinner).bind fun v _ more hlog hinner => ?_
      exact recordCloseWhile_adds hlog hinner (hc.mono more) t.1 u.1 v.1
  | doLoop body test =>
      refine (recordEnter_adds hlog hc).bind fun t _ _ hlog hc => ?_
      have hbody : Stems _ (t.2.loopBody .doWhile) := hc.branch rfl rfl rfl
      refine (recordAll_adds hlog hbody body).bind fun inner _ more hlog hinner => ?_
      exact recordCloseDo_adds hlog hinner (hc.mono more) test t.1
  | switch subject cases =>
      refine (recordOpenSwitch_adds hlog hc subject).bind fun t _ more hlog hholder => ?_
      replace hc := hc.mono more
      refine (recordBranches_adds hlog hholder ⟨t.2.1, some 0, true⟩ 0 cases).bind
        fun fan _ more hlog hfan => ?_
      exact recordCloseSwitch_adds hlog hfan (hc.mono more) t.2.1
  | tryBlock body handlers =>
      refine (recordOpenTry_adds hlog hc).bind fun t _ more hlog ⟨hholder, hinner⟩ => ?_
      replace hc := hc.mono more
      refine (recordAll_adds hlog hinner body).bind fun inner _ more hlog hinner => ?_
      replace hc := hc.mono more
      refine (recordCloseFrame_adds hlog hinner (hholder.mono more) t.1).bind
        fun framed _ more hlog hholder => ?_
      replace hc := hc.mono more
      refine (takeLine_adds hlog hholder _).bind fun u _ more hlog hholder => ?_
      replace hc := hc.mono more
      refine (recordBranches_adds hlog hholder ⟨u.1, none, false⟩ 0 handlers).bind
        fun fan _ more hlog hfan => ?_
      exact recordCloseTry_adds hlog hfan (hc.mono more) u.1 framed

theorem recordAll_adds {log : List (Event α)} {c : Strand α} (hlog : Accounts log)
    (hc : Stems log c) (block : Block) :
    Adds log (x.recordAll block c) (fun d after => Stems after d) := by
  cases block with
  | nil =>
      unfold recordAll
      refine (Adds.note hlog (.ends c) hc).bind fun _ _ more hlog _ => ?_
      exact Adds.pure hlog (hc.mono more)
  | cons s rest =>
      unfold recordAll
      split
      · exact (record_adds hlog hc s).bind fun d _ _ hlog hd => recordAll_adds hlog hd rest
      · refine (Adds.note hlog (.ends c) hc).bind fun _ _ more hlog _ => ?_
        exact Adds.pure hlog (hc.mono more)

theorem recordBranches_adds {log : List (Event α)} {f : Fan α} (hlog : Accounts log)
    (hf : Stems log f.holder) (plan : FanPlan α) (index : Nat) (branches : Branches) :
    Adds log (x.recordBranches plan index branches f) (fun g after => Stems after g.holder) := by
  cases branches with
  | nil =>
      unfold recordBranches
      exact Adds.pure hlog hf
  | cons branch rest =>
      obtain ⟨label, block⟩ := branch
      unfold recordBranches
      have harm : Stems log { f.holder.fork with tip := some plan.tap } := hf.branch rfl rfl rfl
      refine (recordLabel_adds hlog harm label).bind fun arm _ more hlog harm => ?_
      replace hf := hf.mono more
      refine (recordAll_adds hlog harm block).bind fun arm _ more hlog _ => ?_
      refine (recordBranch_adds hlog (hf.mono more) plan index arm).bind fun g _ _ hlog hg => ?_
      exact recordBranches_adds hlog hg plan (index + 1) rest

end

theorem recordTrunk_adds (block : Block) :
    Adds [] (x.recordTrunk block) (fun d after => Stems after d) :=
  recordAll_adds (List.forall_mem_nil _) (.root _ _) block

end Context
end Flowchart
