import Flowchart.Proofs.Chart.Frame
import Flowchart.Proofs.Chart.Statements
import Flowchart.Proofs.Lane.Search
import Flowchart.Proofs.Pseudocode.RoundTrip
/-! A program that the parser accepts is laid out. The jumps of its statements find their targets,
the exits of each decision part, and each search for a free position ends. -/
namespace Flowchart
open RangeSet (stops_reserve stops_fold commonFit?_isSome)

variable {α : Type} [Scalar α]

structure Lanes.Stops (l : Lanes α) : Prop where
  west : RangeSet.Stops l.west.spans
  east : RangeSet.Stops l.east.spans

namespace Lanes

theorem Stops.empty : (empty : Lanes α).Stops := ⟨nofun, nofun⟩

theorem Stops.inner {l : Lanes α} (h : l.Stops) (top : α) : (l.inner top).Stops := ⟨nofun, h.east⟩

variable [LawfulScalar α] {l body : Lanes α}

theorem Stops.placeBand (h : l.Stops) (start size : α) : (l.placeBand start size).2.Stops :=
  ⟨stops_reserve h.west _ _, h.east⟩

theorem Stops.placeExit (h : l.Stops) {start size pos : α} {east : Bool} {l' : Lanes α}
    (hplace : l.placeExit? start size east = some (pos, l')) : l'.Stops := by
  obtain ⟨found, -, hfound⟩ := Option.map_eq_some_iff.mp hplace
  cases hfound
  refine ⟨stops_reserve h.west _ _, ?_⟩
  dsimp only
  split
  · exact stops_reserve h.east _ _
  · exact h.east

theorem Stops.fold (h : l.Stops) (body : Lanes α) : (l.fold body).Stops :=
  ⟨stops_fold h.west _, stops_fold h.east _⟩

end Lanes

def Stage.KeepsStops : Stage α → Prop
  | .statement _ c c' => c.lanes.Stops → c'.lanes.Stops
  | .block _ c c' => c.lanes.Stops → c'.lanes.Stops
  | .branches _ _ _ f f' => f.holder.lanes.Stops → f'.holder.lanes.Stops

namespace Strand
variable {c d : Strand α}

theorem Redraws.stops (h : c.Redraws d) (hc : c.lanes.Stops) : d.lanes.Stops := by
  rw [h.lanes]
  exact hc

variable [LawfulScalar α]

theorem takeLine_stops {start y : α} (hc : c.lanes.Stops) (h : c.takeLine start = (y, d)) :
    d.lanes.Stops := by
  cases h
  exact hc.placeBand _ _

theorem takeExit_stops {start size pos : α} {east : Bool} (hc : c.lanes.Stops)
    (h : c.takeExit start size east = .ok (pos, d)) : d.lanes.Stops := by
  unfold takeExit at h
  split at h
  · next hplace =>
      cases h
      exact hc.placeExit hplace
  · cases h

theorem takeExit_ok (hc : c.lanes.Stops) (start size : α) (east : Bool) :
    ∃ pos d, c.takeExit start size east = .ok (pos, d) := by
  obtain ⟨pos, hpos⟩ := Option.isSome_iff_exists.mp
    (commonFit?_isSome hc.west hc.east start size)
  unfold takeExit Lanes.placeExit?
  rw [hpos]
  exact ⟨_, _, rfl⟩

end Strand

namespace Context
open Strand
variable [LawfulScalar α] {x : Context α} {c d : Strand α}

theorem takeDecision_stops {test : String} {exits : Exit × Exit} {pos : α} (hc : c.lanes.Stops)
    (h : x.takeDecision test exits c = .ok (pos, d)) : d.lanes.Stops := by
  unfold takeDecision at h
  dsimp only at h
  split at h
  · cases h
    exact hc.placeBand _ _
  · exact takeExit_stops hc h

theorem claimEast_stops (exits : Exit × Exit) (middle : α) (hc : c.lanes.Stops) :
    (claimEast exits middle c).lanes.Stops := by
  unfold claimEast
  split
  · exact ⟨hc.west, stops_reserve hc.east _ _⟩
  · exact hc

theorem openDecision_stops {test : String} {exits : Exit × Exit} {box : DecisionBox α}
    (hc : c.lanes.Stops) (h : x.openDecision test exits c = .ok (box, d)) : d.lanes.Stops := by
  obtain ⟨⟨pos, taken⟩, htake, h⟩ := exists_of_bind_eq_ok h
  cases h
  exact (x.drawExits_redraws _ _ _ _).stops (claimEast_stops _ _ (takeDecision_stops hc htake))

theorem arrangeJump_stops {j : Jump} (hc : c.lanes.Stops) (h : x.arrangeJump j c = .ok d) :
    d.lanes.Stops := by
  obtain ⟨heading, -, h⟩ := exists_of_bind_eq_ok h
  obtain ⟨⟨pos, taken⟩, htake, h⟩ := exists_of_bind_eq_ok h
  cases h
  exact ((trunkTo_redraws _ _ _).trans (noteJump_redraws _ _ _)).stops (takeExit_stops hc htake)

theorem enter_stops (hc : c.lanes.Stops) : (x.enter c).2.lanes.Stops := by
  simpa only [enter, trunkTo_lanes, takeLine_lanes] using hc.placeBand _ _

theorem openWhile_stops (test : String) (hc : c.lanes.Stops) :
    (x.openWhile test c).2.lanes.Stops := by
  have hbody : (c.loopBody .whileLoop).lanes.Stops := hc.inner _
  simpa only [openWhile, labelExit_lanes, drawDecision_lanes, takeBand_lanes] using
    hbody.placeBand _ _

theorem closeBeside_stops (box : DecisionBox α) (below : Strand α) {arm : Strand α}
    (harm : arm.lanes.Stops) : (x.closeBeside box below arm c).lanes.Stops := by
  unfold closeBeside
  dsimp only
  split
  · simpa only [trunkTo_lanes, draw_lanes, takeLine_lanes] using harm.placeBand _ _
  · exact harm

theorem closeWhile_stops (entry : α) (box : DecisionBox α) (back : List (α × α))
    (body : Strand α) (hc : c.lanes.Stops) :
    (x.closeWhile entry box back body c).lanes.Stops := by
  simpa only [closeWhile, absorb_lanes, takeLine_lanes, reclaim_lanes] using (hc.fold _).placeBand _ _

theorem closeDo_stops (test : String) (entry : α) (body : Strand α) (hc : c.lanes.Stops) :
    (x.closeDo test entry body c).lanes.Stops := by
  unfold closeDo
  dsimp only
  split
  · simpa only [absorb_lanes, reclaim_lanes] using hc.fold _
  · simpa only [absorb_lanes, takeLine_lanes, reclaim_lanes] using (hc.fold _).placeBand _ _

theorem openSwitch_stops {subject : String} {box : DecisionBox α} {tap : α} (hc : c.lanes.Stops)
    (h : x.openSwitch subject c = (box, tap, d)) : d.lanes.Stops := by
  have hholder : c.switchHolder.lanes.Stops := hc
  obtain rfl : (x.openSwitch subject c).2.2 = d := by rw [h]
  simpa only [openSwitch, trunkTo_lanes, takeLine_lanes, drawDecision_lanes, takeBand_lanes] using
    (hholder.placeBand _ _).placeBand _ _

theorem joinEnds_stops (ends : List (α × α)) (hc : c.lanes.Stops) :
    (joinEnds ends c).lanes.Stops := by
  unfold joinEnds
  dsimp only
  refine (foldl_redraws _ (fun c b => ?_) _ _).stops (hc.placeBand _ _)
  split <;> exact draw_redraws _ _

theorem settleEnds_stops (ends : List (BranchEnd α)) (hc : c.lanes.Stops) :
    (settleEnds ends c).lanes.Stops := by
  unfold settleEnds
  split
  · exact hc
  · exact hc
  · exact joinEnds_stops _ hc

theorem gatherBreaks_stops (breaks : List (α × α)) (hc : c.lanes.Stops) :
    (x.gatherBreaks breaks c).lanes.Stops := by
  unfold gatherBreaks
  split
  · exact hc
  · simpa only [route_lanes, trunkTo_lanes, dropDeadTip_lanes, takeLine_lanes] using
      hc.placeBand _ _

theorem closeSwitch_stops (tap : α) {f : Fan α} (hf : f.holder.lanes.Stops) (c : Strand α) :
    (x.closeSwitch tap f c).lanes.Stops := by
  refine gatherBreaks_stops _ (settleEnds_stops _ ?_)
  unfold drawTap
  split <;> exact hf

theorem openTry_stops {top : α} {body : Strand α} (hc : c.lanes.Stops)
    (h : x.openTry c = (top, d, body)) : body.lanes.Stops := by
  have hfork : c.fork.lanes.Stops := hc
  obtain rfl : (x.openTry c).2.2 = body := by rw [h]
  change ((c.fork.takeLine _).2.trunkTo _ false).lanes.Stops
  rw [trunkTo_lanes, takeLine_lanes]
  exact hfork.placeBand _ _

theorem closeFrame_stops {top : α} {body holder : Strand α} {framed : Framed α}
    (hbody : body.lanes.Stops) (h : x.closeFrame top body holder = framed) :
    framed.holder.lanes.Stops := by
  subst h
  unfold closeFrame
  dsimp only
  rw [draw_lanes, absorb_lanes]
  split
  · simpa only [trunkTo_lanes, takeLine_lanes] using hbody.placeBand _ _
  · simpa only [takeLine_lanes] using hbody.placeBand _ _

theorem closeTry_stops (tap : α) (framed : Framed α) {f : Fan α} (hf : f.holder.lanes.Stops)
    (c : Strand α) : (closeTry tap framed f c).lanes.Stops := by
  unfold closeTry adopt
  dsimp only
  split
  · exact hf
  · exact joinEnds_stops _ hf

theorem openBranch_stops (plan : FanPlan α) (label : String) {f : Fan α}
    (hf : f.holder.lanes.Stops) : (x.openBranch plan label f).lanes.Stops := by
  unfold openBranch labelBranch
  split
  · exact hf
  · exact Lanes.Stops.placeBand hf _ _

theorem Run.keepsStops {stage : Stage α} (h : x.Run stage) : stage.KeepsStops := by
  induction h with
  | text =>
      intro hc
      simpa only [arrangeText, draw_lanes, trunkTo_lanes, takeBand_lanes] using hc.placeBand _ _
  | pass => exact id
  | jump h => exact fun hc => arrangeJump_stops hc h
  | twoJumps _ _ _ hopen =>
      intro hc
      have hopened := openDecision_stops hc hopen
      exact hopened
  | yesBelow _ _ hopen _ harm =>
      intro hc
      have hopened := openDecision_stops hc hopen
      exact harm hopened
  | noBelow _ _ _ hopen _ harm =>
      intro hc
      have hopened := openDecision_stops hc hopen
      exact harm hopened
  | twoArms _ _ hopen _ _ hsouth heast =>
      intro hc
      have hopened := openDecision_stops hc hopen
      exact closeBeside_stops _ _ (heast (hsouth hopened))
  | whileLoop => exact fun hc => closeWhile_stops _ _ _ _ (enter_stops hc)
  | doLoop => exact fun hc => closeDo_stops _ _ _ (enter_stops hc)
  | switch hopen _ hcases =>
      exact fun hc => closeSwitch_stops _ (hcases (openSwitch_stops hc hopen)) _
  | tryBlock hopen _ hframe hline _ hbody hhandlers =>
      intro hc
      have hopened := openTry_stops hc hopen
      have htaken := takeLine_stops (closeFrame_stops (hbody hopened) hframe) hline
      exact closeTry_stops _ _ (hhandlers htaken) _
  | done => exact id
  | dead => exact id
  | next _ _ _ hs hrest => exact fun hc => hrest (hs hc)
  | noBranch => exact id
  | branch _ _ harm hrest => exact fun hf => hrest (harm (openBranch_stops _ _ hf))

end Context

/-- A strand on which statements of a scope can be laid out: the jumps in scope find their targets,
and the searches in its lanes end. -/
structure Strand.Ready (s : Scope) (c : Strand α) : Prop where
  leave : s.leave = true → ∃ d, c.headingOf .leave = .ok d
  resume : s.resume = true → ∃ d, c.headingOf .resume = .ok d
  lanes : c.lanes.Stops

theorem Strand.Ready.of_keeps {s : Scope} {c d : Strand α} (h : c.Ready s) (keeps : c.Keeps d)
    (lanes : d.lanes.Stops) : d.Ready s where
  leave hs := (keeps.headingOf .leave).symm ▸ h.leave hs
  resume hs := (keeps.headingOf .resume).symm ▸ h.resume hs
  lanes

omit [Scalar α] in
theorem Strand.headingOf_ne_south {c : Strand α} {j : Jump} {d : Direction}
    (h : c.headingOf j = .ok d) : d ≠ .south := by
  rintro rfl
  unfold headingOf at h
  cases j with
  | leave =>
      dsimp only at h
      split at h <;> cases h
  | resume =>
      dsimp only at h
      split at h
      · next target _ => cases target <;> cases h
      · cases h

omit [Scalar α] in
theorem Strand.soleJump_ne_south {c : Strand α} {block : Block} {r : Option (Jump × Direction)}
    (h : c.soleJump block = .ok r) : ∀ j d, r = some (j, d) → d ≠ .south := by
  rintro j d rfl
  unfold soleJump aim at h
  split at h
  · obtain ⟨heading, hd, h⟩ := exists_of_bind_eq_ok h
    cases h
    exact headingOf_ne_south hd
  · cases h

theorem Exit.chosen_ok {yes no : Option (Jump × Direction)}
    (hyes : ∀ j d, yes = some (j, d) → d ≠ .south) (hno : ∀ j d, no = some (j, d) → d ≠ .south) :
    ∃ exits, Exit.chosen yes no = .ok exits := by
  have hparts : (Exit.choose yes no).1.direction ≠ (Exit.choose yes no).2.direction := by
    cases yes with
    | none =>
        cases no with
        | none => exact nofun
        | some n => exact (hno n.1 n.2 rfl).symm
    | some y =>
        cases no with
        | none => exact hyes y.1 y.2 rfl
        | some n =>
            unfold choose
            dsimp only
            split
            · exact hyes y.1 y.2 rfl
            · assumption
  exact ⟨_, if_neg hparts⟩

namespace Context
open Strand
variable {x : Context α} {s : Scope} {c : Strand α}

theorem headingOf_ok {j : Jump} (hj : Statement.Fits s (.jump j)) (hc : c.Ready s) :
    ∃ d, c.headingOf j = .ok d := by
  cases hj with
  | leave hs => exact hc.leave hs
  | resume hs => exact hc.resume hs

theorem soleJump_ok {block : Block} (hb : Block.Fits s block) (hc : c.Ready s) :
    ∃ r, c.soleJump block = .ok r := by
  unfold soleJump aim
  split
  · next j hj =>
      have hmem : Statement.jump j ∈ block := by
        unfold Block.soleJump? at hj
        split at hj
        · cases hj
          exact List.mem_cons_self
        · cases hj
      obtain ⟨d, hd⟩ := headingOf_ok (hb _ hmem) hc
      exact ⟨_, bind_eq_ok hd rfl⟩
  · exact ⟨_, rfl⟩

theorem loopBody_ready (kind : JumpTarget) (hkind : kind ≠ .switch) {c : Strand α}
    (hc : c.lanes.Stops) : (c.loopBody kind).Ready .inLoop where
  leave _ := ⟨_, rfl⟩
  resume _ := by
    cases kind with
    | switch => exact absurd rfl hkind
    | _ => exact ⟨_, rfl⟩
  lanes := hc.inner _

variable [LawfulScalar α]

theorem openDecision_ok (test : String) (exits : Exit × Exit) (hc : c.lanes.Stops) :
    ∃ box opened, x.openDecision test exits c = .ok (box, opened) := by
  obtain ⟨pos, taken, htake⟩ : ∃ pos taken, x.takeDecision test exits c = .ok (pos, taken) := by
    unfold takeDecision
    dsimp only
    split
    · exact ⟨_, _, rfl⟩
    · exact takeExit_ok hc _ _ _
  exact ⟨_, _, bind_eq_ok htake rfl⟩

theorem arrangeJump_ok {j : Jump} (hj : Statement.Fits s (.jump j)) (hc : c.Ready s) :
    ∃ c', x.arrangeJump j c = .ok c' := by
  obtain ⟨d, hd⟩ := headingOf_ok hj hc
  obtain ⟨pos, taken, htake⟩ := takeExit_ok hc.lanes (c.startBelow x.halfGap) (2.0 * c.pad)
    (d == .east)
  exact ⟨_, bind_eq_ok hd (bind_eq_ok htake rfl)⟩

theorem gatherBack_ok (hc : c.lanes.Stops) :
    ∃ back gathered, x.gatherBack c = .ok (back, gathered) := by
  unfold gatherBack
  dsimp only
  split
  · obtain ⟨pos, taken, htake⟩ := takeExit_ok (c := { c with continues := [] }) hc
      (c.reach + x.halfGap) (2.0 * c.pad) false
    exact ⟨_, _, bind_eq_ok htake rfl⟩
  · exact ⟨_, _, rfl⟩

theorem openSwitch_ready (subject : String) {c : Strand α} (hc : c.Ready s) :
    (x.openSwitch subject c).2.2.Ready s.inSwitch := by
  have hholder : c.switchHolder.Ready s.inSwitch := ⟨fun _ => ⟨_, rfl⟩, hc.resume, hc.lanes⟩
  exact hholder.of_keeps (x.openSwitch_keeps _ _) (openSwitch_stops hc.lanes rfl)

theorem openTry_ready {c : Strand α} (hc : c.Ready s) : (x.openTry c).2.2.Ready s :=
  hc.of_keeps (x.openTry_keeps c).revise (openTry_stops hc.lanes rfl)

theorem arrangeAll_ok {block : Block}
    (hs : ∀ t ∈ block, ∀ {c}, c.Ready s → ∃ c', x.arrange t c = .ok c') {c : Strand α}
    (hc : c.Ready s) : ∃ c', x.arrangeAll block c = .ok c' ∧ c'.Ready s := by
  induction block generalizing c with
  | nil => exact ⟨c, rfl, hc⟩
  | cons t rest ih =>
      unfold arrangeAll
      split
      · obtain ⟨mid, hmid⟩ := hs t List.mem_cons_self hc
        have hrun := run_of_arrange hmid
        obtain ⟨c', hrest, hready⟩ := ih (fun u hu => hs u (List.mem_cons_of_mem _ hu))
          (hc.of_keeps hrun.keeps (hrun.keepsStops hc.lanes))
        exact ⟨c', bind_eq_ok hmid hrest, hready⟩
      · exact ⟨c, rfl, hc⟩

theorem openBranch_ready (plan : FanPlan α) (label : String) {f : Fan α}
    (hf : f.holder.Ready s) : (x.openBranch plan label f).Ready s := by
  refine hf.of_keeps ?_ (openBranch_stops plan label hf.lanes)
  unfold openBranch labelBranch
  split <;> exact ⟨rfl, rfl, rfl, rfl⟩

theorem arrangeBranches_ok {branches : Branches}
    (hs : ∀ b ∈ branches, ∀ t ∈ b.2, ∀ {c}, c.Ready s → ∃ c', x.arrange t c = .ok c')
    (plan : FanPlan α) (index : Nat) {f : Fan α} (hf : f.holder.Ready s) :
    ∃ f', x.arrangeBranches index branches plan f = .ok f' := by
  induction branches generalizing index f with
  | nil => exact ⟨f, rfl⟩
  | cons branch rest ih =>
      obtain ⟨label, block⟩ := branch
      obtain ⟨arm, harm, hready⟩ :=
        arrangeAll_ok (hs _ List.mem_cons_self) (openBranch_ready plan label hf)
      obtain ⟨f', hf'⟩ := ih (fun b hb => hs b (List.mem_cons_of_mem _ hb)) (index + 1)
        (f := x.closeBranch plan index arm f)
        (hf.of_keeps (x.closeBranch_keeps _ _ _ _) hready.lanes)
      exact ⟨f', bind_eq_ok harm hf'⟩

/-- A statement that fits its scope is laid out. -/
theorem arrange_ok {t : Statement} (ht : t.Fits s) {c : Strand α} (hc : c.Ready s) :
    ∃ c', x.arrange t c = .ok c' := by
  induction ht generalizing c with
  | text => exact ⟨_, rfl⟩
  | pass => exact ⟨_, rfl⟩
  | leave hs => exact arrangeJump_ok (.leave hs) hc
  | resume hs => exact arrangeJump_ok (.resume hs) hc
  | @decision s test yes no hyes hno ihyes ihno =>
      obtain ⟨yesJump, hy⟩ := soleJump_ok (show Block.Fits s yes from hyes) hc
      obtain ⟨noJump, hn⟩ := soleJump_ok (show Block.Fits s no from hno) hc
      obtain ⟨exits, hexits⟩ := Exit.chosen_ok (soleJump_ne_south hy) (soleJump_ne_south hn)
      obtain ⟨box, opened, hopen⟩ := openDecision_ok (x := x) test exits hc.lanes
      have hready : opened.Ready s :=
        hc.of_keeps (x.openDecision_keeps hopen) (openDecision_stops hc.lanes hopen)
      have hbelow : (opened.armFrom box.bottom).Ready s :=
        hready.of_keeps (armFrom_keeps _ _) hready.lanes
      obtain ⟨south, hsouth, hsouthReady⟩ := arrangeAll_ok ihyes hbelow
      obtain ⟨below, hno', -⟩ := arrangeAll_ok ihno hbelow
      have hbeside : ((opened.share south).armFrom box.middle).Ready s :=
        hready.of_keeps ((share_keeps _ _).trans (armFrom_keeps _ _)) hsouthReady.lanes
      obtain ⟨east, heast, -⟩ := arrangeAll_ok ihno hbeside
      unfold arrange
      refine exists_bind_eq_ok hy (exists_bind_eq_ok hn (exists_bind_eq_ok hexits
        (exists_bind_eq_ok hopen ?_)))
      dsimp only
      split
      · exact exists_bind_eq_ok hsouth (exists_bind_eq_ok heast ⟨_, rfl⟩)
      · exact exists_bind_eq_ok hsouth ⟨_, rfl⟩
      · exact exists_bind_eq_ok hno' ⟨_, rfl⟩
      · exact ⟨_, rfl⟩
  | @whileLoop s test body hbody ih =>
      have hready : (x.openWhile test (x.enter c).2).2.Ready .inLoop :=
        (loopBody_ready .whileLoop (by decide) (enter_stops hc.lanes)).of_keeps (x.openWhile_keeps _ _)
          (openWhile_stops _ (enter_stops hc.lanes))
      obtain ⟨inner, hinner, hend⟩ := arrangeAll_ok ih hready
      obtain ⟨back, gathered, hback⟩ := gatherBack_ok (x := x) hend.lanes
      unfold arrange
      exact exists_bind_eq_ok hinner (exists_bind_eq_ok hback ⟨_, rfl⟩)
  | @doLoop s body test hbody ih =>
      obtain ⟨inner, hinner, -⟩ :=
        arrangeAll_ok ih (loopBody_ready .doWhile (by decide) (enter_stops (x := x) hc.lanes))
      unfold arrange
      exact exists_bind_eq_ok hinner ⟨_, rfl⟩
  | @switch s subject cases hcases ih =>
      obtain ⟨fan, hfan⟩ := arrangeBranches_ok ih ⟨(x.openSwitch subject c).2.1, some 0, true⟩ 0
        (f := .start (x.openSwitch subject c).2.2 ((x.openSwitch subject c).1.width / 2.0))
        (openSwitch_ready subject hc)
      unfold arrange
      exact exists_bind_eq_ok hfan ⟨_, rfl⟩
  | @tryBlock s body handlers hbody hhandlers ihb ihh =>
      obtain ⟨inner, hinner, hend⟩ := arrangeAll_ok ihb (openTry_ready (x := x) hc)
      obtain ⟨framed, hframe⟩ : ∃ framed,
          x.closeFrame (x.openTry c).1 inner (x.openTry c).2.1 = framed := ⟨_, rfl⟩
      have hline : (framed.holder.takeLine framed.holder.reach).2.Ready s := by
        refine hc.of_keeps ((x.openTry_keeps c).trans (Keeps.trans ?_ (takeLine_keeps _ _)))
          (takeLine_stops (closeFrame_stops hend.lanes hframe) rfl)
        rw [← hframe]
        exact x.closeFrame_keeps _ _ _
      obtain ⟨fan, hfan⟩ := arrangeBranches_ok ihh
        ⟨(framed.holder.takeLine framed.holder.reach).1, none, false⟩ 0
        (f := .start (framed.holder.takeLine framed.holder.reach).2 framed.right) hline
      subst hframe
      unfold arrange
      exact exists_bind_eq_ok hinner (exists_bind_eq_ok hfan ⟨_, rfl⟩)

/-- Whatever it is drawn with, a program has a layout. -/
theorem ofProgram_ok (config : Config α) (measure : Measure α) {program : Node}
    (h : program.IsProgram) : ∃ l, Layout.ofProgram config measure program = .ok l := by
  obtain ⟨statements, rfl, hgrammar⟩ := h
  have hroot : (Strand.root (config.hlineMargin / 2.0) config.debug).Ready .outermost :=
    ⟨nofun, nofun, .empty⟩
  obtain ⟨c, hc, -⟩ := arrangeAll_ok (x := ⟨config, measure⟩)
    (fun t ht => arrange_ok (fits_of_grammar hgrammar t ht)) hroot
  exact ⟨_, Layout.ofProgram_eq_ok_iff.mpr ⟨c, hc, rfl⟩⟩

end Context

/-- A source that the parser accepts is laid out, under every configuration and with every measurer,
whatever sizes it returns. -/
theorem layout_of_parse (config : Config Float32) (measure : Measure Float32) (source : String)
    (program : Node) (h : config.lexis.parse source = .ok program) :
    ∃ l, Layout.ofProgram config measure program = .ok l :=
  Context.ofProgram_ok config measure (Rules.isProgram_of_parse h)

/-- A loop with a decision in it, drawn with texts of a fixed size. -/
theorem layout_of_sample : (Config.classic : Config Float32).lexis.parse Sample.source =
      .ok Sample.program ∧
    ∃ l, Layout.ofProgram (Config.classic : Config Float32) (fun _ _ => ⟨30.0, 10.0⟩)
      Sample.program = .ok l :=
  ⟨Sample.parse_source,
    layout_of_parse Config.classic (fun _ _ => ⟨30.0, 10.0⟩) Sample.source Sample.program
      Sample.parse_source⟩

end Flowchart
