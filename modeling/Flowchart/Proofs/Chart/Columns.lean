import Flowchart.Proofs.Chart.Anatomy
import Flowchart.Proofs.Chart.Flow
/-! Branches side by side stand in columns of their own. Each branch is moved east of everything that
lies before it, by its own westernmost extent, and what it draws later stays in its group. -/
namespace Flowchart
open Strand

namespace Shape

/-- Everything in the first shape lies west of everything in the second, by a step or more. -/
def WestOf (step : ℚ) (s t : Shape ℚ) : Prop :=
  ∀ p ∈ s.leaves 0 0, ∀ q ∈ t.leaves 0 0, p.extent.maxX + step ≤ q.extent.minX

def EndsBy (right : ℚ) (s : Shape ℚ) : Prop := ∀ p ∈ s.leaves 0 0, p.extent.maxX ≤ right

def StartsAt (left : ℚ) (s : Shape ℚ) : Prop := ∀ p ∈ s.leaves 0 0, left ≤ p.extent.minX

variable {s t : Shape ℚ} {left right step : ℚ}

theorem EndsBy.mono (h : s.EndsBy left) (hle : left ≤ right) : s.EndsBy right :=
  fun p hp => (h p hp).trans hle

theorem EndsBy.westOf (hs : s.EndsBy right) (ht : t.StartsAt left) (hle : right + step ≤ left) :
    s.WestOf step t :=
  fun p hp q hq => ((add_le_add_left (hs p hp) step).trans hle).trans (ht q hq)

end Shape

def Columns (step : ℚ) (shapes : List (Shape ℚ)) : Prop := shapes.Pairwise (Shape.WestOf step)

/-- The arm beside a decision stands east of the decision and of the arm below it, a case east of the
cases before it, and a handler east of the frame and of the handlers before it. -/
def Siblings.inColumns (step : ℚ) : Siblings ℚ where
  beside node below beside := node.WestOf step beside ∧ below.WestOf step beside
  cases := Columns step
  framed frame _ handlers := Columns step (.frame frame :: handlers)

/-- A rule in which the frame of a try and the group of its body are asked for something else too. -/
def Siblings.andFramed (rule : Siblings ℚ) (framed : Outline ℚ → Shape ℚ → Prop) : Siblings ℚ :=
  { rule with framed := fun frame body handlers => rule.framed frame body handlers ∧ framed frame body }

theorem Laid.unframed {config : Config ℚ} {rule : Siblings ℚ} {framed : Outline ℚ → Shape ℚ → Prop}
    {r : Around} {piece : Piece} {groups : List (Shape ℚ)}
    (h : Laid config (rule.andFramed framed) r piece groups) : Laid config rule r piece groups := by
  refine Laid.imp ?_ ?_ ?_ h
  · exact fun _ _ _ hbeside => hbeside
  · exact fun _ hcases => hcases
  · exact fun _ _ _ hframed => hframed.1

namespace Group.Made
variable {g : Group ℚ}

theorem endsBy (h : g.Made) (dx : ℚ) : (g.shift dx 0).toShape.EndsBy (dx + g.extent.maxX) := by
  intro p hp
  refine ((h.encloses.shift dx 0).leaf_inside hp).maxX.trans_eq ?_
  change g.bounds.maxX + (g.x + dx) = dx + (g.bounds.maxX + g.x)
  ring

theorem startsAt (h : g.Made) (dx : ℚ) : (g.shift dx 0).toShape.StartsAt (dx + g.extent.minX) := by
  intro p hp
  refine Eq.trans_le ?_ ((h.encloses.shift dx 0).leaf_inside hp).minX
  change dx + (g.bounds.minX + g.x) = g.bounds.minX + (g.x + dx)
  ring

end Group.Made

/-- A strand on which jumps turn where the surroundings say, under the margin and with the markers that
are configured. -/
structure Strand.Follows (config : Config ℚ) (r : Around) (c : Strand ℚ) : Prop where
  turns : c.Turns r
  pad : c.pad = config.hlineMargin / 2.0
  debug : c.debug = config.debug

theorem Strand.Follows.of_keeps {config : Config ℚ} {r : Around} {c d : Strand ℚ}
    (h : c.Follows config r) (keeps : c.Keeps d) : d.Follows config r :=
  ⟨h.turns.of_keeps keeps, keeps.pad.trans h.pad, keeps.debug.trans h.debug⟩

theorem Strand.Follows.loopBody {config : Config ℚ} {r s : Around} {c : Strand ℚ}
    (h : c.Follows config r) {kind : JumpTarget} (hkind : kind.resumeDirection = .ok s.toward) :
    (c.loopBody kind).Follows config s :=
  ⟨c.loopBody_turns hkind rfl, h.pad, h.debug⟩

/-- Branches that are laid out next lie east of these shapes: all of them, unless the first branch is
placed where nothing lies yet. -/
structure Fan.Clears (step : ℚ) (plan : FanPlan ℚ) (index : Nat) (west : List (Shape ℚ)) (f : Fan ℚ) :
    Prop where
  columns : Columns step west
  right : ∀ s ∈ west, s.EndsBy f.right
  first : index = 0 → plan.firstDx = none ∨ west = []

/-- A piece brings its groups, and branches stand in columns with what lies west of them. -/
def Stage.Laid (config : Config ℚ) (rule : Siblings ℚ) : Stage ℚ → Prop
  | .statement s c c' => ∀ r, c.Follows config r → c.alive = true →
      ∃ groups, c.Adjoins groups c' ∧ Flowchart.Laid config rule r (.statement s) groups
  | .block b c c' => ∀ r, c.Follows config r → c.alive = true →
      ∃ groups, c.Adjoins groups c' ∧ Flowchart.Laid config rule r (.block b) groups
  | .branches plan index bs f f' => ∀ r west, f.holder.Follows config r →
      f.Clears config.stepX plan index west →
      ∃ arms, f.holder.Adjoins arms f'.holder ∧ Flowchart.Laid config rule r (.branches bs) arms ∧
        Columns config.stepX (west ++ arms)

theorem Stage.Laid.filled {config : Config ℚ} {rule : Siblings ℚ} {b : Block} {c c' : Strand ℚ}
    (h : Stage.Laid config rule (.block b c c')) {r : Around} (hc : c.Follows config r)
    (alive : c.alive = true) (hempty : c.group.groups = []) :
    Flowchart.Laid config rule r (.block b) c'.group.groups := by
  obtain ⟨groups, hadjoins, hlaid⟩ := h r hc alive
  rw [hadjoins.groups, hempty]
  exact hlaid

namespace Context
variable {x : Context ℚ} {arm : Strand ℚ} {f : Fan ℚ} {plan : FanPlan ℚ} {index : Nat}
  {west : List (Shape ℚ)}

theorem diamond_endsBy (hmeasure : ∀ text attrs,
    0 ≤ (x.measure text attrs).width ∧ 0 ≤ (x.measure text attrs).height) (test : String) (top : ℚ) :
    ((x.diamond test).shift (-(x.diamond test).bounds.width / 2.0) top).toShape.EndsBy
      ((x.diamond test).bounds.width / 2.0) := by
  intro p hp
  obtain ⟨w, h, text, -, -, hx, -, -, hbounds⟩ := diamond_bounds hmeasure test
  refine (((diamond_made test).encloses.shift _ _).leaf_inside hp).maxX.trans_eq ?_
  change (x.diamond test).bounds.maxX +
    ((x.diamond test).x + -(x.diamond test).bounds.width / 2.0) = _
  rw [hx, hbounds]
  unfold Bounds.width
  norm_num
  ring

theorem eastShift_clear (box : DecisionBox ℚ) {below arm : Strand ℚ} (hbelow : below.group.Made)
    (harm : arm.group.Made) {node : Shape ℚ} (hnode : node.EndsBy (box.width / 2.0)) :
    (Siblings.inColumns x.config.stepX).beside node (below.group.shift 0 0).toShape
      (arm.group.shift (x.eastShift box (max (box.width / 2.0) below.group.extent.maxX) arm)
        0).toShape := by
  have hstart := harm.startsAt (x.eastShift box (max (box.width / 2.0) below.group.extent.maxX) arm)
  have hright : max (box.width / 2.0) below.group.extent.maxX + x.config.stepX ≤
      x.eastShift box (max (box.width / 2.0) below.group.extent.maxX) arm +
        arm.group.extent.minX := by
    have hmax := le_max_left (max (box.width / 2.0) below.group.extent.maxX)
      (box.width / 2.0 + x.noSize.width + 2.0 * labelGap)
    unfold eastShift
    linarith
  refine ⟨hnode.westOf hstart (le_trans ?_ hright), (hbelow.endsBy 0).westOf hstart (le_trans ?_ hright)⟩
  · exact add_le_add_left (le_max_left _ _) _
  · rw [zero_add]
    exact add_le_add_left (le_max_right _ _) _

theorem closeBranch_clears (hf : f.Clears x.config.stepX plan index west) (harm : arm.group.Made) :
    (x.closeBranch plan index arm f).Clears x.config.stepX plan (index + 1)
      (west ++ [(arm.group.shift (x.branchDx plan index arm f) 0).toShape]) where
  columns := by
    refine List.pairwise_append.mpr ⟨hf.columns, List.pairwise_singleton _ _, fun s hs t ht => ?_⟩
    rw [List.mem_singleton] at ht
    subst ht
    have hstart := harm.startsAt (x.branchDx plan index arm f)
    unfold branchDx at hstart ⊢
    split at hstart
    · next hdx =>
        -- the first branch is placed: then nothing lies west of it
        rcases hf.first rfl with hnone | hnone
        · rw [hnone] at hdx
          cases hdx
        · rw [hnone] at hs
          cases hs
    · next hplace =>
        rw [sub_add_cancel] at hstart
        exact (hf.right s hs).westOf hstart le_rfl
  right s hs := by
    rcases List.mem_append.mp hs with hs | hs
    · exact (hf.right s hs).mono (le_max_left _ _)
    · rw [List.mem_singleton.mp hs]
      exact (harm.endsBy _).mono (le_max_right _ _)
  first h := absurd h (Nat.succ_ne_zero index)

theorem frameAround_endsBy (x : Context ℚ) (top : ℚ) (body holder : Strand ℚ) :
    (Shape.frame (x.frameAround top body)).EndsBy (x.closeFrame top body holder).right := by
  intro p hp
  rw [List.mem_singleton.mp hp]
  change (x.frameAround top body).width + (x.frameAround top body).x + 0 ≤ _
  rw [add_zero]
  exact (sub_add_cancel _ _).le

theorem clears_frame {plan : FanPlan ℚ} (hplan : plan.firstDx = none) {top : ℚ} {body holder : Strand ℚ}
    {drawn : Framed ℚ} (hframe : x.closeFrame top body holder = drawn) (opened : Strand ℚ) :
    (Fan.start opened drawn.right).Clears x.config.stepX plan 0
      [.frame (x.frameAround top body)] where
  columns := List.pairwise_singleton _ _
  right s hs := by
    rw [List.mem_singleton.mp hs, ← hframe]
    exact x.frameAround_endsBy top body holder
  first _ := .inl hplan

/-- A finished try holds the group of its body with its outline, then the frame, then the handlers. -/
theorem closeTry_parts {top tap : ℚ} {c holder body opened : Strand ℚ} {drawn : Framed ℚ}
    {arms : List (Shape ℚ)} (hframe : x.closeFrame top body holder = drawn)
    (hsame : opened.group = drawn.holder.group) (harms : opened.Adjoins arms f.holder) :
    ∃ group after, c.Adjoins [group] (closeTry tap drawn f c) ∧
      group.parts = holder.group.parts ++
        ((x.closedBody body).group.shift 0 0).toShape ::
          ((x.closedBody body).group.shift 0 0).outline holder.debug ++
            .frame (x.frameAround top body) :: after ∧
      Shape.groupsOf after = arms := by
  obtain ⟨more, hmore, harms⟩ := harms
  obtain ⟨group, hadjoins, rest, hrest, hnone⟩ := closeTry_adjoins tap drawn f c
  have hparts := x.closeFrame_parts top body holder
  rw [hframe] at hparts
  refine ⟨group, more ++ rest, hadjoins, ?_, ?_⟩
  · rw [hrest, hmore, hsame, hparts]
    simp only [List.append_assoc, List.cons_append, List.nil_append]
  · unfold Shape.groupsOf at harms hnone ⊢
    rw [List.filter_append, harms, hnone, List.append_nil]

/-- Everything that is laid out brings its groups in order, and branches in columns. The frames of tries
are asked for what a closed body gives. -/
theorem Run.laid (hmeasure : ∀ text attrs,
    0 ≤ (x.measure text attrs).width ∧ 0 ≤ (x.measure text attrs).height)
    (framed : Outline ℚ → Shape ℚ → Prop)
    (hframed : ∀ {block : Block} {c top holder inner body},
      c.pad = x.config.hlineMargin / 2.0 → c.debug = x.config.debug →
      x.openTry c = (top, holder, inner) → x.Run (.block block inner body) →
      framed (x.frameAround top body) ((x.closedBody body).group.shift 0 0).toShape)
    {stage : Stage ℚ} (h : x.Run stage) :
    stage.Laid x.config ((Siblings.inColumns x.config.stepX).andFramed framed) := by
  induction h with
  | @text content c =>
      intro r _ _
      obtain ⟨node, hadjoins, hnode⟩ := x.arrangeText_adjoins content c
      exact ⟨_, hadjoins, .text hnode⟩
  | @pass c => exact fun r _ _ => ⟨[], (Adjoins.refl c).revise, .pass⟩
  | jump hjump => exact fun r _ _ => ⟨[], arrangeJump_adjoins hjump, .jump⟩
  | twoJumps hyes hno hparts hopen =>
      intro r hc _
      obtain ⟨top, hadjoins, -⟩ := openDecision_adjoins hopen
      exact ⟨_, hadjoins.revise, .twoJumps (hc.turns.soleJump hyes) (hc.turns.soleJump hno) hparts
        (x.marks_diamond _ _ _)⟩
  | @yesBelow test yes no c k e box opened arm hyes hno hopen _ ih =>
      intro r hc _
      obtain ⟨top, hadjoins, -⟩ := openDecision_adjoins hopen
      have hlaid := Stage.Laid.filled ih
        ((hc.of_keeps (x.openDecision_keeps hopen)).of_keeps (armFrom_keeps _ _)) rfl rfl
      exact ⟨_, hadjoins.trans (closeBelow_adjoins arm opened), .yesBelow (hc.turns.soleJump hyes)
        (hc.turns.soleJump hno) (x.marks_diamond _ _ _) hlaid⟩
  | @noBelow test yes no c j d second box opened arm hyes hno hsame hopen _ ih =>
      intro r hc _
      obtain ⟨top, hadjoins, -⟩ := openDecision_adjoins hopen
      have hlaid := Stage.Laid.filled ih
        ((hc.of_keeps (x.openDecision_keeps hopen)).of_keeps (armFrom_keeps _ _)) rfl rfl
      refine ⟨_, hadjoins.trans (closeBelow_adjoins arm opened), .noBelow (hc.turns.soleJump hyes)
        (fun k hk => ?_) (x.marks_diamond _ _ _) hlaid⟩
      rw [hc.turns.soleJump hno] at hk
      exact hsame k.1 k.2 hk
  | @twoArms test yes no c box opened south east hyes hno hopen hsouthRun heastRun ihSouth ihEast =>
      intro r hc _
      obtain ⟨top, hadjoins, hwidth⟩ := openDecision_adjoins hopen
      have hopened := hc.of_keeps (x.openDecision_keeps hopen)
      have hlaidSouth := Stage.Laid.filled ihSouth (hopened.of_keeps (armFrom_keeps _ _)) rfl rfl
      have hlaidEast := Stage.Laid.filled ihEast
        ((hopened.of_keeps (share_keeps _ _)).of_keeps (armFrom_keeps _ _)) rfl rfl
      have hnode := (diamond_endsBy hmeasure test top).mono (congrArg (· / 2.0) hwidth).ge
      exact ⟨_, (hadjoins.trans (closeBelow_adjoins south opened)).trans
        (x.closeBeside_adjoins box south east _), .twoArms (hc.turns.soleJump hyes)
          (hc.turns.soleJump hno) (x.marks_diamond _ _ _) hlaidSouth hlaidEast
          (eastShift_clear box (hsouthRun.builds .empty) (heastRun.builds .empty) hnode)⟩
  | @whileLoop test body c inner back gathered _ hback ih =>
      intro r hc _
      have hloop : ((x.enter c).2.loopBody .whileLoop).Follows x.config { r with toward := .west } :=
        (hc.of_keeps (x.enter_keeps c)).loopBody rfl
      obtain ⟨node, hnode, hmarks⟩ := x.openWhile_groups test (x.enter c).2
      obtain ⟨groups, hbody, hlaid⟩ := ih _ (hloop.of_keeps (x.openWhile_keeps test _))
        (congrArg Picture.alive (openWhile_picture (x := x) test (x.enter c).2).1)
      obtain ⟨loop, hadjoins, hgroups⟩ := x.closeWhile_adjoins (x.enter c).1
        (x.openWhile test (x.enter c).2).1 back gathered (x.enter c).2
      have hheld : loop.groups = node :: groups := by
        rw [hgroups, (gatherBack_adjoins hback).same, hbody.groups, hnode]
        rfl
      exact ⟨_, (x.enter_adjoins c).trans hadjoins, .whileLoop hheld hmarks hlaid⟩
  | @doLoop body test c inner _ ih =>
      intro r hc _
      have hloop : ((x.enter c).2.loopBody .doWhile).Follows x.config { r with toward := .east } :=
        (hc.of_keeps (x.enter_keeps c)).loopBody rfl
      obtain ⟨loop, node, hadjoins, hgroups, hmarks⟩ :=
        x.closeDo_adjoins test (x.enter c).1 inner (x.enter c).2
      exact ⟨_, (x.enter_adjoins c).trans hadjoins,
        .doLoop hgroups (Stage.Laid.filled ih hloop rfl rfl) hmarks⟩
  | @switch subject cases c box tap holder fan hopen _ ih =>
      intro r hc _
      have hholder := x.openSwitch_keeps subject c
      obtain ⟨node, hnode, hmarks⟩ := x.openSwitch_groups subject c
      rw [hopen] at hholder hnode
      -- continues of the cases turn where those of the switch do
      have hfollows : holder.Follows x.config r :=
        ⟨fun e he => hc.turns e ((hholder.headingOf .resume).symm.trans he),
          hholder.pad.trans hc.pad, hholder.debug.trans hc.debug⟩
      obtain ⟨arms, harms, hlaid, hcolumns⟩ := ih r [] hfollows ⟨.nil, nofun, fun _ => .inr rfl⟩
      obtain ⟨group, hadjoins, hgroups⟩ := x.closeSwitch_adjoins tap fan c
      refine ⟨_, hadjoins, .switch ?_ hmarks hlaid hcolumns⟩
      rw [hgroups, harms.groups]
      exact congrArg (· ++ arms) hnode
  | @tryBlock body handlers c top holder inner closed drawn tap opened fan hopen hbodyRun hframe hline
      _ ihBody ihHandlers =>
      intro r hc _
      have hholder := x.openTry_keeps c
      have hbefore := x.openTry_groups c
      have hinner : c.Keeps (x.openTry c).2.2 := (x.openTry_keeps c).revise
      have hfresh : (x.openTry c).2.2.group = .empty ∧ (x.openTry c).2.2.alive = true := ⟨rfl, rfl⟩
      rw [hopen] at hholder hbefore hinner hfresh
      dsimp only at hholder hbefore hinner hfresh
      have hlaidBody := Stage.Laid.filled ihBody (hc.of_keeps hinner) hfresh.2
        (congrArg Group.groups hfresh.1)
      obtain ⟨hopened, hsame⟩ := openHandlers_keeps hopen hframe hline
      obtain ⟨arms, harms, hlaid, hcolumns⟩ := ihHandlers r [.frame (x.frameAround top closed)]
        (hc.of_keeps hopened) (clears_frame rfl hframe opened)
      obtain ⟨group, after, hadjoins, hparts, rfl⟩ := closeTry_parts (c := c) hframe hsame harms
      rw [hholder.debug.trans hc.debug] at hparts
      refine ⟨_, hadjoins, .tryBlock hparts hbefore ?_ hlaid
        ⟨hcolumns, hframed hc.pad hc.debug hopen hbodyRun⟩⟩
      rwa [Group.groups, Group.parts_shift, ← Group.groups, (x.closedBody_adjoins closed).same]
  | @done c => exact fun r _ _ => ⟨[], .refl c, .nothing⟩
  | dead hdead =>
      intro r _ alive
      rw [hdead] at alive
      cases alive
  | @next s rest c mid c' alive hs hrest ihs ihRest =>
      intro r hc _
      obtain ⟨groups, hmid, hlaid⟩ := ihs r hc alive
      have hgoes := (hs.goes x.config.words alive).alive
      cases hlive : (s.picture x.config.words).alive with
      | true =>
          obtain ⟨others, hend, hlaidRest⟩ :=
            ihRest r (hc.of_keeps hs.keeps) (hgoes.trans hlive)
          exact ⟨_, hmid.trans hend, .next hlaid hlive hlaidRest⟩
      | false =>
          rw [hrest.eq_of_dead (hgoes.trans hlive)]
          exact ⟨_, hmid, .last hlaid hlive⟩
  | @noBranch plan index f =>
      intro r west _ hf
      refine ⟨[], .refl _, .noBranch, ?_⟩
      rw [List.append_nil]
      exact hf.columns
  | @branch plan index label block rest f arm f' hblock _ ihBlock ihRest =>
      intro r west hc hf
      have hopen := x.openBranch_keeps plan label f
      have hlaid := Stage.Laid.filled ihBlock (hc.of_keeps hopen)
        (congrArg Picture.alive (openBranch_picture (x := x) plan label f).1)
        (x.openBranch_groups plan label f)
      have hmade := hblock.builds (openBranch_made plan label f)
      obtain ⟨arms, hrest, hlaidRest, hcolumns⟩ := ihRest r _
        (hc.of_keeps (x.closeBranch_keeps plan index arm f)) (closeBranch_clears hf hmade)
      rw [List.append_assoc] at hcolumns
      exact ⟨_, (x.closeBranch_adjoins plan index arm f).trans hrest,
        .branch hlaid hlaidRest, hcolumns⟩

theorem trunk_laid (hmeasure : ∀ text attrs,
    0 ≤ (x.measure text attrs).width ∧ 0 ≤ (x.measure text attrs).height)
    (framed : Outline ℚ → Shape ℚ → Prop)
    (hframed : ∀ {block : Block} {c top holder inner body},
      c.pad = x.config.hlineMargin / 2.0 → c.debug = x.config.debug →
      x.openTry c = (top, holder, inner) → x.Run (.block block inner body) →
      framed (x.frameAround top body) ((x.closedBody body).group.shift 0 0).toShape)
    {block : Block} {c : Strand ℚ} (h : x.arrangeAll block x.root = .ok c) :
    Laid x.config ((Siblings.inColumns x.config.stepX).andFramed framed) .outermost (.block block)
      c.group.groups :=
  Stage.Laid.filled ((run_of_arrangeAll h).laid hmeasure framed hframed) ⟨nofun, rfl, rfl⟩ rfl rfl

end Context

/-- Every source that the parser accepts has a layout, and in it branches stand in columns: the arm
beside a decision at least the step east of the decision and of the arm below it, each case of a switch
east of all cases before it, and each handler of a try east of the frame and of all handlers before
it. -/
theorem layout_sets_columns (config : Config ℚ) (measure : Measure ℚ)
    (hmeasure : ∀ text attrs, 0 ≤ (measure text attrs).width ∧ 0 ≤ (measure text attrs).height)
    (source : String) (program : Node) (h : config.lexis.parse source = .ok program) :
    ∃ l, Layout.ofProgram config measure program = .ok l ∧
      Laid config (.inColumns config.stepX) .outermost (.block (Block.ofProgram program))
        l.root.groups := by
  obtain ⟨l, hl⟩ := Context.ofProgram_ok config measure (Rules.isProgram_of_parse h)
  refine ⟨l, hl, ?_⟩
  obtain ⟨c, hc, rfl⟩ := Layout.ofProgram_eq_ok_iff.mp hl
  have hlaid := Context.trunk_laid (x := ⟨config, measure⟩) hmeasure (fun _ _ => True)
    (fun _ _ _ _ => trivial) hc
  exact hlaid.unframed

namespace Sample

def guarded : List Node :=
  [⟨.tryBlock, 0, "",
      [⟨.ifTest, 0, "full", [⟨.text, 0, "use", []⟩]⟩, ⟨.elseBlock, 0, "", [⟨.text, 0, "fill", []⟩]⟩]⟩,
    ⟨.except, 0, "dry", [⟨.text, 0, "wait", []⟩]⟩, ⟨.except, 0, "broken", [⟨.text, 0, "stop", []⟩]⟩]

def guardedSource : String := Node.source run guarded

def guardedProgram : Node := ⟨.program, 0, "", Node.renumber 1 guarded⟩

theorem grammar_guarded : Grammar .block .outermost guarded :=
  .tryBlock (.ifTest (.text .nil) (.elseBlock (.text .nil) .nil))
    (.except (.text .nil) (.nextHandler (.except (.text .nil) (.lastHandler .nil))))

theorem printable_guarded : Node.Printable guarded := by
  simp only [guarded, Node.Printable]
  refine ⟨?_, ⟨?_, ⟨?_, trivial, trivial⟩, ?_, ⟨?_, trivial, trivial⟩, trivial⟩, ?_,
    ⟨?_, trivial, trivial⟩, ?_, ⟨?_, trivial, trivial⟩, trivial⟩
  all_goals exact ⟨by decide, by decide, by decide, by decide⟩

theorem parse_guarded : Lexis.classic.parse guardedSource = .ok guardedProgram :=
  parse_source_classic run_blank grammar_guarded printable_guarded

theorem statements_guarded : Block.ofProgram guardedProgram =
    [.tryBlock [.decision "full" [.text "use"] [.text "fill"]]
      [("dry", [.text "wait"]), ("broken", [.text "stop"])]] := by
  simp [guardedProgram, guarded, Node.renumber, Block.ofProgram, Block.ofNodes, Block.handlers,
    Block.alternative, Continuation.take?]

end Sample

/-- The handlers for "dry" and "broken" stand east of the frame in this order, and "fill" stands east of
the test "full" and of "use". -/
theorem layout_sets_columns_guarded :
    (Config.classic : Config ℚ).lexis.parse Sample.guardedSource = .ok Sample.guardedProgram ∧
    ∃ l, Layout.ofProgram Config.classic (fun _ _ => ⟨30, 10⟩ : Measure ℚ) Sample.guardedProgram =
        .ok l ∧
      Laid Config.classic (.inColumns (Config.classic : Config ℚ).stepX) .outermost
        (.block [.tryBlock [.decision "full" [.text "use"] [.text "fill"]]
          [("dry", [.text "wait"]), ("broken", [.text "stop"])]]) l.root.groups := by
  have h := layout_sets_columns Config.classic (fun _ _ => ⟨30, 10⟩) (fun _ _ => by norm_num)
    Sample.guardedSource Sample.guardedProgram Sample.parse_guarded
  rw [Sample.statements_guarded] at h
  exact ⟨Sample.parse_guarded, h⟩

end Flowchart
