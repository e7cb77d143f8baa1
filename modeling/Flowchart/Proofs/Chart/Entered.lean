import Flowchart.Proofs.Chart.Counted
/-! Every node is entered by one arrow, unless it is the first one or control does not get to it. The
trunk has an end as soon as a node is drawn, from which an arrow leads to the next one; only the test of
a `do` is drawn below a body out of which control may not come. -/
namespace Flowchart
open Strand Sheet

/-- Whether control gets from the body of a `do` to its test: it falls out of the body, or a continue
that it reaches leads there. -/
def Block.comesRound (body : Block) : Bool :=
  let story := Statement.storyAll (.inLoop .east []) [] 0 body
  story.alive || !story.resuming.isEmpty

mutual

/-- For each node that is drawn of a statement, in drawing order, whether control gets to it. -/
def Statement.entered : Statement → List Bool
  | .text _ => [true]
  | .pass | .jump _ | .flaw _ => []
  | .decision _ yes no => true :: (Statement.enteredAll yes ++ Statement.enteredAll no)
  | .whileLoop _ body => true :: Statement.enteredAll body
  | .doLoop body _ => Statement.enteredAll body ++ [Block.comesRound body]
  | .switch _ cases => true :: Statement.enteredBranches cases
  | .tryBlock body handlers => Statement.enteredAll body ++ Statement.enteredBranches handlers

/-- Of a block, nothing is drawn after a statement out of which control does not fall. -/
def Statement.enteredAll : List Statement → List Bool
  | [] => []
  | s :: rest =>
    Statement.entered s ++ if (s.story .outermost []).alive then Statement.enteredAll rest else []

def Statement.enteredBranches : List (String × List Statement) → List Bool
  | [] => []
  | (_, block) :: rest => Statement.enteredAll block ++ Statement.enteredBranches rest

end

example : Statement.enteredAll [.doLoop [.text "try", .jump .leave] "again", .text "stop"] =
    [true, false, true] := rfl

theorem Statement.enteredAll_of_soleJump {α : Type} {c : Strand α} {block : Block} {j : Jump}
    {d : Direction} (h : c.soleJump block = .ok (some (j, d))) : Statement.enteredAll block = [] := by
  unfold Strand.soleJump Strand.aim at h
  split at h
  · next k hk =>
      unfold Block.soleJump? at hk
      split at hk
      · rfl
      · cases hk
  · cases h

/-- The same flags, but perhaps for the first one if nothing was drawn before. -/
structure AgreeFrom (begun : Bool) (flags entered : List Bool) : Prop where
  length : flags.length = entered.length
  tail : flags.tail = entered.tail
  all : begun = true → flags = entered

namespace AgreeFrom
variable {begun begun' : Bool} {flags flags' entered entered' : List Bool}

theorem refl (begun : Bool) (flags : List Bool) : AgreeFrom begun flags flags :=
  ⟨rfl, rfl, fun _ => rfl⟩

theorem first (begun : Bool) (rest : List Bool) : AgreeFrom begun (begun :: rest) (true :: rest) :=
  ⟨rfl, rfl, fun h => h ▸ rfl⟩

theorem eq_nil (h : AgreeFrom begun flags []) : flags = [] := List.eq_nil_of_length_eq_zero h.length

theorem append_right (h : AgreeFrom begun flags entered) (rest : List Bool) :
    AgreeFrom begun (flags ++ rest) (entered ++ rest) where
  length := by rw [List.length_append, List.length_append, h.length]
  tail := by
    have htail := h.tail
    have hlength := h.length
    cases flags with
    | nil =>
        rw [List.eq_nil_of_length_eq_zero hlength.symm]
    | cons flag more =>
        cases entered with
        | nil => cases hlength
        | cons flag' more' => exact congrArg (· ++ rest) htail
  all hbegun := by rw [h.all hbegun]

theorem append (h : AgreeFrom begun flags entered) (k : AgreeFrom begun' flags' entered')
    (hkept : begun = true → begun' = true) (hbegun : begun' = true ∨ entered = []) :
    AgreeFrom begun (flags ++ flags') (entered ++ entered') := by
  rcases hbegun with hbegun | rfl
  · rw [k.all hbegun]
    exact h.append_right entered'
  · rw [h.eq_nil]
    exact ⟨k.length, k.tail, k.all ∘ hkept⟩

end AgreeFrom

def Stage.Enters : Stage ℚ → Prop
  | .statement s c c' => 0 < c.pad → c.debug = false → c.alive = true →
      ∃ flags, c.sheet.Counts flags c'.sheet ∧ AgreeFrom c.tip.isSome flags s.entered
  | .block b c c' => 0 < c.pad → c.debug = false →
      ∃ flags, c.sheet.Counts flags c'.sheet ∧
        AgreeFrom c.tip.isSome flags (if c.alive then Statement.enteredAll b else [])
  | .branches _ index bs f f' => 0 < f.holder.pad → f.holder.debug = false →
      ∀ {s flags}, f.Counted s flags index →
        ∃ index', f'.Counted s (flags ++ Statement.enteredBranches bs) index'

theorem Stage.Enters.onTrunk {b : Block} {c c' : Strand ℚ} (h : Stage.Enters (.block b c c'))
    (hpad : 0 < c.pad) (debug : c.debug = false) (alive : c.alive = true) (tip : c.tip.isSome) :
    c.sheet.Counts (Statement.enteredAll b) c'.sheet := by
  obtain ⟨flags, hcounts, hagree⟩ := h hpad debug
  rw [if_pos alive] at hagree
  exact hagree.all tip ▸ hcounts

namespace Context
variable {x : Context ℚ} {c c' : Strand ℚ}

theorem drawExits_tip (debug : c.debug = false) (test : String) (exits : Exit × Exit) (top : ℚ) :
    (x.drawExits test exits top c).2.tip.isSome := by
  have hdrawn : (c.drawDecision (x.diamond test) top).2.tip.isSome :=
    Option.isSome_iff_exists.mpr ⟨_, trunkTo_tip c top true⟩
  have hdebug := (drawDecision_redraws c (x.diamond test) top).debug.trans debug
  unfold drawExits
  dsimp only
  generalize c.drawDecision (x.diamond test) top = decided at hdrawn hdebug ⊢
  obtain ⟨box, drawn⟩ := decided
  have hlabelled := (labelExit_adds drawn x.config.yesText x.yesSize exits.1.direction box).trans
    (labelExit_adds _ x.config.noText x.noSize exits.2.direction box)
  obtain ⟨-, htip⟩ := foldl_noteJump (fun d : Direction =>
    (if d = .east then box.width / 2.0 else -box.width / 2.0, box.middle)) (exitJumps exits)
    (hlabelled.debug.trans hdebug)
  exact htip.symm ▸ hlabelled.tip hdrawn

theorem openDecision_tip (debug : c.debug = false) {test : String} {exits : Exit × Exit}
    {box : DecisionBox ℚ} (h : x.openDecision test exits c = .ok (box, c')) : c'.tip.isSome := by
  obtain ⟨⟨pos, t⟩, htake, h⟩ := exists_of_bind_eq_ok h
  cases h
  have htaken := (takeDecision_adds htake).quiet (claimEast_adds exits
    (pos + t.pad + (x.diamond test).bounds.height / 2.0) t)
  exact drawExits_tip (htaken.debug.trans debug) test exits _

theorem closeSwitch_begun {tap : ℚ} {f : Fan ℚ} (h : (x.closeSwitch tap f c).alive = true) :
    (x.closeSwitch tap f c).tip.isSome := by
  have hsettled : ∀ holder : Strand ℚ, (settleEnds f.ends holder).alive = true →
      (settleEnds f.ends holder).tip.isSome := by
    intro holder hlive
    unfold settleEnds at hlive ⊢
    split at hlive
    · cases hlive
    · rfl
    · rfl
  unfold closeSwitch at h ⊢
  generalize drawTap tap f.lastDx f.finish = drawn at h ⊢
  change (x.gatherBreaks f.breaks (settleEnds f.ends drawn)).alive = true at h
  change (x.gatherBreaks f.breaks (settleEnds f.ends drawn)).tip.isSome = true
  unfold gatherBreaks at h ⊢
  split at h
  · next hnone =>
      rw [if_pos hnone]
      exact hsettled drawn h
  · next hsome =>
      rw [if_neg hsome]
      exact (route_adds _ _ _ _ _).tip (Option.isSome_iff_exists.mpr ⟨_, trunkTo_tip _ _ _⟩)

theorem closeTry_begun {tap : ℚ} {framed : Framed ℚ} {f : Fan ℚ}
    (h : (closeTry tap framed f c).alive = true) : (closeTry tap framed f c).tip.isSome := by
  unfold closeTry at h ⊢
  dsimp only at h ⊢
  split at h
  · cases h
  · next hsome =>
      rw [if_neg hsome]
      rfl

/-- Control falls out of a statement at the end of a trunk, unless nothing was drawn. -/
theorem Run.begun {s : Statement} (h : x.Run (.statement s c c')) (debug : c.debug = false)
    (alive : c'.alive = true) : c'.tip.isSome ∨ s = .pass := by
  cases h with
  | text => exact .inl rfl
  | pass => exact .inr rfl
  | jump hjump => exact .inl (arrangeJump_picture hjump debug).2
  | twoJumps _ _ _ hopen => cases alive
  | yesBelow _ _ hopen _ => exact .inl (closeBelow_tip _ (openDecision_tip debug hopen))
  | noBelow _ _ _ hopen _ => exact .inl (closeBelow_tip _ (openDecision_tip debug hopen))
  | twoArms _ _ hopen _ _ =>
      have hopened := (x.openDecision_keeps hopen).debug.trans debug
      exact .inl ((closeBeside_picture ((closeBelow_keeps _ _).debug.trans hopened) _ _ _).2
        (closeBelow_tip _ (openDecision_tip debug hopen)))
  | whileLoop => exact .inl rfl
  | doLoop => exact .inl (closeDo_picture ((x.enter_keeps c).debug.trans debug) _ _ _).2
  | switch _ _ => exact .inl (closeSwitch_begun alive)
  | tryBlock _ _ _ _ _ => exact .inl (closeTry_begun alive)

theorem gatherOnward_liveTip (h : c.tip.isSome) :
    (x.gatherOnward c).liveTip.isSome = (c.alive || !c.continues.isEmpty) := by
  unfold gatherOnward liveTip
  dsimp only
  split
  · next hnone =>
      rw [hnone, Bool.not_true, Bool.or_false]
      cases c.alive with
      | true => exact h
      | false => rfl
  · next hsome =>
      rw [eq_false_of_ne_true hsome, Bool.not_false, Bool.or_true, if_pos rfl]
      exact (route_adds _ _ _ _ _).tip (Option.isSome_iff_exists.mpr ⟨_, trunkTo_tip _ _ _⟩)

theorem Run.comesRound {body : Block} {inner : Strand ℚ} (debug : c.debug = false) (htip : c.tip.isSome)
    (h : x.Run (.block body (c.loopBody .doWhile) inner)) :
    (x.gatherOnward inner).liveTip.isSome = Block.comesRound body := by
  have hloop : (c.loopBody .doWhile).Obeys (.inLoop .east []) := .loopBody debug htip rfl
  have htold := h.told (.inLoop .east []) [] 0 .blank [] hloop rfl (recounts_blank rfl rfl rfl rfl)
  have hcontinues : inner.continues.isEmpty =
      (Statement.storyAll (.inLoop .east []) [] 0 body).resuming.isEmpty := htold.continues_isEmpty
  rw [gatherOnward_liveTip ((h.shows debug).2 htip), hcontinues,
    h.alive_block debug rfl (.inLoop .east []) [] 0]
  rfl

theorem arm_counts {block : Block} {opened arm : Strand ℚ} {tip : ℚ} (hpad : 0 < opened.pad)
    (debug : opened.debug = false) (ih : Stage.Enters (.block block (opened.armFrom tip) arm)) :
    Counts (Statement.enteredAll block) ⟨.empty, opened.reach⟩ arm.sheet :=
  ih.onTrunk hpad debug rfl rfl

theorem decisionBelow_counts (hx : x.Generous) (hpad : 0 < c.pad) (debug : c.debug = false)
    {test : String} {exits : Exit × Exit} {box : DecisionBox ℚ} {opened arm : Strand ℚ} {block : Block}
    (hopen : x.openDecision test exits c = .ok (box, opened))
    (ih : Stage.Enters (.block block (opened.armFrom box.bottom) arm)) :
    c.sheet.Counts ([c.tip.isSome] ++ Statement.enteredAll block) (closeBelow arm opened).sheet := by
  have hkeeps := x.openDecision_keeps hopen
  have harm := arm_counts (hpad.trans_eq hkeeps.pad.symm) (hkeeps.debug.trans debug) ih
  exact (openDecision_counts hx hpad hopen).trans (closeBelow_counts harm)

/-- When the handlers of a try are reached, the arrows into the body stand in the frame. -/
theorem openHandlers_counts (hx : x.Generous) (hpad : 0 < c.pad) (debug : c.debug = false)
    {body : Block} {holder inner framed opened : Strand ℚ} {top tap : ℚ} {drawn : Framed ℚ}
    (hopen : x.openTry c = (top, holder, inner)) (hframe : x.closeFrame top framed holder = drawn)
    (hline : drawn.holder.takeLine drawn.holder.reach = (tap, opened))
    (hbody : Stage.Enters (.block body inner framed)) :
    ∃ flags, Counts flags ⟨.empty, c.reach⟩ opened.sheet ∧
      AgreeFrom c.tip.isSome flags (Statement.enteredAll body) := by
  obtain ⟨rfl, rfl, rfl⟩ := openTry_parts hopen
  have hinnerKeeps : c.Keeps (x.openTry c).2.2 := (x.openTry_keeps c).revise
  have htip : (x.openTry c).2.2.tip.isSome = c.tip.isSome := by
    change (if c.tip.isSome then some (x.openTry c).1 else none : Option ℚ).isSome = _
    cases c.tip <;> rfl
  have hlive : (x.openTry c).2.2.alive = true := rfl
  obtain ⟨flags, hinside, hagree⟩ := hbody (hpad.trans_eq hinnerKeeps.pad.symm)
    (hinnerKeeps.debug.trans debug)
  rw [htip, if_pos hlive] at hagree
  obtain ⟨hholder, hinner⟩ := openTry_counts hx c
  have hframed := closeFrame_counts (x := x) (hinner.follow hinside) (x.openTry c).1
  have hlined := takeLine_lowers drawn.holder drawn.holder.reach
  rw [hframe] at hframed
  rw [hline] at hlined
  exact ⟨_, (hholder.follow hframed).quiet hlined, hagree⟩

theorem Run.enters (hx : x.Generous) {stage : Stage ℚ} (h : x.Run stage) : stage.Enters := by
  induction h with
  | @text content c =>
      intro hpad _ _
      exact ⟨_, arrangeText_counts hx hpad content, .first _ []⟩
  | @pass c =>
      intro _ _ _
      exact ⟨[], Counts.lower c.sheet (le_add_of_nonneg_right hx.stepY), .refl _ []⟩
  | jump hjump =>
      intro _ _ _
      exact ⟨[], arrangeJump_counts hjump, .refl _ []⟩
  | @twoJumps test yes no c j d k e box opened hyes hno hparts hopen =>
      intro hpad _ _
      have hopened := openDecision_counts hx hpad hopen
      refine ⟨_, hopened, ?_⟩
      rw [Statement.entered, Statement.enteredAll_of_soleJump hyes, Statement.enteredAll_of_soleJump hno]
      exact .first _ []
  | @yesBelow test yes no c k e box opened arm hyes hno hopen _ ih =>
      intro hpad debug _
      refine ⟨_, decisionBelow_counts hx hpad debug hopen ih, ?_⟩
      rw [Statement.entered, Statement.enteredAll_of_soleJump hno, List.append_nil]
      exact .first _ _
  | @noBelow test yes no c j d second box opened arm hyes hno hsame hopen _ ih =>
      intro hpad debug _
      refine ⟨_, decisionBelow_counts hx hpad debug hopen ih, ?_⟩
      rw [Statement.entered, Statement.enteredAll_of_soleJump hyes]
      exact .first _ _
  | @twoArms test yes no c box opened south east _ _ hopen _ _ ihSouth ihEast =>
      intro hpad debug _
      have hopened := openDecision_counts hx hpad hopen
      have hkeeps := x.openDecision_keeps hopen
      have hpad' := hpad.trans_eq hkeeps.pad.symm
      have debug' := hkeeps.debug.trans debug
      exact ⟨_, hopened.trans (closeBeside_counts hx hpad'.le (arm_counts hpad' debug' ihSouth)
        (arm_counts (show 0 < (opened.share south).pad from hpad') debug' ihEast) box), .first _ _⟩
  | @whileLoop test body c inner back gathered _ hback ih =>
      intro hpad debug _
      obtain ⟨hentered, hentry⟩ := enter_counts hx hpad.le
      have hkeeps := x.enter_keeps c
      have hpad' := hpad.trans_eq hkeeps.pad.symm
      have htip : (x.enter c).2.tip.isSome := Option.isSome_iff_exists.mpr ⟨_, trunkTo_tip _ _ _⟩
      have hopened := openWhile_counts hx hpad' test
      rw [htip] at hopened
      obtain ⟨hpicture, hdebug⟩ := openWhile_picture (x := x) test (x.enter c).2
      have hinner := hopened.trans (ih.onTrunk
        (hpad'.trans_eq (x.openWhile_keeps test (x.enter c).2).pad.symm)
        (hdebug.trans (hkeeps.debug.trans debug)) (congrArg Picture.alive hpicture) rfl)
      have hclosed := closeWhile_counts (x := x) hpad'.le hentry
        (hinner.quiet (gatherBack_counts hback)) (x.openWhile test (x.enter c).2).1 back
      exact ⟨_, hentered.follow hclosed, .refl _ _⟩
  | @doLoop body test c inner hbody ih =>
      intro hpad debug _
      obtain ⟨hentered, hentry⟩ := enter_counts hx hpad.le
      have hkeeps := x.enter_keeps c
      have hpad' := hpad.trans_eq hkeeps.pad.symm
      have debug' := hkeeps.debug.trans debug
      have htip : (x.enter c).2.tip.isSome := Option.isSome_iff_exists.mpr ⟨_, trunkTo_tip _ _ _⟩
      have hclosed := closeDo_counts (x := x) hx hpad'.le (hpad'.trans_eq hbody.keeps.pad.symm) hentry
        (ih.onTrunk hpad' debug' rfl htip) test
      rw [hbody.comesRound debug' htip] at hclosed
      exact ⟨_, hentered.follow hclosed, .refl _ _⟩
  | @switch subject cases c box tap holder fan hopen hrun ih =>
      intro hpad debug _
      have hholder := openSwitch_counts hx hpad subject
      have hkeeps := x.openSwitch_keeps subject c
      rw [hopen] at hholder hkeeps
      have hpad' := hpad.trans_eq hkeeps.pad.symm
      obtain ⟨index, hfan⟩ := ih hpad' (hkeeps.debug.trans debug) (start_counted holder _)
      have hclosed := closeSwitch_counts (x := x) (hpad'.trans_eq hrun.keeps.pad.symm).le hholder hfan tap
      exact ⟨_, hclosed, .first _ _⟩
  | @tryBlock body handlers c top holder inner framed drawn tap opened fan hopen _ hframe hline hrun
      ihBody ihHandlers =>
      intro hpad debug _
      obtain ⟨flags, hlined, hagree⟩ := openHandlers_counts hx hpad debug hopen hframe hline ihBody
      have hopened := (openHandlers_keeps hopen hframe hline).1
      have hpad' := hpad.trans_eq hopened.pad.symm
      obtain ⟨index, hfan⟩ := ihHandlers hpad' (hopened.debug.trans debug) (start_counted opened _)
      exact ⟨_, closeTry_counts (hpad'.trans_eq hrun.keeps.pad.symm).le hlined hfan tap,
        hagree.append_right _⟩
  | @done c =>
      intro _ _
      refine ⟨[], .refl c.sheet, ?_⟩
      rw [Statement.enteredAll, ite_self]
      exact .refl _ []
  | @dead b c hdead =>
      intro _ _
      refine ⟨[], .refl c.sheet, ?_⟩
      rw [hdead]
      exact .refl _ []
  | @next s rest c mid c' alive hs _ ihs ihRest =>
      intro hpad debug
      obtain ⟨flags, hcounts, hagree⟩ := ihs hpad debug alive
      obtain ⟨more, hmore, hagree'⟩ := ihRest (hpad.trans_eq hs.keeps.pad.symm)
        (hs.keeps.debug.trans debug)
      refine ⟨flags ++ more, hcounts.trans hmore, ?_⟩
      rw [if_pos alive, Statement.enteredAll, ← hs.alive_statement debug alive .outermost []]
      cases hlive : mid.alive with
      | false =>
          rw [hlive] at hagree'
          rw [hagree'.eq_nil]
          exact hagree.append_right []
      | true =>
          rw [hlive] at hagree'
          refine hagree.append hagree' (hs.shows debug alive).2 ((hs.begun debug hlive).imp id ?_)
          rintro rfl
          rfl
  | @noBranch plan index f =>
      intro _ _ s flags hf
      exact ⟨index, by rwa [Statement.enteredBranches, List.append_nil]⟩
  | @branch plan index label block rest f arm f' _ _ ihBlock ihRest =>
      intro hpad debug s flags hf
      have hopened := openBranch_counts x hf plan label
      obtain ⟨hpicture, htip, hdebug⟩ := openBranch_picture (x := x) plan label f
      have harm := hopened.follow (ihBlock.onTrunk
        (hpad.trans_eq (x.openBranch_keeps plan label f).pad.symm) (hdebug.trans debug)
        (congrArg Picture.alive hpicture) htip)
      have hkeeps := x.closeBranch_keeps plan index arm f
      obtain ⟨index', hf'⟩ := ihRest (hpad.trans_eq hkeeps.pad.symm) (hkeeps.debug.trans debug)
        (closeBranch_counted hx hf harm plan)
      refine ⟨index', ?_⟩
      rwa [Statement.enteredBranches, ← List.append_assoc]

/-- Arrows lead into the nodes of a program that control gets to, but perhaps not into the first one. -/
theorem trunk_enters (hx : x.Generous) (debug : x.config.debug = false) {block : Block}
    (h : x.arrangeAll block x.root = .ok c) :
    ∃ flags, Tally c.group.arrowEnds c.group.tops flags ∧
      AgreeFrom false flags (Statement.enteredAll block) := by
  have hroot : 0 < (Strand.root (x.config.hlineMargin / 2.0) x.config.debug).pad :=
    div_pos hx.margin (by norm_num)
  obtain ⟨flags, ⟨tops, ends, hcounts⟩, hagree⟩ := (run_of_arrangeAll h).enters hx hroot debug
  have htops : c.group.tops = tops := hcounts.drawing.tops
  have hends : c.group.arrowEnds = ends := hcounts.drawing.ends
  exact ⟨flags, htops ▸ hends ▸ hcounts.tally, hagree⟩

theorem generous_classic {measure : Measure ℚ}
    (h : ∀ text attrs, 0 < (measure text attrs).width ∧ 0 < (measure text attrs).height) :
    (⟨Config.classic, measure⟩ : Context ℚ).Generous where
  measure := h
  margin := by change (0 : ℚ) < 10.0; norm_num
  stepX := by change (0 : ℚ) ≤ 24.0; norm_num
  stepY := by change (0 : ℚ) ≤ 20.0; norm_num
  rectX := by change (0 : ℚ) ≤ 12.0; norm_num
  rectY := by change (0 : ℚ) ≤ 8.0; norm_num
  frameY := by change (0 : ℚ) ≤ 10.0; norm_num

end Context

/-- Every source that the parser accepts has a layout without debug markers in which each node but the
first one is entered by one arrow, at the middle of its upper side. Only the test of a `do` is entered
by none if control does not get to it. -/
theorem layout_enters_nodes (config : Config ℚ) (measure : Measure ℚ)
    (hspace : (⟨config, measure⟩ : Context ℚ).Generous) (debug : config.debug = false)
    (source : String) (program : Node) (h : config.lexis.parse source = .ok program) :
    ∃ l, Layout.ofProgram config measure program = .ok l ∧
      l.boxes.length = (Statement.enteredAll (Block.ofProgram program)).length ∧
      List.Forall₂ (fun box entered => l.arrowEnds.count box.topMiddle = entered.toNat)
        l.boxes.tail (Statement.enteredAll (Block.ofProgram program)).tail := by
  obtain ⟨l, hl⟩ := Context.ofProgram_ok config measure (Rules.isProgram_of_parse h)
  refine ⟨l, hl, ?_⟩
  obtain ⟨c, hc, rfl⟩ := Layout.ofProgram_eq_ok_iff.mp hl
  obtain ⟨flags, htally, hagree⟩ := Context.trunk_enters hspace debug hc
  generalize hcanvas : (⟨config, measure⟩ : Context ℚ).canvas c.group = l
  have hmoved : Tally l.arrowEnds (l.boxes.map Bounds.topMiddle) flags := by
    rw [Layout.arrowEnds_eq]
    change Tally _ l.root.toShape.tops flags
    rw [Group.tops_toShape, ← hcanvas]
    exact htally.moved _ _
  have hall := List.forall₂_map_left_iff.mp hmoved
  refine ⟨hall.length_eq.trans hagree.length, ?_⟩
  rw [← hagree.tail, ← List.drop_one, ← List.drop_one]
  exact List.forall₂_drop 1 hall

/-- In the sample the test of the loop and what follows it are entered by one arrow each. -/
theorem layout_enters_sample :
    (⟨Config.classic, fun _ _ => ⟨30, 10⟩⟩ : Context ℚ).Generous ∧
    (Config.classic : Config ℚ).debug = false ∧
    (Config.classic : Config ℚ).lexis.parse Sample.source = .ok Sample.program ∧
    ∃ l, Layout.ofProgram Config.classic (fun _ _ => ⟨30, 10⟩ : Measure ℚ) Sample.program = .ok l ∧
      l.boxes.length = 3 ∧
      List.Forall₂ (fun box entered => l.arrowEnds.count box.topMiddle = entered.toNat)
        l.boxes.tail [true, true] := by
  have hspace : (⟨Config.classic, fun _ _ => ⟨30, 10⟩⟩ : Context ℚ).Generous :=
    Context.generous_classic fun _ _ => by norm_num
  have h := layout_enters_nodes Config.classic (fun _ _ => ⟨30, 10⟩) hspace rfl Sample.source
    Sample.program Sample.parse_source
  rw [Sample.statements_program] at h
  exact ⟨hspace, rfl, Sample.parse_source, h⟩

end Flowchart
