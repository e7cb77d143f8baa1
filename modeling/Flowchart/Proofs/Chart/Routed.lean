import Flowchart.Proofs.Chart.Bindings
import Flowchart.Proofs.Chart.Faithful
import Flowchart.Proofs.Chart.Lines
import Flowchart.Proofs.Chart.RoutingFan
/-! Every jump is led to the construct that it refers to, from the point where it leaves. What a
strand has drawn tells the story of the statements that were laid out on it. -/
namespace Flowchart
open Strand
variable {α : Type}

/-- A strand on which jumps lead where the surroundings say, from a trunk that has an end. -/
structure Strand.Obeys (r : Around) (c : Strand α) : Prop where
  resume : c.Turns r
  tip : ∀ j d, c.headingOf j = .ok d → c.tip.isSome
  debug : c.debug = false

namespace Strand.Obeys
variable {r : Around} {c d : Strand α}

theorem of_keeps (h : c.Obeys r) (keeps : c.Keeps d) (tip : c.tip.isSome → d.tip.isSome) :
    d.Obeys r where
  resume := h.resume.of_keeps keeps
  tip j e he := tip (h.tip j e ((keeps.headingOf j).symm.trans he))
  debug := keeps.debug.trans h.debug

theorem soleJump (h : c.Obeys r) {block : Block} {found : Option (Jump × Direction)}
    (hfound : c.soleJump block = .ok found) : r.soleJump block = found :=
  Turns.soleJump h.resume hfound

variable [Scalar α]

theorem loopBody {a : Address} (debug : c.debug = false) (htip : c.tip.isSome) {kind : JumpTarget}
    {toward : Direction} (hkind : kind.resumeDirection = .ok toward) :
    (c.loopBody kind).Obeys (.inLoop toward a) where
  resume d hd := by
    have hsame : Except.ok toward = Except.ok d := hkind.symm.trans hd
    cases hsame
    rfl
  tip _ _ _ := htip
  debug := debug

theorem openSwitch (h : c.Obeys r) (x : Context α) (subject : String) (a : Address) :
    (x.openSwitch subject c).2.2.Obeys (r.inSwitch a) where
  resume d hd := h.resume d (((x.openSwitch_keeps subject c).headingOf .resume).symm.trans hd)
  tip _ _ _ := Option.isSome_iff_exists.mpr ⟨_, trunkTo_tip _ _ _⟩
  debug := (x.openSwitch_keeps subject c).debug.trans h.debug

theorem openTry (h : c.Obeys r) (x : Context α) :
    (x.openTry c).2.1.Obeys r ∧ (x.openTry c).2.2.Obeys r := by
  have hholder := h.of_keeps (x.openTry_keeps c) fun _ =>
    Option.isSome_iff_exists.mpr ⟨_, trunkTo_tip _ _ _⟩
  refine ⟨hholder, h.of_keeps (x.openTry_keeps c).revise fun htip => ?_⟩
  change (if c.tip.isSome then some (x.openTry c).1 else none : Option α).isSome
  rw [if_pos htip]
  rfl

theorem openBranch {f : Fan α} (h : f.holder.Obeys r) (x : Context α) (plan : FanPlan α)
    (label : String) : (x.openBranch plan label f).Obeys r :=
  h.of_keeps (x.openBranch_keeps plan label f) fun _ => (Context.openBranch_picture plan label f).2.1

theorem armFrom (h : c.Obeys r) (tip : α) : (c.armFrom tip).Obeys r :=
  h.of_keeps (armFrom_keeps c tip) fun _ => rfl

end Strand.Obeys

variable [Scalar α]

def Stage.Told (x : Context α) : Stage α → Prop
  | .statement s c c' => ∀ r a t taken, c.Obeys r → c.alive = true → c.Recounts x t taken →
      c'.Recounts x (t.append (s.story r a)) taken
  | .block b c c' => ∀ r a number t taken, c.Obeys r → c.alive = t.alive →
      c.Recounts x t taken → c'.Recounts x (t.followedBy (Statement.storyAll r a number b)) taken
  | .branches plan _ bs f f' => ∀ r a number t, f.holder.Obeys r → f.Recounts x t plan →
      f'.Recounts x (t.append (Statement.storyBranches r a number bs)) plan

namespace Context
variable {x : Context α} {c c' : Strand α}

theorem Run.alive_statement {s : Statement} (h : x.Run (.statement s c c')) (debug : c.debug = false)
    (alive : c.alive = true) (r : Around) (a : Address) : c'.alive = (s.story r a).alive := by
  have hpicture := (h.shows debug alive).1
  rw [Picture.followedBy_of_alive (p := c.picture) alive] at hpicture
  rw [(Statement.story_agrees x.config.words r a s).alive]
  exact congrArg Picture.alive hpicture

theorem Run.alive_block {b : Block} (h : x.Run (.block b c c')) (debug : c.debug = false)
    (alive : c.alive = true) (r : Around) (a : Address) (number : Nat) :
    c'.alive = (Statement.storyAll r a number b).alive := by
  have hpicture := (h.shows debug).1
  rw [Picture.followedBy_of_alive (p := c.picture) alive] at hpicture
  rw [(Statement.storyAll_agrees x.config.words r a number b).alive]
  exact congrArg Picture.alive hpicture

theorem opened_recounts {r : Around} {t : Story} {taken : List (α × α)} (hc : c.Obeys r)
    (ht : c.Recounts x t taken) {test : String} {exits : Exit × Exit} {box : DecisionBox α}
    (hopen : x.openDecision test exits c = .ok (box, c'))
    (hexits : ∀ e ∈ exitJumps exits, e.2 ≠ .south) (a : Address) :
    c'.Obeys r ∧ c'.Recounts x (t.append (.test r a test (exitJumps exits))) taken :=
  ⟨hc.of_keeps (x.openDecision_keeps hopen) (openDecision_picture hopen hc.debug).2,
    openDecision_recounts ht hc.debug hopen hexits r a⟩

theorem armFrom_recounts (x : Context α) (c : Strand α) (tip : α) :
    (c.armFrom tip).Recounts x .blank [] := recounts_blank rfl rfl rfl rfl

omit [Scalar α] in
theorem jumps_ne_south {block : Block} {j : Jump} {d : Direction}
    (h : c.soleJump block = .ok (some (j, d))) : ∀ e ∈ [(j, d)], e.2 ≠ .south := by
  intro e he
  rw [List.mem_singleton.mp he]
  exact soleJump_ne_south h _ _ rfl

/-- When the handlers of a try are reached, the story of the body is told inside the frame. -/
theorem openHandlers_recounts {r : Around} (hc : c.Obeys r) {body : Block}
    {holder inner framed opened : Strand α} {top tap : α} {drawn : Framed α}
    (hopen : x.openTry c = (top, holder, inner)) (hframe : x.closeFrame top framed holder = drawn)
    (hline : drawn.holder.takeLine drawn.holder.reach = (tap, opened))
    (hbody : Stage.Told x (.block body inner framed)) (a : Address) :
    opened.Obeys r ∧
      opened.Recounts x (Story.blank.append
        (Story.blank.followedBy (Statement.storyAll r (0 :: a) 0 body))) [] := by
  obtain ⟨rfl, rfl, rfl⟩ := openTry_parts hopen
  obtain ⟨hholder, hinner⟩ := openTry_recounts x c
  obtain ⟨hholderObeys, hinnerObeys⟩ := hc.openTry x
  have hinside := hbody r (0 :: a) 0 .blank [] hinnerObeys rfl hinner
  have hframed := closeFrame_recounts hholder hholderObeys.debug hinside (x.openTry c).1
  obtain ⟨-, -, htip, -⟩ := closeFrame_picture (x := x) hholderObeys.debug (x.openTry c).1 framed
  rw [hframe] at hframed htip
  have hlined := hframed.quiet (takeLine_quiet drawn.holder drawn.holder.reach)
  have hsame : (drawn.holder.takeLine drawn.holder.reach).2.tip = (x.openTry c).2.1.tip := htip
  rw [hline] at hlined hsame
  refine ⟨hc.of_keeps (openHandlers_keeps rfl hframe hline).1 fun _ => ?_, hlined⟩
  rw [hsame]
  exact Option.isSome_iff_exists.mpr ⟨_, trunkTo_tip _ _ _⟩

theorem Run.told {stage : Stage α} (h : x.Run stage) : stage.Told x := by
  induction h with
  | @text content c =>
      intro r a t taken _ _ ht
      exact arrangeText_recounts ht content
  | @pass c =>
      intro r a t taken _ _ ht
      have hpassed := ht.quiet (d := { c with reach := c.reach + x.config.stepY })
        (Renders.refl c).revise
      exact hpassed.congr (List.append_nil _) (List.append_nil _) (List.append_nil _)
        (List.append_nil _)
  | @jump j c c' hjump =>
      intro r a t taken hc _ ht
      obtain ⟨d, hd, -⟩ := exists_of_bind_eq_ok hjump
      exact arrangeJump_recounts ht hc.debug (hc.tip j d hd) hjump r a
  | @twoJumps test yes no c j d k e box opened hyes hno hparts hopen =>
      intro r a t taken hc _ ht
      have hexits : ∀ e' ∈ exitJumps (.jump j d, .jump k e), e'.2 ≠ .south := by
        intro e' he'
        rcases List.mem_cons.mp he' with rfl | he'
        · exact soleJump_ne_south hyes _ _ rfl
        · rw [List.mem_singleton.mp he']
          exact soleJump_ne_south hno _ _ rfl
      have hopened := openDecision_recounts ht hc.debug hopen hexits r a
      rw [Statement.story, hc.soleJump hyes, hc.soleJump hno, Story.decision, if_neg hparts]
      refine Recounts.congr (hopened.quiet (Renders.refl opened).revise) ?_ ?_ ?_ ?_ <;> rfl
  | @yesBelow test yes no c k e box opened arm hyes hno hopen _ ih =>
      intro r a t taken hc _ ht
      obtain ⟨hobeys, hopened⟩ := opened_recounts hc ht hopen (jumps_ne_south hno) a
      have harm := ih r (0 :: a) 0 .blank [] (hobeys.armFrom box.bottom) rfl
        (armFrom_recounts x opened _)
      rw [Statement.story, hc.soleJump hyes, hc.soleJump hno, Story.decision, ← Story.append_assoc]
      exact closeBelow_recounts hopened hobeys.debug harm
  | @noBelow test yes no c j d second box opened arm hyes hno hsame hopen _ ih =>
      intro r a t taken hc _ ht
      obtain ⟨hobeys, hopened⟩ := opened_recounts hc ht hopen (jumps_ne_south hyes) a
      have harm := ih r (1 :: a) 0 .blank [] (hobeys.armFrom box.bottom) rfl
        (armFrom_recounts x opened _)
      have hclosed := closeBelow_recounts hopened hobeys.debug harm
      rw [Story.append_assoc] at hclosed
      rw [Statement.story, hc.soleJump hyes, hc.soleJump hno]
      cases second with
      | none => exact hclosed
      | some found =>
          rw [Story.decision, if_pos (hsame found.1 found.2 rfl)]
          exact hclosed
  | @twoArms test yes no c box opened south east hyes hno hopen _ _ ihSouth ihEast =>
      intro r a t taken hc _ ht
      obtain ⟨hobeys, hopened⟩ := opened_recounts hc ht hopen nofun a
      have hshared : (opened.share south).Obeys r := hobeys.of_keeps (share_keeps _ _) id
      have hsouth := ihSouth r (0 :: a) 0 .blank [] (hobeys.armFrom box.bottom) rfl
        (armFrom_recounts x opened _)
      have heast := ihEast r (1 :: a) 0 .blank [] (hshared.armFrom box.middle) rfl
        (armFrom_recounts x _ _)
      have hbelow := closeBelow_recounts hopened hobeys.debug hsouth
      have hclosed := closeBeside_recounts hbelow
        ((closeBelow_keeps south opened).debug.trans hobeys.debug) heast box south
      rw [Story.append_assoc, Story.append_assoc] at hclosed
      rw [Statement.story, hc.soleJump hyes, hc.soleJump hno, Story.decision]
      exact hclosed.congr rfl rfl rfl rfl
  | @whileLoop test body c inner back gathered hbody hback ih =>
      intro r a t taken hc _ ht
      have henter := enter_adds (x := x) c
      have htip : (x.enter c).2.tip.isSome := Option.isSome_iff_exists.mpr ⟨_, trunkTo_tip _ _ _⟩
      have hloop : ((x.enter c).2.loopBody .whileLoop).Obeys (.inLoop .west a) :=
        .loopBody (henter.debug.trans hc.debug) htip rfl
      have hobeys := hloop.of_keeps (x.openWhile_keeps test _) fun _ => rfl
      have hlive : (x.openWhile test (x.enter c).2).2.alive = true :=
        congrArg Picture.alive (openWhile_picture (x := x) test (x.enter c).2).1
      have hinner := ih _ a 0 _ _ hobeys hlive (openWhile_recounts x test (x.enter c).2 a)
      exact whileLoop_recounts (enter_recounts ht) (henter.debug.trans hc.debug) hinner
        (hbody.alive_block hobeys.debug hlive _ a 0) ((hbody.shows hobeys.debug).2 rfl) hback _
  | @doLoop body test c inner _ ih =>
      intro r a t taken hc _ ht
      have henter := enter_adds (x := x) c
      have htip : (x.enter c).2.tip.isSome := Option.isSome_iff_exists.mpr ⟨_, trunkTo_tip _ _ _⟩
      have hloop : ((x.enter c).2.loopBody .doWhile).Obeys (.inLoop .east a) :=
        .loopBody (henter.debug.trans hc.debug) htip rfl
      have hinner := ih _ a 0 .blank [] hloop rfl (recounts_blank rfl rfl rfl rfl)
      exact doLoop_recounts (enter_recounts ht) (henter.debug.trans hc.debug) hinner test a _
  | @switch subject cases c box tap holder fan hopen _ ih =>
      intro r a t taken hc _ ht
      obtain ⟨hholder, hbreaks⟩ := openSwitch_recounts x subject c a
      have hobeys := hc.openSwitch x subject a
      rw [hopen] at hholder hbreaks hobeys
      have hfan := ih _ a 0 _ hobeys (start_recounts hholder (fun _ => hbreaks) _)
      exact switch_recounts ht hc.debug hfan rfl tap
  | @tryBlock body handlers c top holder inner framed drawn tap opened fan hopen _ hframe hline _
      ihBody ihHandlers =>
      intro r a t taken hc _ ht
      obtain ⟨hopened, hlined⟩ := openHandlers_recounts hc hopen hframe hline ihBody a
      have hfan := ihHandlers r (1 :: a) 0 _ hopened (start_recounts hlined (fun h => by cases h) _)
      refine Recounts.congr (closeTry_recounts ht hc.debug hfan rfl tap drawn) ?_ ?_ ?_ ?_ <;> rfl
  | @done c =>
      intro r a number t taken _ _ ht
      rw [Statement.storyAll, Story.followedBy_blank]
      exact ht
  | @dead b c hdead =>
      intro r a number t taken _ halive ht
      rw [Story.followedBy_of_dead (halive.symm.trans hdead)]
      exact ht
  | @next s rest c mid c' alive hs _ ihs ihrest =>
      intro r a number t taken hc halive ht
      have hlive : t.alive = true := halive.symm.trans alive
      have hmid := ihs r (number :: a) t taken hc alive ht
      have hobeys := hc.of_keeps hs.keeps (hs.shows hc.debug alive).2
      have hrest := ihrest r a (number + 1) (t.append (s.story r (number :: a))) taken hobeys
        (hs.alive_statement hc.debug alive r (number :: a)) hmid
      rwa [← Story.followedBy_of_alive hlive, Story.followedBy_assoc] at hrest
  | @noBranch plan index f =>
      intro r a number t _ ht
      exact ⟨ht.holder.congr (List.append_nil _) (List.append_nil _) (List.append_nil _)
        (List.append_nil _), ht.taken, ht.pending⟩
  | @branch plan index label block rest f arm f' hblock _ ihBlock ihRest =>
      intro r a number t hf ht
      have harm := ihBlock r (number :: a) 0 .blank [] (hf.openBranch x plan label)
        (congrArg Picture.alive (openBranch_picture plan label f).1) (openBranch_recounts x plan label f)
      have hclosed := closeBranch_recounts ht hf.debug harm index
      have hrest := ihRest r a (number + 1) _
        (hf.of_keeps (x.closeBranch_keeps plan index arm f) fun hsome =>
          (absorb_tip hf.debug _ _).symm ▸ hsome) hclosed
      rw [Story.append_assoc] at hrest
      exact ⟨hrest.holder.congr rfl rfl rfl rfl, hrest.taken, hrest.pending⟩

/-- If texts have sizes, the sides of a test at which jumps leave are corners of its diamond. -/
theorem side_eq_corner {x : Context ℚ} (hmeasure : ∀ text attrs,
    0 ≤ (x.measure text attrs).width ∧ 0 ≤ (x.measure text attrs).height) {a : Address}
    {content : String} {p : Placed ℚ} (h : (Token.test a content).Shows x p) :
    x.side content p .east = (p.extent.maxX, (p.extent.minY + p.extent.maxY) / 2) ∧
      x.side content p .west = (p.extent.minX, (p.extent.minY + p.extent.maxY) / 2) := by
  obtain ⟨outline, caption, hp, hchildren⟩ := h
  obtain ⟨w, h, text, -, -, -, -, hsame, hbounds⟩ := diamond_bounds hmeasure content
  rw [hchildren] at hsame
  cases hsame
  have hextent : p.extent = ⟨p.x, p.y, w + p.x, h + p.y⟩ := by
    unfold Placed.extent
    rw [hp]
    change (⟨0 + 0 + p.x, 0 + 0 + p.y, w + 0 + p.x, h + 0 + p.y⟩ : Bounds ℚ) = _
    simp only [add_zero, zero_add]
  rw [hextent]
  unfold side Bounds.width Bounds.height
  rw [hbounds]
  refine ⟨Prod.ext ?_ ?_, Prod.ext rfl ?_⟩ <;> norm_num <;> ring

theorem root_obeys (pad : α) : (Strand.root pad false).Obeys .outermost where
  resume _ hd := by cases hd
  tip j _ hd := by cases j <;> cases hd
  debug := rfl

end Context

/-- A finished strand on which each jump of a story is led once, to the construct that takes it, by a
connector that is drawn from the points where its jumps leave. -/
structure Strand.LeadsJumps (x : Context α) (s : Story) (c : Strand α) : Prop where
  breaks : c.breaks = []
  continues : c.continues = []
  drawn : List.Forall₂ (Connector.Drawn x) s.connectors c.routes
  led : s.jumps.Perm s.led
  once : s.departed.Nodup
  proper : ∀ k ∈ s.connectors, k.Proper

namespace Context
variable {x : Context α} {c : Strand α}

theorem trunk_leadsJumps (debug : x.config.debug = false) {program : Node}
    (hprogram : program.IsProgram) (h : x.trunk program = .ok c) :
    c.LeadsJumps x (Story.ofProgram program) := by
  rw [trunk_eq] at h
  unfold root at h
  rw [debug] at h
  have htold := (run_of_arrangeAll h).told .outermost [] 0 .blank [] (root_obeys _) rfl
    (recounts_blank rfl rfl rfl rfl)
  have hstory : c.Recounts x (Story.ofProgram program) [] := htold
  have hleaving : (Story.ofProgram program).leaving = [] := Story.left_ofProgram hprogram .leave
  have hresuming : (Story.ofProgram program).resuming = [] := Story.left_ofProgram hprogram .resume
  have hbalanced := Statement.storyAll_balanced .outermost [] 0 (Block.ofProgram program)
  have hwithin := Statement.storyAll_within .outermost [] 0 (Block.ofProgram program)
  obtain ⟨told, -, -, -, hdrawn⟩ := hstory.tells
  refine ⟨?_, ?_, hdrawn, ?_, hwithin.jumpsOnce, hwithin.proper⟩
  · have hempty := hstory.breaks_isEmpty
    rw [hleaving] at hempty
    exact List.isEmpty_iff.mp hempty
  · have hempty := hstory.continues_isEmpty
    rw [hresuming] at hempty
    exact List.isEmpty_iff.mp hempty
  · change ((Story.ofProgram program).jumps : Multiset Departure) =
      Story.pending _ _ (Story.ofProgram program).leaving +
        Story.pending _ _ (Story.ofProgram program).resuming + _ at hbalanced
    rw [hleaving, hresuming] at hbalanced
    exact Multiset.coe_eq_coe.mp (hbalanced.trans (zero_add _))

end Context

/-- Every source that the parser accepts has a layout in which no jump is lost, doubled or misled:
each one that control reaches is a point of one connector of the construct that takes it, and with
exact arithmetic the point lies in the drawing where the jump leaves its branch. -/
theorem layout_leads_jumps [LawfulScalar α] (config : Config α) (measure : Measure α)
    (debug : config.debug = false) (source : String) (program : Node)
    (h : config.lexis.parse source = .ok program) :
    ∃ c, (⟨config, measure⟩ : Context α).trunk program = .ok c ∧
      Layout.ofProgram config measure program =
        .ok ((⟨config, measure⟩ : Context α).canvas c.group) ∧
      c.LeadsJumps ⟨config, measure⟩ (Story.ofProgram program) := by
  have hprogram := Rules.isProgram_of_parse h
  obtain ⟨l, hl⟩ := Context.ofProgram_ok config measure hprogram
  obtain ⟨c, hc, rfl⟩ := Layout.ofProgram_eq_ok_iff.mp hl
  have hrun := (Context.trunk_eq program).trans hc
  exact ⟨c, hrun, hl, Context.trunk_leadsJumps debug hprogram hrun⟩

/-- The break of the sample leaves at the east side of the decision in the loop, and refers to the
loop. -/
theorem layout_leads_sample : Scalar.Exact ℚ ∧ (Config.classic : Config ℚ).debug = false ∧
    (Config.classic : Config ℚ).lexis.parse Sample.source = .ok Sample.program ∧
    (Story.ofProgram Sample.program).jumps = [⟨.leave, .side [0, 0] .east, some [0]⟩] ∧
    ∃ c, (⟨Config.classic, fun _ _ => ⟨30, 10⟩⟩ : Context ℚ).trunk Sample.program = .ok c ∧
      Layout.ofProgram Config.classic (fun _ _ => ⟨30, 10⟩ : Measure ℚ) Sample.program =
        .ok ((⟨Config.classic, fun _ _ => ⟨30, 10⟩⟩ : Context ℚ).canvas c.group) ∧
      c.LeadsJumps ⟨Config.classic, fun _ _ => ⟨30, 10⟩⟩ (Story.ofProgram Sample.program) := by
  refine ⟨Scalar.exact_rat, rfl, Sample.parse_source, ?_,
    layout_leads_jumps Config.classic (fun _ _ => ⟨30, 10⟩) rfl Sample.source Sample.program
      Sample.parse_source⟩
  have hblock : Block.ofProgram Sample.program =
      [.doLoop [.decision "full" [.jump .leave] []] "not empty", .text "stop"] := by
    simp [Block.ofProgram, Sample.program, Sample.statements, Node.renumber, Block.ofNodes,
      Node.closing?, Block.alternative, Continuation.take?]
  rw [Story.ofProgram, hblock]
  rfl

end Flowchart
