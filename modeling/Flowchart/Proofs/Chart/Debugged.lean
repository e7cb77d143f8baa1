import Flowchart.Proofs.Chart.OverlaidFan
/-! The debug marks of a chart move nothing. A layout with marks is derived step by step beside the one
without them, and on a finished drawing the marks are told from the chart. -/
namespace Flowchart
variable {α : Type} [Scalar α]

def Stage.Arranged (x : Context α) : Stage α → Prop
  | .statement s c c' => x.arrange s c = .ok c'
  | .block b c c' => x.arrangeAll b c = .ok c'
  | .branches plan index bs f f' => x.arrangeBranches index bs plan f = .ok f'

namespace Exit
variable {j k : Jump} {d e : Direction} {second : Option (Jump × Direction)}

theorem chosen_twoJumps (h : d ≠ e) :
    chosen (some (j, d)) (some (k, e)) = .ok (.jump j d, .jump k e) := by
  unfold chosen choose
  dsimp only
  rw [if_neg h]
  exact if_neg h

theorem chosen_yesBelow (h : e ≠ .south) : chosen none (some (k, e)) = .ok (.south, .jump k e) :=
  if_neg h.symm

theorem chosen_noBelow (h : d ≠ .south) (hsame : ∀ k e, second = some (k, e) → d = e) :
    chosen (some (j, d)) second = .ok (.jump j d, .south) := by
  cases second with
  | none => exact if_neg h
  | some n =>
      unfold chosen choose
      dsimp only
      rw [if_pos (hsame n.1 n.2 rfl)]
      exact if_neg h

end Exit

namespace Context
variable {x : Context α}

theorem Run.arranged {stage : Stage α} (h : x.Run stage) : stage.Arranged x := by
  induction h with
  | text => rfl
  | pass => rfl
  | jump hjump => exact hjump
  | twoJumps hyes hno hparts hopen =>
      exact bind_eq_ok hyes (bind_eq_ok hno (bind_eq_ok (Exit.chosen_twoJumps hparts)
        (bind_eq_ok hopen rfl)))
  | yesBelow hyes hno hopen _ harm =>
      have hsouth := Strand.soleJump_ne_south hno _ _ rfl
      exact bind_eq_ok hyes (bind_eq_ok hno (bind_eq_ok (Exit.chosen_yesBelow hsouth)
        (bind_eq_ok hopen (bind_eq_ok harm rfl))))
  | noBelow hyes hno hsame hopen _ harm =>
      have hsouth := Strand.soleJump_ne_south hyes _ _ rfl
      exact bind_eq_ok hyes (bind_eq_ok hno (bind_eq_ok (Exit.chosen_noBelow hsouth hsame)
        (bind_eq_ok hopen (bind_eq_ok harm rfl))))
  | twoArms hyes hno hopen _ _ hsouth heast =>
      have hexits : Exit.chosen none none = .ok (.south, .east) := rfl
      exact bind_eq_ok hyes (bind_eq_ok hno (bind_eq_ok hexits (bind_eq_ok hopen
        (bind_eq_ok hsouth (bind_eq_ok heast rfl)))))
  | whileLoop _ hback hbody => exact bind_eq_ok hbody (bind_eq_ok hback rfl)
  | doLoop _ hbody => exact bind_eq_ok hbody rfl
  | switch hopen _ hcases =>
      cases hopen
      exact bind_eq_ok hcases rfl
  | tryBlock hopen _ hframe hline _ hbody hhandlers =>
      cases hopen
      cases hframe
      cases hline
      exact bind_eq_ok hbody (bind_eq_ok hhandlers rfl)
  | done => rfl
  | dead hdead => exact arrangeAll_of_dead hdead _
  | @next s rest c mid c' alive _ _ hs hrest =>
      change x.arrangeAll (s :: rest) c = .ok c'
      unfold arrangeAll
      rw [if_pos alive]
      exact bind_eq_ok hs hrest
  | noBranch => rfl
  | branch _ _ harm hrest => exact bind_eq_ok harm hrest

/-- Other values for the settings that no construct reads. -/
def withUnread (x : Context α) (debug : Bool) (theme : String) : Context α :=
  { x with config := { x.config with debug, theme } }

theorem closeWhile_withUnread (x : Context α) (debug : Bool) (theme : String) :
    (x.withUnread debug theme).closeWhile = x.closeWhile := by
  -- unfolded by hand, since `rfl` would compare the two contexts at every step again
  have hrouted : (x.withUnread debug theme).routeBack = x.routeBack := rfl
  unfold closeWhile
  rw [hrouted]
  rfl

theorem closeDo_withUnread (x : Context α) (debug : Bool) (theme : String) :
    (x.withUnread debug theme).closeDo = x.closeDo := by
  have htested : (x.withUnread debug theme).testDo = x.testDo := rfl
  have hgathered : (x.withUnread debug theme).gatherOnward = x.gatherOnward := rfl
  unfold closeDo
  rw [htested, hgathered]
  rfl

theorem Run.withUnread {stage : Stage α} (h : x.Run stage) (debug : Bool) (theme : String) :
    (x.withUnread debug theme).Run stage := by
  induction h with
  | text => exact .text
  | pass => exact .pass
  | jump hjump => exact .jump hjump
  | twoJumps hyes hno hparts hopen => exact .twoJumps hyes hno hparts hopen
  | yesBelow hyes hno hopen _ harm => exact .yesBelow hyes hno hopen harm
  | noBelow hyes hno hsame hopen _ harm => exact .noBelow hyes hno hsame hopen harm
  | twoArms hyes hno hopen _ _ hsouth heast => exact .twoArms hyes hno hopen hsouth heast
  | whileLoop _ hback hbody =>
      rw [← x.closeWhile_withUnread debug theme]
      exact .whileLoop hbody hback
  | doLoop _ hbody =>
      rw [← x.closeDo_withUnread debug theme]
      exact .doLoop hbody
  | switch hopen _ hcases => exact .switch hopen hcases
  | tryBlock hopen _ hframe hline _ hbody hhandlers =>
      exact .tryBlock hopen hbody hframe hline hhandlers
  | done => exact .done
  | dead hdead => exact .dead hdead
  | next alive _ _ hs hrest => exact .next alive hs hrest
  | noBranch => exact .noBranch
  | branch _ _ harm hrest => exact .branch harm hrest

def withDebug (x : Context α) (debug : Bool) : Context α := x.withUnread debug x.config.theme

theorem Run.withDebug {stage : Stage α} (h : x.Run stage) (debug : Bool) :
    (x.withDebug debug).Run stage :=
  h.withUnread debug x.config.theme

end Context

/-- A piece that is laid out without marks is laid out with marks too, and looks the same but for
them. -/
def Stage.Overlays (x : Context ℚ) : Stage ℚ → Prop
  | .statement s c c' => c.Rooted → ∀ d, c.Overlaid d →
      ∃ d', x.Run (.statement s d d') ∧ c'.Overlaid d'
  | .block b c c' => c.Rooted → ∀ d, c.Overlaid d → ∃ d', x.Run (.block b d d') ∧ c'.Overlaid d'
  | .branches plan index bs f f' => ∀ k, f.Overlaid k →
      ∃ k', x.Run (.branches plan index bs k k') ∧ f'.Overlaid k'

namespace Context
open Strand
variable {x : Context ℚ}

/-- Laying out goes the same way with marks and without: whatever it looks at is the same. -/
theorem Run.overlays (hmeasure : ∀ text attrs, 0 ≤ (x.measure text attrs).width ∧
    0 ≤ (x.measure text attrs).height) {stage : Stage ℚ} (h : x.Run stage) : stage.Overlays x := by
  induction h with
  | text => exact fun _ d h => ⟨_, .text, arrangeText_overlaid h _⟩
  | pass =>
      intro _ d h
      refine ⟨_, .pass, ?_⟩
      rw [h.reach]
      exact h.setReach _
  | jump hjump =>
      intro hc d h
      obtain ⟨heading, hheading, -⟩ := exists_of_bind_eq_ok hjump
      obtain ⟨d', hjump', hd⟩ := arrangeJump_overlaid h (hc.tip_of_heading hheading) hjump
      exact ⟨d', .jump hjump', hd⟩
  | twoJumps hyes hno hparts hopen =>
      intro _ d h
      obtain ⟨opened', hopen', hopened⟩ := openDecision_overlaid hmeasure h hopen
      exact ⟨_, .twoJumps ((h.soleJump _).trans hyes) ((h.soleJump _).trans hno) hparts hopen',
        hopened.setAlive false⟩
  | yesBelow hyes hno hopen _ ih =>
      intro _ d h
      obtain ⟨opened', hopen', hopened⟩ := openDecision_overlaid hmeasure h hopen
      obtain ⟨arm', hrun, harm⟩ := ih (.of_tip rfl) _ (hopened.armFrom _)
      exact ⟨_, .yesBelow ((h.soleJump _).trans hyes) ((h.soleJump _).trans hno) hopen' hrun,
        closeBelow_overlaid hopened harm⟩
  | noBelow hyes hno hsame hopen _ ih =>
      intro _ d h
      obtain ⟨opened', hopen', hopened⟩ := openDecision_overlaid hmeasure h hopen
      obtain ⟨arm', hrun, harm⟩ := ih (.of_tip rfl) _ (hopened.armFrom _)
      exact ⟨_, .noBelow ((h.soleJump _).trans hyes) ((h.soleJump _).trans hno) hsame hopen' hrun,
        closeBelow_overlaid hopened harm⟩
  | twoArms hyes hno hopen _ _ ihs ihe =>
      intro _ d h
      obtain ⟨opened', hopen', hopened⟩ := openDecision_overlaid hmeasure h hopen
      obtain ⟨south', hsouthRun, hsouth⟩ := ihs (.of_tip rfl) _ (hopened.armFrom _)
      obtain ⟨east', heastRun, heast⟩ := ihe (.of_tip rfl) _ ((hopened.share hsouth).armFrom _)
      exact ⟨_, .twoArms ((h.soleJump _).trans hyes) ((h.soleJump _).trans hno) hopen' hsouthRun
        heastRun, closeBeside_overlaid (closeBelow_overlaid hopened hsouth) hsouth heast _⟩
  | @whileLoop test body c inner back gathered _ hback ih =>
      intro _ d h
      obtain ⟨hentry, hentered⟩ := enter_overlaid (x := x) h
      obtain ⟨hbox, hopened⟩ := openWhile_overlaid (x := x) hentered test
      obtain ⟨inner', hrun, hinner⟩ := ih (.of_tip rfl) _ hopened
      obtain ⟨gathered', hback', hgathered⟩ := gatherBack_overlaid hinner hback
      refine ⟨_, .whileLoop hrun hback', ?_⟩
      rw [hentry, hbox]
      exact closeWhile_overlaid hentered hgathered _ _ _
  | @doLoop body test c inner _ ih =>
      intro _ d h
      obtain ⟨hentry, hentered⟩ := enter_overlaid (x := x) h
      have tip : ((x.enter c).2.loopBody .doWhile).tip.isSome :=
        Option.isSome_iff_exists.mpr ⟨_, trunkTo_tip _ _ _⟩
      obtain ⟨inner', hrun, hinner⟩ := ih (.of_tip tip) _ (hentered.loopBody .doWhile)
      refine ⟨_, .doLoop hrun, ?_⟩
      rw [hentry]
      exact closeDo_overlaid hentered hinner _ _
  | @switch subject cases c box tap holder fan hopen _ ih =>
      intro _ d h
      obtain ⟨hbox, htap, hholder⟩ := openSwitch_overlaid (x := x) h subject
      rw [hopen] at hbox htap hholder
      have hopen' : x.openSwitch subject d = (box, tap, (x.openSwitch subject d).2.2) :=
        Prod.ext hbox (Prod.ext htap rfl)
      obtain ⟨fan', hrun, hfan⟩ := ih _ (.start hholder _)
      exact ⟨_, .switch hopen' hrun, closeSwitch_overlaid h hfan tap⟩
  | @tryBlock body handlers c top holder inner framed drawn tap opened fan hopen _ hframe hline _ ihb
      ihh =>
      intro hc d h
      have hrooted := openTry_rooted (x := x) hc
      obtain ⟨htop, hholder, hinner⟩ := openTry_overlaid (x := x) h
      rw [hopen] at hrooted htop hholder hinner
      have hopen' : x.openTry d = (top, (x.openTry d).2.1, (x.openTry d).2.2) := Prod.ext htop rfl
      obtain ⟨framed', hbodyRun, hbody⟩ := ihb hrooted _ hinner
      have hdrawn := closeFrame_overlaid (x := x) hbody hholder top
      rw [hframe] at hdrawn
      generalize hframe' : x.closeFrame top framed' (x.openTry d).2.1 = drawn' at hdrawn
      obtain ⟨htap, hopened⟩ := hdrawn.takeLine
      rw [hline] at htap hopened
      have hline' : drawn'.holder.takeLine drawn'.holder.reach =
          (tap, (drawn'.holder.takeLine drawn'.holder.reach).2) := Prod.ext htap rfl
      obtain ⟨fan', hrun, hfan⟩ := ihh _ (.start hopened drawn.right)
      rw [← hdrawn.right] at hrun
      exact ⟨_, .tryBlock hopen' hbodyRun hframe' hline' hrun, closeTry_overlaid h hfan hdrawn tap⟩
  | done => exact fun _ d h => ⟨d, .done, h⟩
  | dead dead => exact fun _ d h => ⟨d, .dead (h.alive.trans dead), h⟩
  | @next s rest c mid c' alive hs _ ihs ihr =>
      intro hc d h
      obtain ⟨mid', hrun, hmid⟩ := ihs hc d h
      have hgoes : c.Goes _ mid := hs.goes x.config.words alive
      obtain ⟨d', hrestRun, hrest⟩ := ihr (hc.of_keeps hs.keeps hgoes.tip) mid' hmid
      exact ⟨d', .next (h.alive.trans alive) hrun hrestRun, hrest⟩
  | noBranch => exact fun k h => ⟨k, .noBranch, h⟩
  | @branch plan index label block rest f arm f' _ _ ihb ihr =>
      intro k h
      obtain ⟨-, tip, -⟩ := openBranch_picture (x := x) plan label f
      obtain ⟨arm', hrun, harm⟩ := ihb (.of_tip tip) _ (openBranch_overlaid h plan label)
      obtain ⟨k', hrestRun, hrest⟩ := ihr _ (closeBranch_overlaid h harm plan index)
      exact ⟨k', .branch hrun hrestRun, hrest⟩

/-- On the canvas marks take no room and hide nothing. -/
theorem canvas_overlaid {g k : Group ℚ} (h : g.Overlaid k) :
    (x.canvas k).width = (x.canvas g).width ∧ (x.canvas k).height = (x.canvas g).height ∧
      (x.canvas k).drawn = (x.canvas g).drawn ∧
      (x.canvas g).frames.Sublist (x.canvas k).frames := by
  have hmoved := h.shift (x.config.marginX - g.extent.minX) (x.config.marginY - g.extent.minY)
  unfold canvas
  rw [h.extent]
  refine ⟨rfl, rfl, ?_⟩
  unfold Layout.drawn Layout.frames Layout.leaves Group.toShape
  dsimp only
  rw [hmoved.x, hmoved.y]
  exact hmoved.children.leaves _ _

end Context

/-- A source that the parser accepts has the same layout with debug marks and without, but for these
marks, if no text has a negative size: the canvas, the rectangles, diamonds, texts and connectors
are the same, and the frames are among those that debugging draws. -/
theorem layout_debug_overlay (config : Config ℚ) (measure : Measure ℚ)
    (hmeasure : ∀ text attrs, 0 ≤ (measure text attrs).width ∧ 0 ≤ (measure text attrs).height)
    (source : String) (program : Node) (h : config.lexis.parse source = .ok program) :
    ∃ plain marked,
      Layout.ofProgram { config with debug := false } measure program = .ok plain ∧
      Layout.ofProgram { config with debug := true } measure program = .ok marked ∧
      marked.width = plain.width ∧ marked.height = plain.height ∧
      marked.drawn = plain.drawn ∧ plain.frames.Sublist marked.frames := by
  obtain ⟨plain, hplain⟩ := Context.ofProgram_ok { config with debug := false } measure
    (Rules.isProgram_of_parse h)
  obtain ⟨c, hc, rfl⟩ := Layout.ofProgram_eq_ok_iff.mp hplain
  have hroot : (Strand.root (config.hlineMargin / 2.0) false).Overlaid
      (Strand.root (config.hlineMargin / 2.0) true) := .intro rfl (.refl _)
  obtain ⟨d, hrun, hd⟩ := (Context.run_of_arrangeAll hc).overlays hmeasure nofun _ hroot
  have hmarked : Context.arrangeAll ⟨{ config with debug := true }, measure⟩ (Block.ofProgram program)
      (Context.root ⟨{ config with debug := true }, measure⟩) =
      .ok d := (hrun.withDebug true).arranged
  refine ⟨_, _, hplain, Layout.ofProgram_eq_ok_iff.mpr ⟨_, hmarked, rfl⟩, ?_⟩
  cases hd with
  | intro _ hg => exact Context.canvas_overlaid (x := ⟨{ config with debug := false }, measure⟩) hg

/-- A loop with a jump in each of two branches, drawn with marks and without. -/
theorem layout_debug_overlay_branching :
    (Config.classic : Config ℚ).lexis.parse Sample.branchingSource = .ok Sample.branchingProgram ∧
    ∃ plain marked,
      Layout.ofProgram { (Config.classic : Config ℚ) with debug := false } (fun _ _ => ⟨30, 10⟩)
        Sample.branchingProgram = .ok plain ∧
      Layout.ofProgram { (Config.classic : Config ℚ) with debug := true } (fun _ _ => ⟨30, 10⟩)
        Sample.branchingProgram = .ok marked ∧
      marked.width = plain.width ∧ marked.height = plain.height ∧
      marked.drawn = plain.drawn ∧ plain.frames.Sublist marked.frames :=
  ⟨Sample.parse_branching, layout_debug_overlay Config.classic (fun _ _ => ⟨30, 10⟩)
    (fun _ _ => by norm_num) Sample.branchingSource Sample.branchingProgram Sample.parse_branching⟩

end Flowchart
