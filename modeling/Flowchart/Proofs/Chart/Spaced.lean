import Flowchart.Proofs.Chart.SpacedDecision
import Flowchart.Proofs.Chart.SpacedLoop
import Flowchart.Proofs.Chart.SpacedFrame
/-! A finished chart keeps the line margin: of its horizontal edges, no two that share more than a
point in x lie closer to each other in y. -/
namespace Flowchart

/-- Laid out from a steady strand, a statement or a block shows a layer of lines below it, and
branches go on with the layer of those before them. -/
def Stage.Spaced (x : Context ℚ) : Stage ℚ → Prop
  | .statement _ c c' => x.Steady c → c.alive = true → ∃ ls, c.Extends c.pad ls c'
  | .block _ c c' => x.Steady c → ∃ ls, c.Extends c.pad ls c'
  | .branches plan index _ f f' => ∀ {pad s base arms}, s.Sound →
      plan.firstDx = none ∨ plan.firstDx = some 0 → pad = x.config.hlineMargin / 2 →
      f.holder.pad = pad → f.holder.debug = false → f.Spread pad s base arms plan index →
        ∃ arms' index', f'.Spread pad s base arms' plan index' ∧
          f.holder.group.hull ⊆ f'.holder.group.hull

namespace Context
open Strand
variable {x : Context ℚ} {c d arm : Strand ℚ} {ls : Multiset Hline}

theorem headingOf_soleJump {block : Block} {j : Jump} {d : Direction}
    (h : c.soleJump block = .ok (some (j, d))) : c.headingOf j = .ok d := by
  unfold soleJump aim at h
  split at h
  · obtain ⟨heading, hheading, h⟩ := exists_of_bind_eq_ok h
    cases h
    exact hheading
  · cases h

theorem Steady.shareFrom {pad : ℚ} (hc : x.Steady c) (harm : arm.Stands pad ls c.front) (tip : ℚ) :
    x.Steady ((c.share arm).armFrom tip) where
  pad := hc.pad
  debug := hc.debug
  sound :=
    { west := (harm.layer.sound hc.sound).west
      east := (harm.layer.sound hc.sound).east
      floor := by
        change ∀ f ∈ arm.front.lanes.west.floor, f ≤ c.reach
        rw [harm.layer.floor]
        exact hc.sound.floor
      eastFree := (harm.layer.sound hc.sound).eastFree }
  upright := upright_blank rfl rfl rfl
  tip _ := rfl

theorem Steady.openDecision (hc : x.Steady c) {test : String} {exits : Exit × Exit}
    {box : DecisionBox ℚ} (h : x.openDecision test exits c = .ok (box, d))
    (hd : c.Extends c.pad ls d) : x.Steady d :=
  hc.after hd (x.openDecision_keeps h) (openDecision_picture h hc.debug).2

theorem stands_below (hc : x.Steady c) (hd : x.Steady d) {tip : ℚ}
    (h : x.Steady (d.armFrom tip) → ∃ ls, (d.armFrom tip).Extends (d.armFrom tip).pad ls arm) :
    ∃ ls, arm.Stands c.pad ls d.front := by
  obtain ⟨ls, harm⟩ := h (hd.armFrom tip)
  have hpad : (d.armFrom tip).pad = c.pad := hd.pad.trans hc.pad.symm
  rw [hpad] at harm
  exact ⟨ls, harm.stands rfl rfl rfl⟩

theorem decisionBelow_extends (hx : x.Roomy) (hc : x.Steady c) {test : String} {exits : Exit × Exit}
    {j : Jump} {e : Direction} (hexits : exitJumps exits = [(j, e)]) {block : Block}
    (hjump : c.soleJump block = .ok (some (j, e))) {box : DecisionBox ℚ} {opened : Strand ℚ}
    (hopen : x.openDecision test exits c = .ok (box, opened))
    (hkept : (opened.armFrom box.bottom).Keeps arm)
    (ih : x.Steady (opened.armFrom box.bottom) →
      ∃ ls, (opened.armFrom box.bottom).Extends (opened.armFrom box.bottom).pad ls arm) :
    ∃ ls, c.Extends c.pad ls (closeBelow arm opened) := by
  obtain ⟨⟨ls, hopened⟩, -⟩ := openDecision_spec hx hc
    (by simp [hexits, headingOf_soleJump hjump]) (hexits ▸ List.pairwise_singleton _ (j, e)) hopen
  have hsteady := hc.openDecision hopen hopened
  obtain ⟨ms, hstands⟩ := stands_below hc hsteady ih
  exact ⟨_, hopened.trans (closeBelow_extends hsteady hstands ((armFrom_keeps _ _).trans hkept))⟩

theorem framed_stands (hx : x.Roomy) (hc : x.Steady c) {top tap : ℚ} {holder inner body opened : Strand ℚ}
    {drawn : Framed ℚ} (hopen : x.openTry c = (top, holder, inner)) (hkept : inner.Keeps body)
    (hbody : x.Steady inner → ∃ ls, inner.Extends inner.pad ls body)
    (hframe : x.closeFrame top body holder = drawn)
    (hline : drawn.holder.takeLine drawn.holder.reach = (tap, opened)) :
    (∃ ms, drawn.holder.Stands c.pad ms c.front) ∧
      ((drawn.ends.map Prod.fst).Nodup ∧ ∀ e ∈ drawn.ends, e.1 = 0) ∧
      drawn.holder.front.Room c.pad opened.front tap ∧
      ∀ plan, (Fan.start opened drawn.right).Spread c.pad opened.front drawn.holder.lines 0 plan 0 := by
  have hholder := openTry_holder hx hc
  have hstart := openTry_body hx hc
  have hkeeps := x.openTry_keeps c
  have hblank : (x.openTry c).2.2.group = .empty ∧ (x.openTry c).2.2.breaks = [] ∧
      (x.openTry c).2.2.continues = [] := ⟨rfl, rfl, rfl⟩
  rw [hopen] at hholder hstart hkeeps hblank
  obtain ⟨hroom, hlines, hup⟩ := hholder
  obtain ⟨hinner, hsame, hraised⟩ := hstart
  obtain ⟨ls, hextends⟩ := hbody hinner
  rw [hinner.pad.trans hc.pad.symm] at hextends
  obtain ⟨ms, hstands, hsome, hright, hends⟩ := closeFrame_stands hx hc hkeeps hroom hlines hup
    hraised (hsame.trans hkept) (hextends.stands hblank.1 hblank.2.1 hblank.2.2)
  have hframeKeeps := hkeeps.trans (x.closeFrame_keeps top body holder)
  rw [hframe] at hstands hsome hright hends hframeKeeps
  obtain ⟨hadvances, htap⟩ := takeLine_room (hstands.layer.sound hc.sound) le_rfl hframeKeeps.pad
    (hc.pad_nonneg hx)
  rw [hline] at hadvances htap
  exact ⟨⟨ms, hstands⟩, hends, htap, fun plan => start_spread hadvances.lines.le
    (hadvances.upright hstands.upright) (hadvances.group ▸ hsome) hright plan⟩

theorem branch_spread (hx : x.Roomy) {pad : ℚ} {s : Front} {base arms : Multiset Hline}
    {plan : FanPlan ℚ} {index : Nat} {f : Fan ℚ} (hs : s.Sound)
    (hplan : plan.firstDx = none ∨ plan.firstDx = some 0) (hmargin : pad = x.config.hlineMargin / 2)
    (hpad : f.holder.pad = pad) (hdebug : f.holder.debug = false)
    (hf : f.Spread pad s base arms plan index) {label : String}
    (hkept : (x.openBranch plan label f).Keeps arm)
    (hblock : x.Steady (x.openBranch plan label f) →
      ∃ ls, (x.openBranch plan label f).Extends (x.openBranch plan label f).pad ls arm) :
    ∃ arms', (x.closeBranch plan index arm f).Spread pad s base arms' plan (index + 1) ∧
      f.holder.group.hull ⊆ (x.closeBranch plan index arm f).holder.group.hull := by
  obtain ⟨hopened, hkeeps, hlayer, hlines⟩ :=
    openBranch_spec hx hs hf (hpad.trans hmargin) hdebug label
  obtain ⟨ls, harm⟩ := hblock hopened
  rw [hopened.pad.trans hmargin.symm] at harm
  have hshown := harm.lines
  rw [hlines] at hshown
  have hstands : arm.Stands pad (0 + ls) ⟨s.reach, f.holder.lanes⟩ :=
    ⟨(hlayer.mono harm.hull).andThen harm.layer, hshown, harm.upright hopened.upright⟩
  exact closeBranch_spread hx hf hplan hdebug hstands (hkeeps.trans hkept)

theorem Run.spaced (hx : x.Roomy) {stage : Stage ℚ} (h : x.Run stage) : stage.Spaced x := by
  induction h with
  | @text content c =>
      intro hc _
      exact arrangeText_extends hx hc content
  | @pass c =>
      intro _ _
      exact ⟨0, pass_extends hx c⟩
  | @jump j c c' hjump =>
      intro hc _
      exact arrangeJump_extends hx hc hjump
  | @twoJumps test yes no c j d k e box opened hyes hno hde hopen =>
      intro hc _
      obtain ⟨⟨ls, hopened⟩, -⟩ := openDecision_spec hx hc
        (by simp [exitJumps, Exit.jump?, headingOf_soleJump hyes, headingOf_soleJump hno])
        (by simp [exitJumps, Exit.jump?, hde]) hopen
      exact ⟨ls, hopened.revise⟩
  | @yesBelow test yes no c k e box opened arm hyes hno hopen harm ih =>
      intro hc _
      exact decisionBelow_extends hx hc rfl hno hopen harm.keeps ih
  | @noBelow test yes no c j d second box opened arm hyes hno hsame hopen harm ih =>
      intro hc _
      exact decisionBelow_extends hx hc rfl hyes hopen harm.keeps ih
  | @twoArms test yes no c box opened south east hyes hno hopen hsouth heast ihSouth ihEast =>
      intro hc _
      obtain ⟨⟨ls, hopened⟩, -, hcorner, hnone⟩ := openDecision_spec hx hc
        (by simp [exitJumps, Exit.jump?]) .nil hopen
      obtain ⟨hlines, hmiddle⟩ := hnone rfl
      have hsteady := hc.openDecision hopen hopened
      obtain ⟨ms, hstands⟩ := stands_below hc hsteady ihSouth
      obtain ⟨ks, hbeside⟩ := ihEast (hsteady.shareFrom hstands box.middle)
      have hpad : ((opened.share south).armFrom box.middle).pad = c.pad :=
        hsteady.pad.trans hc.pad.symm
      rw [hpad] at hbeside
      exact closeBeside_extends hx hc hsteady hlines hopened.hull hcorner hmiddle hstands
        ((armFrom_keeps _ _).trans hsouth.keeps) (hbeside.stands rfl rfl rfl)
        (((share_keeps _ _).trans (armFrom_keeps _ _)).trans heast.keeps)
  | @whileLoop test body c inner back gathered hbody hback ih =>
      intro hc _
      obtain ⟨hentry, hroom, htip⟩ := enter_spec hx hc
      have hentered : x.Steady (x.enter c).2 :=
        hc.after hentry (x.enter_keeps c) fun _ => htip ▸ rfl
      have hpad : (x.enter c).2.pad = c.pad := hentered.pad.trans hc.pad.symm
      obtain ⟨hopened, hlines, hmiddle, hcorner⟩ := openWhile_spec hx hentered (htip ▸ rfl) test
      obtain ⟨ls, hinner⟩ := ih hopened
      have hsteady := hopened.after hinner hbody.keeps
        (hbody.shows hopened.debug).2
      have htarget : inner.continueTarget = some .whileLoop :=
        hbody.keeps.continueTarget.trans (x.openWhile_keeps test _).continueTarget
      obtain ⟨⟨ms, hgathered⟩, hnone, hkeeps⟩ := gatherBack_extends hx hsteady htarget hback
      rw [hsteady.pad, ← hopened.pad] at hgathered
      have hboth := hinner.trans hgathered
      rw [hpad] at hmiddle
      rw [hopened.pad.trans hc.pad.symm] at hboth
      exact closeWhile_extends hx hc hentry (x.enter_keeps c) hroom hopened.upright hlines hmiddle
        hcorner hboth hnone (hkeeps.continueTarget.trans htarget)
  | @doLoop body test c inner hbody ih =>
      intro hc _
      obtain ⟨hentry, hroom, htip⟩ := enter_spec hx hc
      have hentered : x.Steady (x.enter c).2 :=
        hc.after hentry (x.enter_keeps c) fun _ => htip ▸ rfl
      have hopened := hentered.loopBody (htip ▸ rfl) .doWhile
      obtain ⟨ls, hinner⟩ := ih hopened
      have hsound := hinner.layer.sound hopened.sound
      have hpad : inner.pad = c.pad :=
        hbody.keeps.pad.trans (hopened.pad.trans hc.pad.symm)
      rw [hopened.pad.trans hc.pad.symm] at hinner
      exact closeDo_extends hx hc hentry (x.enter_keeps c) hroom (hinner.stands rfl rfl rfl) hpad
        hsound hbody.keeps.continueTarget test
  | @switch subject cases c box tap holder fan hopen hcases ih =>
      intro hc _
      have hspec := openSwitch_spec hx hc subject
      have hkeeps := x.openSwitch_keeps subject c
      rw [hopen] at hspec hkeeps
      obtain ⟨hroom, hlines, hup, hwidth, hsome⟩ := hspec
      have hpad : holder.pad = c.pad := hkeeps.pad
      obtain ⟨arms, index, hfan, -⟩ := ih ((hroom.quiet ∅).sound hc.sound) (.inr rfl) hc.pad hpad
        (hkeeps.debug.trans hc.debug) (start_spread hlines.le hup hsome hwidth _)
      exact closeSwitch_extends hx hc hroom hfan (hcases.keeps.pad.trans hpad)
        (hcases.keeps.continueTarget.trans hkeeps.continueTarget)
  | @tryBlock body handlers c top holder inner framed drawn tap opened fan hopen hbody hframe hline
      hhandlers ihBody ihHandlers =>
      intro hc _
      obtain ⟨⟨ms, hstands⟩, hends, htap, hstart⟩ :=
        framed_stands hx hc hopen hbody.keeps ihBody hframe hline
      obtain ⟨hopened, hsame⟩ := openHandlers_keeps hopen hframe hline
      obtain ⟨arms, index, hfan, hhull⟩ := ihHandlers
        ((htap.quiet ∅).sound (hstands.layer.sound hc.sound)) (.inl rfl) hc.pad hopened.pad
        (hopened.debug.trans hc.debug) (hstart _)
      exact closeTry_extends hx hc hstands hends htap rfl hfan (hsame ▸ hhull)
        (hopened.trans hhandlers.keeps)
  | @done c =>
      intro _
      exact ⟨0, .refl c⟩
  | @dead b c _ =>
      intro _
      exact ⟨0, .refl c⟩
  | @next s rest c mid c' halive hs hrest ihs ihrest =>
      intro hc
      obtain ⟨ls, hfirst⟩ := ihs hc halive
      have hmid := hc.after hfirst hs.keeps (hs.shows hc.debug halive).2
      obtain ⟨ms, hlater⟩ := ihrest hmid
      rw [hmid.pad.trans hc.pad.symm] at hlater
      exact ⟨_, hfirst.trans hlater⟩
  | noBranch =>
      intro pad s base arms _ _ _ _ _ hf
      exact ⟨arms, _, hf, subset_rfl⟩
  | @branch plan index label block rest f arm f' hblock hrest ihBlock ihRest =>
      intro pad s base arms hs hplan hmargin hpad hdebug hf
      obtain ⟨arms', hnext, hhull⟩ :=
        branch_spread hx hs hplan hmargin hpad hdebug hf hblock.keeps ihBlock
      have hclosed := x.closeBranch_keeps plan index arm f
      obtain ⟨arms'', index', hend, hhull'⟩ := ihRest hs hplan hmargin (hclosed.pad.trans hpad)
        (hclosed.debug.trans hdebug) hnext
      exact ⟨arms'', index', hend, hhull.trans hhull'⟩

theorem roomy_classic {measure : Measure ℚ}
    (h : ∀ text attrs, 0 ≤ (measure text attrs).width ∧ 0 ≤ (measure text attrs).height) :
    (⟨Config.classic, measure⟩ : Context ℚ).Roomy where
  measure := h
  margin := by change (0 : ℚ) ≤ 10.0; norm_num
  stepX := by change (4.0 : ℚ) < 24.0; norm_num
  stepY := by change (0 : ℚ) ≤ 20.0; norm_num
  rectX := by change (0 : ℚ) ≤ 12.0; norm_num
  rectY := by change (10.0 : ℚ) ≤ 2 * 8.0; norm_num
  frameX := by change (0 : ℚ) ≤ 10.0; norm_num
  frameY := by change (0 : ℚ) ≤ 10.0; norm_num

/-- The edges of what a program draws keep the margin. -/
theorem trunk_scattered (hx : x.Roomy) (debug : x.config.debug = false) {block : Block}
    (h : x.arrangeAll block x.root = .ok c) : Scattered (x.config.hlineMargin / 2) c.group.lines := by
  have hroot : x.Steady (.root (x.config.hlineMargin / 2.0) x.config.debug) :=
    { pad := by change x.config.hlineMargin / 2.0 = _; norm_num
      debug := debug
      sound := ⟨RangeSet.canonical_nil _, RangeSet.canonical_nil _, nofun, rfl⟩
      upright := upright_blank rfl rfl rfl
      tip := fun h => by rcases h with h | h <;> cases h }
  obtain ⟨ls, hlines⟩ := (run_of_arrangeAll h).spaced hx hroot
  have hshown := (hlines.stands rfl rfl rfl).lines
  have hgroup : c.group.lines ≤ c.lines :=
    (Multiset.le_add_right _ _).trans (Multiset.le_add_right _ _)
  rw [← hroot.pad]
  exact hlines.layer.apart.mono (hgroup.trans hshown)

end Context

/-- Two edges that share more than a point in x are at least a margin apart in y. -/
def Edge.Apart (margin : ℚ) (a b : Edge ℚ) : Prop :=
  max a.left b.left < min a.right b.right → margin ≤ |a.y - b.y|

theorem Edge.Apart.of_hline {margin : ℚ} {a b : Edge ℚ} (h : a.hline.Apart (margin / 2) b.hline) :
    a.Apart margin b := by
  intro hshare
  rw [max_lt_iff, lt_min_iff, lt_min_iff] at hshare
  obtain ⟨⟨ha, hab⟩, hba, hb⟩ := hshare
  have hboth := h (max a.left b.left)
    ⟨⟨le_max_left _ _, max_le ha.le hba.le⟩, ⟨le_max_right _ _, max_le hab.le hb.le⟩⟩
    (min a.right b.right)
    ⟨⟨le_min ha.le hab.le, min_le_left _ _⟩, ⟨le_min hba.le hb.le, min_le_right _ _⟩⟩
    (max_lt (lt_min ha hab) (lt_min hba hb))
  change margin ≤ |a.hline.y - b.hline.y|
  linarith

theorem Edge.Apart.shift {margin : ℚ} {a b : Edge ℚ} (h : a.Apart margin b) (dx dy : ℚ) :
    (a.shift dx dy).Apart margin (b.shift dx dy) := by
  intro hshare
  unfold Edge.shift at hshare ⊢
  dsimp only at hshare ⊢
  rw [max_add_add_right, min_add_add_right] at hshare
  have hy : a.y + dy - (b.y + dy) = a.y - b.y := by ring
  rw [hy]
  exact h (lt_of_add_lt_add_right hshare)

/-- Under the built-in configuration every source that the parser accepts has a layout, and its
horizontal edges keep the line margin. -/
theorem layout_edges_apart (measure : Measure ℚ)
    (hmeasure : ∀ text attrs, 0 ≤ (measure text attrs).width ∧ 0 ≤ (measure text attrs).height)
    (source : String) (program : Node)
    (h : (Config.classic : Config ℚ).lexis.parse source = .ok program) :
    ∃ l, Layout.ofProgram Config.classic measure program = .ok l ∧
      l.edges.Pairwise (Edge.Apart (Config.classic : Config ℚ).hlineMargin) := by
  obtain ⟨l, hl⟩ := Context.ofProgram_ok Config.classic measure (Rules.isProgram_of_parse h)
  refine ⟨l, hl, ?_⟩
  obtain ⟨c, hc, rfl⟩ := Layout.ofProgram_eq_ok_iff.mp hl
  have hscattered := Context.trunk_scattered (Context.roomy_classic hmeasure) rfl hc
  have hlist := (List.pairwise_map.mp (Multiset.pairwise_coe_iff_pairwise.mp hscattered)).imp
    Edge.Apart.of_hline
  rw [Layout.edges_eq]
  refine List.pairwise_map.mpr (List.Pairwise.imp (fun hab => Edge.Apart.shift hab 0 0) ?_)
  change ((c.group.shift _ _).toShape.edges).Pairwise _
  rw [Group.edges_toShape, Group.edges_shift]
  exact List.pairwise_map.mpr (hlist.imp fun hab => Edge.Apart.shift hab _ _)

/-- A loop with a decision in it, drawn with texts of a fixed size. -/
theorem layout_edges_apart_sample :
    (∀ text attrs, 0 ≤ ((fun _ _ => ⟨30, 10⟩ : Measure ℚ) text attrs).width ∧
      0 ≤ ((fun _ _ => ⟨30, 10⟩ : Measure ℚ) text attrs).height) ∧
    (Config.classic : Config ℚ).lexis.parse Sample.source = .ok Sample.program ∧
    ∃ l, Layout.ofProgram Config.classic (fun _ _ => ⟨30, 10⟩ : Measure ℚ) Sample.program = .ok l ∧
      l.edges.Pairwise (Edge.Apart (Config.classic : Config ℚ).hlineMargin) := by
  have hmeasure : ∀ text attrs, 0 ≤ ((fun _ _ => ⟨30, 10⟩ : Measure ℚ) text attrs).width ∧
      0 ≤ ((fun _ _ => ⟨30, 10⟩ : Measure ℚ) text attrs).height :=
    fun _ _ => ⟨by norm_num, by norm_num⟩
  exact ⟨hmeasure, Sample.parse_source,
    layout_edges_apart _ hmeasure Sample.source Sample.program Sample.parse_source⟩

end Flowchart
