import Flowchart.Proofs.Chart.Bands
import Flowchart.Proofs.Chart.Faithful
/-! Statements keep the line margin. Each of them lays out one layer of lines, below everything that
was there before it. -/
namespace Flowchart
open Hline (between eastward westward)

namespace Strand
variable {pad : ℚ} {c d e t : Strand ℚ} {ls ms : Multiset Hline}

structure Extends (pad : ℚ) (ls : Multiset Hline) (c d : Strand ℚ) : Prop where
  layer : Layer pad d.group.hull c.front d.front ls
  lines : d.lines ≤ c.lines + ls
  hull : c.group.hull ⊆ d.group.hull
  upright : c.Upright → d.Upright

theorem Extends.refl (c : Strand ℚ) : c.Extends pad 0 c :=
  ⟨.refl _, (add_zero _).ge, subset_rfl, id⟩

theorem Extends.trans (h : c.Extends pad ls d) (k : d.Extends pad ms e) :
    c.Extends pad (ls + ms) e where
  layer := (h.layer.mono k.hull).andThen k.layer
  lines := by
    rw [← add_assoc]
    exact k.lines.trans (add_le_add_left h.lines ms)
  hull := h.hull.trans k.hull
  upright := k.upright ∘ h.upright

theorem Extends.revise (h : c.Extends pad ls d) {tip : Option ℚ} {alive : Bool}
    {journal : List (Stroke ℚ)} :
    c.Extends pad ls ⟨d.group, d.reach, tip, d.lanes, d.breakTarget, d.continueTarget, d.breaks,
      d.continues, alive, d.pad, d.debug, journal⟩ :=
  ⟨h.layer, h.lines, h.hull, fun hc => ⟨(h.upright hc).group, (h.upright hc).held⟩⟩

theorem Extends.of_draws (h : c.Advances t) (k : t.Draws ls d)
    (layer : Layer pad d.group.hull c.front t.front ls) : c.Extends pad ls d where
  layer := k.front ▸ layer
  lines := h.lines ▸ k.shown
  hull := h.group ▸ k.hull
  upright := k.around ∘ h.upright

/-- The line along which a jump leaves. -/
def jumpLine (c : Strand ℚ) : Jump → ℚ × ℚ → Hline
  | .leave, p => eastward p
  | .resume, p => c.resumeLine p

theorem Keeps.jumpLine (h : c.Keeps d) : d.jumpLine = c.jumpLine := by
  unfold Strand.jumpLine resumeLine
  rw [h.continueTarget]

theorem headingOf_spec {j : Jump} {heading : Direction} (h : c.headingOf j = .ok heading) :
    (c.breakTarget.isSome ∨ c.continueTarget.isSome) ∧
      (heading = .east ∧ c.jumpLine j = eastward ∨ heading = .west ∧ c.jumpLine j = westward) := by
  unfold headingOf at h
  cases j with
  | leave =>
      dsimp only at h
      split at h
      · next target htarget =>
          cases h
          exact ⟨.inl (htarget ▸ rfl), .inl ⟨rfl, rfl⟩⟩
      · cases h
  | resume =>
      dsimp only at h
      split at h
      · next target htarget =>
          refine ⟨.inr (htarget ▸ rfl), ?_⟩
          unfold jumpLine resumeLine
          rw [htarget]
          cases target <;> cases h <;> simp
      · cases h

structure Notes (ls : Multiset Hline) (c d : Strand ℚ) : Prop where
  lines : d.lines = c.lines + ls
  group : d.group = c.group
  upright : c.Upright → d.Upright
  redraws : c.Redraws d

theorem Notes.refl (c : Strand ℚ) : c.Notes 0 c := ⟨(add_zero _).symm, rfl, id, .refl c⟩

theorem Notes.trans (h : c.Notes ls d) (k : d.Notes ms e) : c.Notes (ls + ms) e where
  lines := by rw [k.lines, h.lines, add_assoc]
  group := k.group.trans h.group
  upright := k.upright ∘ h.upright
  redraws := h.redraws.trans k.redraws

theorem noteJump_notes (debug : c.debug = false) (j : Jump) {p : ℚ × ℚ} (hp : p.1 ∈ c.group.hull) :
    c.Notes {c.jumpLine j p} (c.noteJump j p) where
  lines := by
    rw [noteJump_eq debug]
    cases j with
    | leave =>
        change c.group.lines + ((c.breaks ++ [p]).map eastward : List Hline) + _ = _
        rw [List.map_append, ← Multiset.coe_add, ← add_assoc, add_right_comm]
        rfl
    | resume =>
        change (_ : Multiset Hline) + ((c.continues ++ [p]).map c.resumeLine : List Hline) = _
        rw [List.map_append, ← Multiset.coe_add, ← add_assoc]
        rfl
  group := by
    rw [noteJump_eq debug]
    cases j <;> rfl
  upright hc := by
    rw [noteJump_eq debug]
    cases j with
    | leave =>
        refine ⟨hc.group, fun q hq => ?_⟩
        rw [List.mem_append, List.mem_singleton] at hq
        rcases hq with (hq | rfl) | hq
        · exact hc.held q (.inl hq)
        · exact hp
        · exact hc.held q (.inr hq)
    | resume =>
        refine ⟨hc.group, fun q hq => ?_⟩
        rw [List.mem_append, List.mem_singleton] at hq
        rcases hq with hq | hq | rfl
        · exact hc.held q (.inl hq)
        · exact hc.held q (.inr hq)
        · exact hp
  redraws := c.noteJump_redraws j p

theorem Extends.of_notes (h : c.Advances t) (k : t.Draws 0 d) (n : d.Notes ls e)
    (layer : Layer pad d.group.hull c.front t.front ls) : c.Extends pad ls e := by
  have hdrawn : c.Extends pad 0 d := .of_draws h k (layer.le (Multiset.zero_le ls))
  have hfront : e.front = t.front := by
    rw [← k.front]
    unfold Strand.front
    rw [n.redraws.reach, n.redraws.lanes]
  refine ⟨?_, ?_, n.group ▸ hdrawn.hull, n.upright ∘ hdrawn.upright⟩
  · rw [hfront, n.group]
    exact layer
  · rw [n.lines]
    have hlines := hdrawn.lines
    rw [add_zero] at hlines
    exact add_le_add_left hlines ls

end Strand

structure Context.Steady (x : Context ℚ) (c : Strand ℚ) : Prop where
  pad : c.pad = x.config.hlineMargin / 2
  debug : c.debug = false
  sound : c.front.Sound
  upright : c.Upright
  tip : c.breakTarget.isSome ∨ c.continueTarget.isSome → c.tip.isSome

namespace Context
open Strand
variable {x : Context ℚ} {c d : Strand ℚ}

theorem Roomy.halfGap_nonneg (hx : x.Roomy) : 0 ≤ x.halfGap := by
  have hstep := hx.stepY
  change 0 ≤ x.config.stepY / 2.0
  norm_num
  linarith

theorem Steady.pad_nonneg (hx : x.Roomy) (hc : x.Steady c) : 0 ≤ c.pad := by
  have hmargin := hx.margin
  rw [hc.pad]
  linarith

theorem arrangeText_extends (hx : x.Roomy) (hc : x.Steady c) (content : String) :
    ∃ ls, c.Extends c.pad ls (x.arrangeText content c) := by
  obtain ⟨w, h, hw, hh, hx0, hy0, hbounds, hedges⟩ := box_spec hx content
  unfold arrangeText
  dsimp only
  generalize Group.boxAround content (x.captionSize content).width (x.captionSize content).height
    x.config.rect.padX x.config.rect.padY = box at hx0 hy0 hbounds hedges ⊢
  have hwidth : box.bounds.width = w := by
    rw [hbounds]
    exact sub_zero w
  have hheight : box.bounds.height = h := by
    rw [hbounds]
    exact sub_zero h
  rw [hwidth, hheight]
  have hpad := hc.pad_nonneg hx
  have hmargin := hc.pad
  have hsize : (0 : ℚ) ≤ h + 2.0 * c.pad := by
    have := hx.margin
    linarith
  have htakes := takeBand_takes hc.sound (c.reach_le_startBelow hx.stepY) hsize
  have hadvances := takeBand_advances c (c.startBelow x.config.stepY) (h + 2.0 * c.pad)
  generalize c.takeBand (c.startBelow x.config.stepY) (h + 2.0 * c.pad) = taken at htakes hadvances ⊢
  obtain ⟨pos, t⟩ := taken
  dsimp only at htakes hadvances ⊢
  have htpad : t.pad = c.pad := hadvances.keeps.pad
  have hgroup : t.group.Upright := hadvances.group ▸ hc.upright.group
  have htrunk := trunkTo_draws hgroup (pos + t.pad) true
  have hbox := drawBox_draws (htrunk.upright hgroup) hx0 hy0 hw hbounds hedges (pos + t.pad)
  have hdraws := htrunk.trans hbox
  rw [zero_add] at hdraws
  refine ⟨_, .of_draws hadvances hdraws.revise (.of_takes_inside htakes ?_ (fun a ha => ?_)
    hdraws.inside)⟩
  · refine Scattered.add_iff.mpr ⟨.singleton _, .singleton _, fun a ha b hb => ?_⟩
    rw [Multiset.mem_singleton.mp ha, Multiset.mem_singleton.mp hb]
    refine Hline.apart_of_above (t := pos + t.pad + c.pad) le_rfl ?_
    change pos + t.pad + c.pad + c.pad ≤ pos + t.pad + h
    linarith
  · rcases Multiset.mem_add.mp ha with ha | ha <;> rw [Multiset.mem_singleton.mp ha]
    · change pos + c.pad ≤ pos + t.pad ∧ pos + t.pad + c.pad ≤ pos + (h + 2.0 * c.pad)
      rw [htpad]
      constructor <;> linarith
    · change pos + c.pad ≤ pos + t.pad + h ∧ pos + t.pad + h + c.pad ≤ pos + (h + 2.0 * c.pad)
      rw [htpad]
      constructor <;> linarith

theorem pass_extends (hx : x.Roomy) (c : Strand ℚ) :
    c.Extends c.pad 0 { c with reach := c.reach + x.config.stepY } where
  layer := (Layer.refl c.front).raise (le_add_of_nonneg_right hx.stepY)
  lines := (add_zero _).ge
  hull := subset_rfl
  upright hc := ⟨hc.group, hc.held⟩

theorem arrangeJump_extends (hx : x.Roomy) (hc : x.Steady c) {j : Jump}
    (h : x.arrangeJump j c = .ok d) : ∃ ls, c.Extends c.pad ls d := by
  obtain ⟨heading, hheading, h⟩ := exists_of_bind_eq_ok h
  obtain ⟨⟨pos, t⟩, htake, h⟩ := exists_of_bind_eq_ok h
  cases h
  obtain ⟨htarget, hline⟩ := headingOf_spec hheading
  have hpad := hc.pad_nonneg hx
  obtain ⟨hadvances, htakes, hwest, heast⟩ := takeExit_takes hc.sound
    (c.reach_le_startBelow hx.halfGap_nonneg) (by linarith : (0 : ℚ) ≤ 2.0 * c.pad) htake
  have htpad : t.pad = c.pad := hadvances.keeps.pad
  have hgroup : t.group.Upright := hadvances.group ▸ hc.upright.group
  have htip : t.tip.isSome := hadvances.tip ▸ hc.tip htarget
  have htrunk := trunkTo_draws hgroup (pos + t.pad) false
  have hzero := trunkTo_hull hgroup.x htip (pos + t.pad) false
  have hdebug : (t.trunkTo (pos + t.pad) false).debug = false :=
    htrunk.redraws.debug.trans (hadvances.keeps.debug.trans hc.debug)
  have hnotes := noteJump_notes hdebug j (p := (0, pos + t.pad)) hzero
  rw [(hadvances.keeps.trans htrunk.redraws.keeps).jumpLine] at hnotes
  have hband : (⟨pos + t.pad, Set.univ⟩ : Hline).band c.pad ⊆ Set.Ico pos (pos + 2.0 * c.pad) := by
    rw [htpad]
    rintro y ⟨hlow, hhigh⟩
    constructor <;> linarith
  have hnoted : c.Extends c.pad {c.jumpLine j (0, pos + t.pad)}
      ((t.trunkTo (pos + t.pad) false).noteJump j (0, pos + t.pad)) := by
    refine .of_notes hadvances htrunk hnotes (.of_takes htakes (.singleton _) ?_ ?_ ?_)
    all_goals
      intro a ha
      rw [Multiset.mem_singleton.mp ha]
      rcases hline with ⟨rfl, hline⟩ | ⟨rfl, hline⟩ <;> rw [hline]
    · change pos + c.pad ≤ pos + t.pad ∧ pos + t.pad + c.pad ≤ pos + 2.0 * c.pad
      rw [htpad]
      constructor <;> linarith
    · change pos + c.pad ≤ pos + t.pad ∧ pos + t.pad + c.pad ≤ pos + 2.0 * c.pad
      rw [htpad]
      constructor <;> linarith
    · exact .inl ⟨0, hzero, subset_rfl⟩
    · exact .inr (hwest.mono_left hband)
    · exact .inr (hband.trans (heast rfl))
    · exact .inl ⟨0, hzero, subset_rfl⟩
  exact ⟨_, hnoted.revise⟩

end Context
end Flowchart
