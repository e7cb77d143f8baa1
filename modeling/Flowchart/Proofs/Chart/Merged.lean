import Flowchart.Proofs.Chart.Spacing
/-! Merged branches keep the line margin. A branch is merged with the lines of its pending jumps, and
what was laid out on its trunk makes a layer of the strand that takes it over. -/
namespace Flowchart
open Hline (between eastward westward)

namespace Hline

theorem shift_zero (a : Hline) : a.shift 0 = a := by
  unfold shift
  simp only [sub_zero]
  rfl

theorem eastward_shift (p : ℚ × ℚ) (dx : ℚ) : eastward (p.1 + dx, p.2) = (eastward p).shift dx := by
  unfold eastward shift
  congr 1
  ext x
  change p.1 + dx ≤ x ↔ p.1 ≤ x - dx
  exact le_sub_iff_add_le.symm

theorem westward_shift (p : ℚ × ℚ) (dx : ℚ) : westward (p.1 + dx, p.2) = (westward p).shift dx := by
  unfold westward shift
  congr 1
  ext x
  change x ≤ p.1 + dx ↔ x - dx ≤ p.1
  exact sub_le_iff_le_add.symm

theorem map_shift_zero (lines : Multiset Hline) : lines.map (·.shift 0) = lines := by
  simp only [shift_zero, Multiset.map_id']

end Hline

namespace Strand
variable {pad : ℚ} {c child d e : Strand ℚ} {ls ms : Multiset Hline}

theorem resumeLine_shift (h : child.continues = [] ∨ child.continueTarget = c.continueTarget)
    (dx : ℚ) :
    (((child.continues.map fun p => (p.1 + dx, p.2)).map c.resumeLine : List Hline) :
        Multiset Hline) =
      ((child.continues.map child.resumeLine : List Hline) : Multiset Hline).map (·.shift dx) := by
  rw [Multiset.map_coe, List.map_map, List.map_map]
  rcases h with hnone | hsame
  · rw [hnone]
    rfl
  · refine congrArg _ (List.map_congr_left fun p _ => ?_)
    unfold Function.comp resumeLine
    rw [hsame]
    split
    · exact Hline.eastward_shift p dx
    · exact Hline.westward_shift p dx

theorem absorb_merges (dx : ℚ) (debug : c.debug = false) (hc : c.Upright) (hchild : child.Upright)
    (htarget : child.continues = [] ∨ child.continueTarget = c.continueTarget)
    (hplace : dx = 0 ∨ c.group.hull.Nonempty) :
    (c.absorb child dx).lines = c.lines + child.lines.map (·.shift dx) ∧
      c.group.hull ⊆ (c.absorb child dx).group.hull ∧
      {x | x - dx ∈ child.group.hull} ⊆ (c.absorb child dx).group.hull ∧
      (c.absorb child dx).Upright := by
  obtain ⟨hlines, hkept, hadded, hupright⟩ := absorb_spec debug hc.group hchild.group hplace
  refine ⟨?_, hkept, hadded, hupright, fun p hp => ?_⟩
  · have hresume := resumeLine_shift htarget dx
    have heast : (((child.breaks.map fun p => (p.1 + dx, p.2)).map eastward : List Hline) :
        Multiset Hline) =
        ((child.breaks.map eastward : List Hline) : Multiset Hline).map (·.shift dx) := by
      rw [Multiset.map_coe, List.map_map, List.map_map]
      exact congrArg _ (List.map_congr_left fun p _ => Hline.eastward_shift p dx)
    unfold lines
    rw [hlines, absorb_eq debug]
    dsimp only
    have hsame : resumeLine { c with
        group := c.group.push (child.group.shift dx 0).toShape
        breaks := c.breaks ++ child.breaks.map fun p => (p.1 + dx, p.2)
        continues := c.continues ++ child.continues.map fun p => (p.1 + dx, p.2)
        journal := c.journal ++ child.journal } = c.resumeLine := rfl
    rw [hsame, List.map_append, List.map_append, ← Multiset.coe_add, ← Multiset.coe_add, hresume,
      heast, Multiset.map_add, Multiset.map_add]
    abel
  · rw [absorb_eq debug] at hp
    simp only [List.mem_append, List.mem_map] at hp
    rcases hp with (hp | ⟨q, hq, rfl⟩) | hp | ⟨q, hq, rfl⟩
    · exact hkept (hc.held p (.inl hp))
    · refine hadded ?_
      change q.1 + dx - dx ∈ child.group.hull
      rw [add_sub_cancel_right]
      exact hchild.held q (.inl hq)
    · exact hkept (hc.held p (.inr hp))
    · refine hadded ?_
      change q.1 + dx - dx ∈ child.group.hull
      rw [add_sub_cancel_right]
      exact hchild.held q (.inr hq)

structure Stands (pad : ℚ) (ls : Multiset Hline) (s : Front) (arm : Strand ℚ) : Prop where
  layer : Layer pad arm.group.hull s arm.front ls
  lines : arm.lines ≤ ls
  upright : arm.Upright

theorem upright_blank (hgroup : c.group = .empty) (hbreaks : c.breaks = [])
    (hcontinues : c.continues = []) : c.Upright := by
  refine ⟨hgroup ▸ Group.upright_empty, fun p hp => ?_⟩
  rw [hbreaks, hcontinues] at hp
  rcases hp with hp | hp <;> cases hp

theorem lines_blank (hgroup : c.group = .empty) (hbreaks : c.breaks = [])
    (hcontinues : c.continues = []) : c.lines = 0 := by
  unfold lines
  rw [hgroup, hbreaks, hcontinues]
  rfl

theorem Extends.stands (h : c.Extends pad ls d) (hgroup : c.group = .empty) (hbreaks : c.breaks = [])
    (hcontinues : c.continues = []) : d.Stands pad ls c.front where
  layer := h.layer
  lines := by
    have hlines := h.lines
    rwa [lines_blank hgroup hbreaks hcontinues, zero_add] at hlines
  upright := h.upright (upright_blank hgroup hbreaks hcontinues)

theorem Stands.absorb (h : child.Stands pad ls c.front) (debug : c.debug = false) (hc : c.Upright)
    (htarget : child.continues = [] ∨ child.continueTarget = c.continueTarget) :
    Layer pad (c.absorb child 0).group.hull c.front child.front ls ∧
      (c.absorb child 0).lines ≤ c.lines + ls ∧ c.group.hull ⊆ (c.absorb child 0).group.hull ∧
      (c.absorb child 0).Upright := by
  obtain ⟨hlines, hkept, hadded, hupright⟩ :=
    absorb_merges 0 debug hc h.upright htarget (.inl (rfl : (0 : ℚ) = 0))
  have hlayer := (h.layer.shift 0).mono hadded
  rw [Hline.map_shift_zero] at hlayer hlines
  refine ⟨hlayer, ?_, hkept, hupright⟩
  rw [hlines]
  exact add_le_add_right h.lines c.lines

theorem dropDeadTip_draws (c : Strand ℚ) : c.Draws 0 c.dropDeadTip := by
  unfold dropDeadTip
  split
  · exact .refl c
  · exact (Draws.refl c).revise

structure Leads (pad : ℚ) (ls ms : Multiset Hline) (c d : Strand ℚ) : Prop where
  lines : d.group.lines ≤ c.group.lines + (ls + ms)
  inside : ∀ a ∈ ls + ms, a.Inside d.group.hull
  layer : Layer pad d.group.hull c.front d.front ms
  hull : c.group.hull ⊆ d.group.hull
  upright : c.group.Upright → d.group.Upright
  breaks : d.breaks = c.breaks
  continues : d.continues = c.continues
  keeps : c.Keeps d

namespace Leads
variable {t : Strand ℚ} {ls' ms' : Multiset Hline}

theorem refl (c : Strand ℚ) : c.Leads pad 0 0 c :=
  ⟨by simp, by simp, .refl _, subset_rfl, id, rfl, rfl, .refl c⟩

theorem of_draws (h : c.Advances t) (k : t.Draws (ls + ms) d)
    (layer : Layer pad d.group.hull c.front t.front ms) : c.Leads pad ls ms d where
  lines := h.group ▸ k.lines
  inside := k.inside
  layer := k.front ▸ layer
  hull := h.group ▸ k.hull
  upright hc := k.upright (h.group ▸ hc)
  breaks := k.breaks.trans h.breaks
  continues := k.continues.trans h.continues
  keeps := h.keeps.trans k.redraws.keeps

theorem trans (h : c.Leads pad ls ms d) (k : d.Leads pad ls' ms' e) :
    c.Leads pad (ls + ls') (ms + ms') e where
  lines := by
    refine (k.lines.trans (add_le_add_left h.lines _)).trans (le_of_eq ?_)
    abel
  inside := by
    rw [add_add_add_comm]
    exact forall_mem_add.mpr ⟨fun a ha => (h.inside a ha).mono k.hull, k.inside⟩
  layer := (h.layer.mono k.hull).andThen k.layer
  hull := h.hull.trans k.hull
  upright := k.upright ∘ h.upright
  breaks := k.breaks.trans h.breaks
  continues := k.continues.trans h.continues
  keeps := h.keeps.trans k.keeps

theorem revise (h : c.Leads pad ls ms d) {tip : Option ℚ} {alive : Bool}
    {journal : List (Stroke ℚ)} :
    c.Leads pad ls ms ⟨d.group, d.reach, tip, d.lanes, d.breakTarget, d.continueTarget, d.breaks,
      d.continues, alive, d.pad, d.debug, journal⟩ :=
  ⟨h.lines, h.inside, h.layer, h.hull, h.upright, h.breaks, h.continues,
    ⟨h.keeps.breakTarget, h.keeps.continueTarget, h.keeps.pad, h.keeps.debug⟩⟩

theorem shown (h : c.Leads pad ls ms d) : d.lines ≤ c.lines + (ls + ms) := by
  have hresume : d.resumeLine = c.resumeLine := by
    unfold resumeLine
    rw [h.keeps.continueTarget]
  unfold Strand.lines
  rw [h.breaks, h.continues, hresume, add_right_comm _ (_ : Multiset Hline) (ls + ms),
    add_right_comm c.group.lines]
  exact add_le_add_left (add_le_add_left h.lines _) _

theorem around (h : c.Leads pad ls ms d) (hc : c.Upright) : d.Upright where
  group := h.upright hc.group
  held p hp := by
    rw [h.breaks, h.continues] at hp
    exact h.hull (hc.held p hp)

end Leads

end Strand

namespace Context
open Strand
variable {x : Context ℚ} {c d arm : Strand ℚ} {ls : Multiset Hline}

theorem Steady.after (hc : x.Steady c) (h : c.Extends c.pad ls d) (keeps : c.Keeps d)
    (htip : c.tip.isSome → d.tip.isSome) : x.Steady d where
  pad := keeps.pad.trans hc.pad
  debug := keeps.debug.trans hc.debug
  sound := h.layer.sound hc.sound
  upright := h.upright hc.upright
  tip := by
    rw [keeps.breakTarget, keeps.continueTarget]
    exact htip ∘ hc.tip

theorem Steady.armFrom (hc : x.Steady c) (tip : ℚ) : x.Steady (c.armFrom tip) where
  pad := hc.pad
  debug := hc.debug
  sound := hc.sound
  upright := upright_blank rfl rfl rfl
  tip _ := rfl

theorem closeBelow_extends {pad : ℚ} (hc : x.Steady c) (harm : arm.Stands pad ls c.front)
    (keeps : c.Keeps arm) : c.Extends pad ls (closeBelow arm c) := by
  obtain ⟨hlayer, hlines, hkept, hupright⟩ :=
    harm.absorb hc.debug hc.upright (.inr keeps.continueTarget)
  exact ⟨hlayer.raise (le_max_right _ _), hlines, hkept,
    fun _ => ⟨hupright.group, hupright.held⟩⟩

theorem le_eastLane (hx : x.Roomy) {y : ℚ} (hy : y ∈ c.group.hull) :
    y ≤ c.eastLane x.config.stepX :=
  le_add_of_le_of_nonneg hy.2.2 (labelGap_nonneg.trans hx.stepX.le)

theorem westLane_le (hx : x.Roomy) {y : ℚ} (hy : y ∈ c.group.hull) :
    c.westLane x.config.stepX ≤ y :=
  (sub_le_self _ (labelGap_nonneg.trans hx.stepX.le)).trans hy.2.1

theorem takeTest_room (hx : x.Roomy) (hc : c.front.Sound) (hpad : 0 ≤ c.pad) (test : String)
    {start : ℚ} (size : ℚ) (hstart : c.reach ≤ start)
    (hsize : (x.diamond test).bounds.height + 2 * c.pad ≤ size) :
    c.Advances (c.takeBand start size).2 ∧ c.front.Room c.pad (c.takeBand start size).2.front
      ((c.takeBand start size).1 + c.pad + (x.diamond test).bounds.height / 2.0) := by
  obtain ⟨w, height, -, hheight, -, -, hbounds, -⟩ := diamond_spec hx test
  have hhigh : 0 ≤ (x.diamond test).bounds.height := by
    rw [hbounds]
    exact sub_nonneg.mpr hheight
  refine ⟨takeBand_advances _ _ _, (takeBand_takes hc hstart (by linarith)).room ?_ ?_⟩
  · norm_num
    linarith
  · norm_num
    linarith

end Context
end Flowchart
