import Flowchart.Proofs.Chart.SpacedFan
/-! Tries keep the line margin. The body of a try lies between the sides of its frame, and its
handlers hang from a line below the frame. -/
namespace Flowchart.Context
open Strand
open Hline (between)

variable {x : Context ℚ} {c holder body inner : Strand ℚ} {f : Fan ℚ} {s : Front}
  {ls ms arms : Multiset Hline} {top tap : ℚ}

theorem openTry_holder (hx : x.Roomy) (hc : x.Steady c) :
    c.front.Room c.pad (x.openTry c).2.1.front (x.openTry c).1 ∧ (x.openTry c).2.1.lines = 0 ∧
      (x.openTry c).2.1.Upright := by
  have hpad := hc.pad_nonneg hx
  obtain ⟨hadvances, hroom⟩ := takeLine_room (c := c.fork) hc.sound
    (reach_le_startBelow _ hx.stepY) (rfl : c.fork.pad = c.pad) hpad
  have hblank : c.fork.Upright := upright_blank rfl rfl rfl
  have hlines : c.fork.lines = 0 := lines_blank rfl rfl rfl
  unfold openTry
  dsimp only
  generalize c.fork.takeLine _ = taken at hadvances hroom ⊢
  obtain ⟨top, t⟩ := taken
  dsimp only at hadvances hroom ⊢
  have htrunk := trunkTo_draws (hadvances.group ▸ hblank.group) top false
  have hshown := htrunk.shown
  rw [add_zero, hadvances.lines, hlines] at hshown
  refine ⟨?_, Multiset.le_zero.mp hshown, htrunk.around (hadvances.upright hblank)⟩
  rw [htrunk.front]
  exact hroom

theorem openTry_body (hx : x.Roomy) (hc : x.Steady c) :
    x.Steady (x.openTry c).2.2 ∧ (x.openTry c).2.1.Keeps (x.openTry c).2.2 ∧
      ∀ hull, Layer c.pad hull (x.openTry c).2.1.front (x.openTry c).2.2.front 0 := by
  have hkeeps := x.openTry_keeps c
  obtain ⟨hroom, -, -⟩ := openTry_holder hx hc
  have hraised : ∀ hull, Layer c.pad hull (x.openTry c).2.1.front (x.openTry c).2.2.front 0 :=
    fun hull => (Layer.refl _).raise (le_add_of_nonneg_right hx.frameY)
  have hentered : (x.openTry c).2.2.tip = if c.tip.isSome then some (x.openTry c).1 else none := rfl
  refine ⟨⟨hkeeps.pad.trans hc.pad, hkeeps.debug.trans hc.debug,
    (hraised ∅).sound ((hroom.quiet ∅).sound hc.sound), upright_blank rfl rfl rfl, fun h => ?_⟩,
    ⟨rfl, rfl, rfl, rfl⟩, hraised⟩
  have htip := hc.tip (hkeeps.breakTarget ▸ hkeeps.continueTarget ▸ h)
  rw [hentered, htip]
  rfl

theorem endBody_draws (hc : inner.group.Upright) (bottom : ℚ) :
    inner.Draws 0 (if inner.alive then inner.trunkTo bottom false else inner) := by
  split
  · exact trunkTo_draws hc bottom false
  · exact .refl inner

theorem closeFrame_stands (hx : x.Roomy) (hc : x.Steady c) (hkeeps : c.Keeps holder)
    (hroom : c.front.Room c.pad holder.front top) (hlines : holder.lines = 0)
    (hup : holder.Upright) (hraised : ∀ hull, Layer c.pad hull holder.front body.front 0)
    (hsame : holder.Keeps inner) (hinner : inner.Stands c.pad ls body.front) :
    ∃ ms, (x.closeFrame top inner holder).holder.Stands c.pad ms c.front ∧
      (x.closeFrame top inner holder).holder.group.hull.Nonempty ∧
      0 ≤ (x.closeFrame top inner holder).right ∧
      ((x.closeFrame top inner holder).ends.map Prod.fst).Nodup ∧
      ∀ e ∈ (x.closeFrame top inner holder).ends, e.1 = 0 := by
  have hsound : inner.front.Sound :=
    hinner.layer.sound ((hraised ∅).sound ((hroom.quiet ∅).sound hc.sound))
  have hpad : inner.pad = c.pad := hsame.pad.trans hkeeps.pad
  obtain ⟨hadvances, hbelow⟩ := takeLine_room hsound
    (le_add_of_nonneg_right hx.frameY : inner.reach ≤ inner.reach + x.config.frame.padY) hpad
    (hc.pad_nonneg hx)
  unfold closeFrame
  dsimp only
  generalize inner.takeLine _ = taken at hadvances hbelow ⊢
  obtain ⟨bottom, lined⟩ := taken
  dsimp only at hadvances hbelow ⊢
  have hended := endBody_draws (hadvances.group ▸ hinner.upright.group) bottom
  generalize (if lined.alive then lined.trunkTo bottom false else lined) = ended at hended ⊢
  obtain ⟨revised, hrevised⟩ : ∃ revised : Strand ℚ, revised =
      { holder with reach := max holder.reach ended.reach, lanes := ended.lanes } := ⟨_, rfl⟩
  have hblank : revised.lines = 0 ∧ revised.Upright ∧ revised.debug = false ∧
      revised.continueTarget = holder.continueTarget ∧
      revised.front = ⟨max holder.reach lined.front.reach, lined.front.lanes⟩ := by
    rw [← hended.front, hrevised]
    exact ⟨hlines, ⟨hup.group, hup.held⟩, hkeeps.debug.trans hc.debug, rfl, rfl⟩
  rw [← hrevised]
  have hendedUp := hended.around (hadvances.upright hinner.upright)
  obtain ⟨hshown, -, hadded, hupright⟩ := absorb_merges 0 hblank.2.2.1 hblank.2.1 hendedUp
    (.inr (hended.redraws.continueTarget.trans (hadvances.keeps.continueTarget.trans
      (hsame.continueTarget.trans hblank.2.2.2.1.symm)))) (.inl (rfl : (0 : ℚ) = 0))
  have hfront : (revised.absorb ended 0).front = revised.front := by
    unfold Strand.front
    rw [(absorb_redraws revised ended 0).reach, (absorb_redraws revised ended 0).lanes]
  rw [Hline.map_shift_zero, hblank.1, zero_add] at hshown
  generalize revised.absorb ended 0 = absorbed at hshown hadded hupright hfront ⊢
  have hleft : min ended.group.extent.minX 0 - x.config.frame.padX ≤ 0 :=
    (sub_le_self _ hx.frameX).trans (min_le_right _ _)
  have hright : 0 ≤ max ended.group.extent.maxX 0 + x.config.frame.padX :=
    add_nonneg (le_max_right _ _) hx.frameX
  generalize min ended.group.extent.minX 0 - x.config.frame.padX = left at hleft ⊢
  generalize max ended.group.extent.maxX 0 + x.config.frame.padX = right at hright ⊢
  have hframe := drawFrame_draws hupright.group hleft hright top bottom
  generalize absorbed.draw _ = final at hframe ⊢
  obtain ⟨hupper, hlower⟩ := forall_mem_add.mp hframe.inside
  have hbody : inner.group.hull ⊆ final.group.hull := by
    intro y hy
    rw [← hadvances.group] at hy
    have hmoved := hended.hull hy
    rw [← sub_zero y] at hmoved
    exact hframe.hull (hadded hmoved)
  have hlayer := (((hroom _ _ _ _ le_rfl hupper).andThen (hraised _)).andThen
    (hinner.layer.mono hbody)).andThen (hbelow _ _ _ _ le_rfl hlower)
  refine ⟨{between left right top} + 0 + ls + {between left right bottom},
    ⟨?_, ?_, hframe.around hupright⟩, ?_, hright, ?_, ?_⟩
  · have hend := hlayer.raise (le_max_right holder.reach lined.front.reach)
    rw [← hblank.2.2.2.2, ← hfront, ← hframe.front] at hend
    exact hend
  · have hall := hframe.shown
    rw [hshown] at hall
    have hinnerLines : ended.lines ≤ ls := by
      refine (hended.shown.trans (add_zero _).le).trans ?_
      rw [hadvances.lines]
      exact hinner.lines
    refine (hall.trans (add_le_add_left hinnerLines _)).trans (le_of_eq ?_)
    abel
  · obtain ⟨m, hm, -⟩ := (hupper _ (Multiset.mem_singleton_self _)).west
    exact ⟨m, hm⟩
  · split <;> simp
  · split <;> simp

/-- The lines of a try are those of its frame and its body, the one from which its handlers hang,
those of the handlers, and the one that joins the ends of all of them. -/
theorem closeTry_extends (hx : x.Roomy) (hc : x.Steady c) {framed : Framed ℚ}
    (hstands : framed.holder.Stands c.pad ms c.front)
    (hends : (framed.ends.map Prod.fst).Nodup ∧ ∀ e ∈ framed.ends, e.1 = 0)
    (hroom : framed.holder.front.Room c.pad s tap) {plan : FanPlan ℚ} {index : Nat}
    (hplan : plan.firstDx = none)
    (hf : f.Spread c.pad s framed.holder.lines arms plan index)
    (hground : framed.holder.group.hull ⊆ f.holder.group.hull) (hkeeps : c.Keeps f.holder) :
    ∃ ls, c.Extends c.pad ls (closeTry tap framed f c) := by
  obtain ⟨hull, hsub, -, -, hlayer⟩ := hf.layer
  have hnonneg := hc.pad_nonneg hx
  have hup : f.finish.Upright := ⟨hf.upright.group, hf.upright.held⟩
  have hsound : f.finish.front.Sound :=
    hlayer.sound ((hroom.quiet ∅).sound (hstands.layer.sound hc.sound))
  obtain ⟨hsnug, hbus⟩ := Path.drop_spec framed.right framed.bottom tap (f.lastDx - framed.right)
  have hdrawn := drawPath_draws hsnug hup.group (.inr hf.some)
  unfold closeTry
  dsimp only
  generalize Path.horizontal ((Path.start framed.right framed.bottom).vertical
    (tap - framed.bottom)) (f.lastDx - framed.right) = bus at hbus hdrawn ⊢
  have hdraws := hdrawn
  rw [← add_zero bus.lines] at hdraws
  have hhung : f.finish.Leads c.pad bus.lines 0 (f.finish.draw (.path bus)) :=
    .of_draws ⟨rfl, rfl, rfl, rfl, rfl, .refl _⟩ hdraws (.refl _)
  generalize f.finish.draw (.path bus) = hung at hhung ⊢
  have hnodup : ((framed.ends ++ f.ends.map fun e => (e.dx, e.tip)).map Prod.fst).Nodup := by
    rw [List.map_append, List.map_map, List.nodup_append]
    refine ⟨hends.1, hf.ends, fun a ha b hb hab => ?_⟩
    obtain ⟨e, he, rfl⟩ := List.mem_map.mp ha
    obtain ⟨e', he', rfl⟩ := List.mem_map.mp hb
    have hpositive := hf.beside hplan e' he'
    change e.1 = e'.dx at hab
    rw [← hab, hends.2 e he] at hpositive
    exact lt_irrefl 0 hpositive
  obtain ⟨js, final, hall, hfinal⟩ : ∃ js final, f.finish.Leads c.pad bus.lines js final ∧
      (if (framed.ends ++ f.ends.map fun e => (e.dx, e.tip)).isEmpty then
        { hung with alive := false }
      else joinEnds (framed.ends ++ f.ends.map fun e => (e.dx, e.tip)) hung) = final := by
    split
    · exact ⟨0, _, hhung.revise, rfl⟩
    · obtain ⟨js, hjoined⟩ := joinEnds_leads (hhung.layer.sound hsound) (hhung.upright hup.group)
        hnonneg (hhung.keeps.pad.trans hkeeps.pad) (hf.some.mono hhung.hull) hnodup
      have hboth := hhung.trans hjoined
      rw [add_zero, zero_add] at hboth
      exact ⟨js, _, hboth, rfl⟩
  rw [hfinal]
  have hbusIn := (forall_mem_add.mp hall.inside).1
  have hrays : f.holder.lines ≤ framed.holder.lines + arms :=
    (Multiset.le_add_right _ _).trans hf.lines
  have hbase := (hstands.layer.le hstands.lines).mono (hground.trans hall.hull)
  have hlayers := ((hbase.andThen (hroom _ _ _ _ hbus hbusIn)).andThen
    (hlayer.mono (hsub.trans hall.hull))).andThen hall.layer
  have hend : final.Stands c.pad (framed.holder.lines + bus.lines + arms + js) c.front := by
    refine ⟨hlayers, ?_, hall.around hup⟩
    refine (hall.shown.trans (add_le_add_left hrays _)).trans (le_of_eq ?_)
    abel
  exact ⟨_, adopt_extends hc hend (hall.keeps.continueTarget.trans hkeeps.continueTarget)⟩

end Flowchart.Context
