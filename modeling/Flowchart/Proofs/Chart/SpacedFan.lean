import Flowchart.Proofs.Chart.Merged
/-! Branches beside each other keep the line margin. Each begins at the same height as the others, in
the lanes that those before it left, and east of all of them. -/
namespace Flowchart
open Strand
open Hline (between eastward westward)

structure Fan.Spread (pad : ℚ) (s : Front) (base arms : Multiset Hline) (plan : FanPlan ℚ)
    (index : Nat) (f : Fan ℚ) : Prop where
  layer : ∃ hull ⊆ f.holder.group.hull, (∀ y ∈ hull, y ≤ f.right) ∧ (index = 0 → hull = ∅) ∧
    Layer pad hull s ⟨f.reach, f.holder.lanes⟩ arms
  reach : f.holder.reach = s.reach
  lines : f.holder.lines + (f.breaks.map eastward : List Hline) ≤ base + arms
  upright : f.holder.Upright
  broken : ∀ p ∈ f.breaks, p.1 ∈ f.holder.group.hull
  some : f.holder.group.hull.Nonempty
  right : 0 ≤ f.right
  ends : (f.ends.map BranchEnd.dx).Nodup
  within : ∀ e ∈ f.ends, e.dx ≤ f.right
  first : index = 0 → f.ends = []
  beside : plan.firstDx = none → ∀ e ∈ f.ends, 0 < e.dx

namespace Context
variable {x : Context ℚ} {c d arm : Strand ℚ} {f g : Fan ℚ} {pad : ℚ} {s : Front}
  {ls ms base arms : Multiset Hline} {plan : FanPlan ℚ} {index : Nat}

theorem labelBranch_extends (pad : ℚ) (hx : x.Roomy) (hc : c.front.Sound) (hup : c.group.Upright)
    (text : String) :
    c.Extends pad 0 (x.labelBranch text c) ∧ c.Keeps (x.labelBranch text c) := by
  obtain ⟨hwidth, hheight⟩ := hx.labelSize text
  have hgap := labelGap_nonneg
  unfold labelBranch
  split
  · exact ⟨.refl c, .refl c⟩
  · dsimp only
    have hadvances := takeBand_advances c (c.reach + labelGap) (x.labelSize text).height
    have htakes := takeBand_takes hc (le_add_of_nonneg_right hgap) hheight
    generalize c.takeBand _ _ = taken at hadvances htakes ⊢
    obtain ⟨pos, t⟩ := taken
    dsimp only at hadvances htakes ⊢
    refine ⟨.of_draws hadvances (drawText_draws (hadvances.group ▸ hup) _ (.inl ⟨?_, ?_⟩))
      (htakes.quiet _ _), hadvances.keeps.trans (draw_redraws _ _).keeps⟩
    · change -(x.labelSize text).width / 2.0 + ((x.labelSize text).width / 2.0 + labelGap) ≤ _
      norm_num
      linarith
    · change 0 ≤ (x.labelSize text).width / 2.0 + ((x.labelSize text).width / 2.0 + labelGap)
      norm_num
      linarith

theorem openBranch_spec (hx : x.Roomy) (hs : s.Sound) (hf : f.Spread pad s base arms plan index)
    (hpad : f.holder.pad = x.config.hlineMargin / 2) (hdebug : f.holder.debug = false)
    (label : String) :
    x.Steady (x.openBranch plan label f) ∧ f.holder.Keeps (x.openBranch plan label f) ∧
      Layer pad (x.openBranch plan label f).group.hull ⟨s.reach, f.holder.lanes⟩
        (x.openBranch plan label f).front 0 ∧ (x.openBranch plan label f).lines = 0 := by
  obtain ⟨hull, -, -, -, hlayer⟩ := hf.layer
  have hsound : Front.Sound ⟨s.reach, f.holder.lanes⟩ := by
    have hend := hlayer.sound hs
    exact ⟨hend.west, hend.east, hlayer.floor.symm ▸ hs.floor, hend.eastFree⟩
  obtain ⟨forked, hforked⟩ : ∃ forked : Strand ℚ,
    forked = { f.holder.fork with tip := some plan.tap } := ⟨_, rfl⟩
  have hfront : forked.front = ⟨s.reach, f.holder.lanes⟩ := by
    rw [hforked, ← hf.reach]
    rfl
  have hblank : forked.Upright ∧ forked.lines = 0 := by
    rw [hforked]
    exact ⟨upright_blank rfl rfl rfl, lines_blank rfl rfl rfl⟩
  obtain ⟨hlabel, hkept⟩ := labelBranch_extends pad hx (hfront ▸ hsound) hblank.1.group label
  have hkeeps : f.holder.Keeps (x.labelBranch label forked) :=
    Keeps.trans (hforked ▸ ⟨rfl, rfl, rfl, rfl⟩) hkept
  have hlines := hlabel.lines
  rw [hblank.2, add_zero] at hlines
  have hopened : x.openBranch plan label f = x.labelBranch label forked := hforked ▸ rfl
  obtain ⟨-, htip, -⟩ := openBranch_picture (x := x) plan label f
  rw [hopened] at htip ⊢
  have hlayer := hlabel.layer
  rw [hfront] at hlayer
  exact ⟨⟨hkeeps.pad.trans hpad, hkeeps.debug.trans hdebug, hlayer.sound hsound,
    hlabel.upright hblank.1, fun _ => htip⟩, hkeeps, hlayer, Multiset.le_zero.mp hlines⟩

theorem branchDx_spec (index : Nat) (hx : x.Roomy) (harm : arm.group.Upright)
    (hplan : plan.firstDx = none ∨ plan.firstDx = some 0) (f : Fan ℚ) :
    (index = 0 ∧ plan.firstDx = some 0 ∧ x.branchDx plan index arm f = 0) ∨
      (f.right < x.branchDx plan index arm f ∧
        ∀ y, y - x.branchDx plan index arm f ∈ arm.group.hull → f.right ≤ y) := by
  have hstep := hx.stepX
  have hgap := labelGap_nonneg
  have hminX := harm.minX
  have hbeside : f.right < f.right + x.config.stepX - arm.group.extent.minX ∧
      ∀ y, y - (f.right + x.config.stepX - arm.group.extent.minX) ∈ arm.group.hull →
        f.right ≤ y := by
    refine ⟨by linarith, ?_⟩
    rintro y ⟨-, hmin, -⟩
    linarith
  unfold branchDx
  split
  · next dx hfirst =>
      rcases hplan with hnone | hzero
      · rw [hfirst] at hnone
        cases hnone
      · rw [hfirst] at hzero
        cases hzero
        exact .inl ⟨rfl, hfirst, rfl⟩
  · exact .inr hbeside

theorem rest_lines (arm : Strand ℚ) (dx : ℚ) :
    ({ arm with breaks := [] } : Strand ℚ).lines.map (·.shift dx) +
      ((arm.breaks.map fun p => (p.1 + dx, p.2)).map eastward : List Hline) =
        arm.lines.map (·.shift dx) := by
  have heast : (((arm.breaks.map fun p => (p.1 + dx, p.2)).map eastward : List Hline) :
      Multiset Hline) =
      ((arm.breaks.map eastward : List Hline) : Multiset Hline).map (·.shift dx) := by
    rw [Multiset.map_coe, List.map_map, List.map_map]
    exact congrArg _ (List.map_congr_left fun p _ => Hline.eastward_shift p dx)
  rw [heast, ← Multiset.map_add]
  refine congrArg _ ?_
  change arm.group.lines + 0 + _ + _ = _
  unfold Strand.lines
  rw [add_zero, add_right_comm]
  rfl

theorem closeBranch_merges (debug : f.holder.debug = false) (hf : f.holder.Upright)
    (hbroken : ∀ p ∈ f.breaks, p.1 ∈ f.holder.group.hull) (hsome : f.holder.group.hull.Nonempty)
    (harm : arm.Upright) (keeps : f.holder.Keeps arm) {dx : ℚ}
    (hdx : x.branchDx plan index arm f = dx) (hg : x.closeBranch plan index arm f = g) :
    g.holder.lines + (g.breaks.map eastward : List Hline) =
        f.holder.lines + (f.breaks.map eastward : List Hline) + arm.lines.map (·.shift dx) ∧
      f.holder.group.hull ⊆ g.holder.group.hull ∧
      {y | y - dx ∈ arm.group.hull} ⊆ g.holder.group.hull ∧ g.holder.Upright ∧
      ∀ p ∈ g.breaks, p.1 ∈ g.holder.group.hull := by
  subst hg
  unfold closeBranch
  dsimp only
  rw [hdx]
  cases plan.takesBreaks with
  | true =>
      have hrest : ({ arm with breaks := [] } : Strand ℚ).Upright := by
        refine ⟨harm.group, fun p hp => ?_⟩
        rcases hp with hp | hp
        · cases hp
        · exact harm.held p (.inr hp)
      obtain ⟨hlines, hkept, hadded, hupright⟩ := absorb_merges dx debug hf hrest
        (.inr keeps.continueTarget) (.inr hsome)
      simp only [if_true]
      refine ⟨?_, hkept, hadded, ⟨hupright.group, hupright.held⟩, fun p hp => ?_⟩
      · change (f.holder.absorb { arm with breaks := [] } dx).lines + _ = _
        rw [hlines, List.map_append, ← Multiset.coe_add, add_add_add_comm,
          rest_lines]
      · rcases List.mem_append.mp hp with hp | hp
        · exact hkept (hbroken p hp)
        · obtain ⟨q, hq, rfl⟩ := List.mem_map.mp hp
          refine hadded ?_
          change q.1 + dx - dx ∈ arm.group.hull
          rw [add_sub_cancel_right]
          exact harm.held q (.inl hq)
  | false =>
      obtain ⟨hlines, hkept, hadded, hupright⟩ := absorb_merges dx debug hf harm
        (.inr keeps.continueTarget) (.inr hsome)
      simp only [Bool.false_eq_true, if_false, List.append_nil]
      refine ⟨?_, hkept, hadded, ⟨hupright.group, hupright.held⟩,
        fun p hp => hkept (hbroken p hp)⟩
      change (f.holder.absorb arm dx).lines + _ = _
      rw [hlines, add_right_comm]

theorem closeBranch_spread (hx : x.Roomy) (hf : f.Spread pad s base arms plan index)
    (hplan : plan.firstDx = none ∨ plan.firstDx = some 0) (hdebug : f.holder.debug = false)
    (harm : arm.Stands pad ms ⟨s.reach, f.holder.lanes⟩) (keeps : f.holder.Keeps arm) :
    ∃ arms', (x.closeBranch plan index arm f).Spread pad s base arms' plan (index + 1) ∧
      f.holder.group.hull ⊆ (x.closeBranch plan index arm f).holder.group.hull := by
  obtain ⟨hull, hsub, hwest, hfirst, hlayer⟩ := hf.layer
  generalize hdx : x.branchDx plan index arm f = dx
  generalize hg : x.closeBranch plan index arm f = g
  obtain ⟨hlines, hkept, hadded, hupright, hbroken⟩ := closeBranch_merges hdebug hf.upright hf.broken
    hf.some harm.upright keeps hdx hg
  have hplace := branchDx_spec index hx harm.upright.group hplan f
  rw [hdx] at hplace
  have hmaxX := harm.upright.group.maxX
  have hright : g.right = max f.right (dx + arm.group.extent.maxX) := by
    rw [← hg, ← hdx]
    rfl
  have hends : g.ends = f.ends ++ branchEnd index dx arm := by
    rw [← hg, ← hdx]
    rfl
  have hend : ∀ e ∈ branchEnd index dx arm, e.dx = dx := by
    intro e he
    unfold branchEnd at he
    split at he
    · rw [List.mem_singleton.mp he]
    · cases he
  have hparted : ∀ l ∈ hull, ∀ r ∈ {y | y - dx ∈ arm.group.hull}, l ≤ r := by
    intro l hl r hr
    rcases hplace with ⟨hzero, -, -⟩ | ⟨-, hbeside⟩
    · rw [hfirst hzero] at hl
      cases hl
    · exact (hwest l hl).trans (hbeside r hr)
  have hbeside := hlayer.beside (u := arm.front) (harm.layer.shift dx) hparted
    (le_max_left f.reach arm.reach) (le_max_right f.reach arm.reach)
  have hfront : (⟨g.reach, g.holder.lanes⟩ : Front) = ⟨max f.reach arm.reach, arm.lanes⟩ := by
    rw [← hg]
    rfl
  have hright' : f.right ≤ g.right ∧ dx + arm.group.extent.maxX ≤ g.right := by
    rw [hright]
    exact ⟨le_max_left _ _, le_max_right _ _⟩
  have hdxRight : dx ≤ g.right := by linarith
  refine ⟨arms + ms.map (·.shift dx),
    { layer := ⟨_, Set.union_subset (hsub.trans hkept) hadded, ?_, nofun, hfront ▸ hbeside⟩
      reach := ?_
      lines := ?_
      upright := hupright
      broken := hbroken
      some := hf.some.mono hkept
      right := hf.right.trans hright'.1
      ends := ?_
      within := fun e he => ?_
      first := nofun
      beside := fun hnone e he => ?_ }, hkept⟩
  · rintro y (hy | ⟨-, -, hy⟩)
    · exact (hwest y hy).trans hright'.1
    · linarith
  · rw [← hg]
    exact (absorb_redraws f.holder _ _).reach.trans hf.reach
  · rw [hlines, ← add_assoc]
    exact add_le_add hf.lines (Multiset.map_le_map harm.lines)
  · rw [hends, List.map_append, List.nodup_append]
    refine ⟨hf.ends, ?_, fun a ha b hb hab => ?_⟩
    · unfold branchEnd
      split
      · exact List.nodup_singleton _
      · exact List.nodup_nil
    · obtain ⟨e, he, rfl⟩ := List.mem_map.mp ha
      obtain ⟨e', he', rfl⟩ := List.mem_map.mp hb
      rcases hplace with ⟨hzero, -, -⟩ | ⟨hafter, -⟩
      · rw [hf.first hzero] at he
        cases he
      · have hbefore := hf.within e he
        rw [hab, hend e' he'] at hbefore
        exact absurd hafter (not_lt.mpr hbefore)
  · rw [hends, List.mem_append] at he
    rcases he with he | he
    · exact (hf.within e he).trans hright'.1
    · exact (hend e he).trans_le hdxRight
  · rw [hends, List.mem_append] at he
    rcases he with he | he
    · exact hf.beside hnone e he
    · rcases hplace with ⟨-, hsome, -⟩ | ⟨hafter, -⟩
      · rw [hnone] at hsome
        cases hsome
      · exact hend e he ▸ hf.right.trans_lt hafter

theorem joinEnds_leads (hc : c.front.Sound) (hup : c.group.Upright) (hpad : 0 ≤ pad)
    (hsame : c.pad = pad) (hsome : c.group.hull.Nonempty) {ends : List (ℚ × ℚ)}
    (hends : (ends.map Prod.fst).Nodup) : ∃ ls, c.Leads pad 0 ls (joinEnds ends c) := by
  subst hsame
  obtain ⟨hadvances, hroom⟩ := takeLine_room hc le_rfl rfl hpad
  obtain ⟨joined, ls, hdraws, heq, far, hle⟩ := joinEnds_draws hup hsome hends
  rw [heq]
  have hlayer := hroom _ _ _ _ hle hdraws.inside
  rw [← zero_add ls] at hdraws
  exact ⟨ls, (Leads.of_draws hadvances hdraws hlayer).revise⟩

theorem settleEnds_leads (hc : c.front.Sound) (hup : c.group.Upright) (hpad : 0 ≤ pad)
    (hsame : c.pad = pad) (hsome : c.group.hull.Nonempty) {ends : List (BranchEnd ℚ)}
    (hends : (ends.map BranchEnd.dx).Nodup) : ∃ ls, c.Leads pad 0 ls (settleEnds ends c) := by
  unfold settleEnds
  split
  · exact ⟨0, (Leads.refl c).revise⟩
  · exact ⟨0, (Leads.refl c).revise⟩
  · refine joinEnds_leads hc hup hpad hsame hsome ?_
    rwa [List.map_map]

theorem gatherBreaks_leads (hc : c.front.Sound) (hup : c.group.Upright) (hpad : 0 ≤ pad)
    (hsame : c.pad = pad) (hsome : c.group.hull.Nonempty) (breaks : List (ℚ × ℚ)) :
    ∃ ls ms, c.Leads pad ls ms (x.gatherBreaks breaks c) ∧
      ls ≤ (breaks.map fun p => between p.1 (c.eastLane x.config.stepX) p.2 : List Hline) := by
  subst hsame
  unfold gatherBreaks
  split
  · exact ⟨0, 0, .refl c, Multiset.zero_le _⟩
  · dsimp only
    obtain ⟨hadvances, hroom⟩ := takeLine_room hc le_rfl rfl hpad
    generalize c.takeLine c.reach = taken at hadvances hroom ⊢
    obtain ⟨exit, t⟩ := taken
    dsimp only at hadvances hroom ⊢
    have hgroup : t.group.Upright := hadvances.group ▸ hup
    have hdropped := dropDeadTip_draws t
    have htrunk := hdropped.quiet (trunkTo_draws (hdropped.upright hgroup) exit false)
    have hnonempty : t.group.hull.Nonempty := hadvances.group ▸ hsome
    obtain ⟨ls, ms, hroute, hls, hms⟩ := route_draws (htrunk.upright hgroup)
      (hnonempty.mono htrunk.hull) .out breaks (c.eastLane x.config.stepX) exit
    have hdraws := htrunk.trans hroute
    rw [zero_add] at hdraws
    have hlayer := hroom _ _ _ _ hms (forall_mem_add.mp hdraws.inside).2
    exact ⟨ls, ms, (Leads.of_draws hadvances hdraws hlayer).revise, hls⟩

theorem drawTap_draws (hup : c.group.Upright) (tap lastDx : ℚ) :
    ∃ ls, c.Draws ls (drawTap tap lastDx c) ∧ ls ≤ {between 0 lastDx tap} := by
  unfold drawTap
  split
  · have hx : (Path.across 0 tap lastDx).x = 0 := Path.push_x _ _
    have hlines := Path.lines_across 0 tap lastDx
    rw [zero_add] at hlines
    exact ⟨_, drawPath_draws (Path.across_snug 0 tap lastDx) hup (.inl hx), hlines⟩
  · exact ⟨0, .refl c, Multiset.zero_le _⟩

theorem adopt_extends (hc : x.Steady c) {holder : Strand ℚ} (h : holder.Stands pad ls c.front)
    (htarget : holder.continueTarget = c.continueTarget) : c.Extends pad ls (adopt holder c) := by
  obtain ⟨hlayer, hlines, hkept, hupright⟩ := h.absorb hc.debug hc.upright (.inr htarget)
  exact ⟨hlayer.raise (le_max_right _ _), hlines, hkept,
    fun _ => ⟨hupright.group, hupright.held⟩⟩

theorem openSwitch_spec (hx : x.Roomy) (hc : x.Steady c) (subject : String) :
    c.front.Room c.pad (x.openSwitch subject c).2.2.front (x.openSwitch subject c).2.1 ∧
      (x.openSwitch subject c).2.2.lines = 0 ∧ (x.openSwitch subject c).2.2.Upright ∧
      0 ≤ (x.openSwitch subject c).1.width / 2.0 ∧
      (x.openSwitch subject c).2.2.group.hull.Nonempty := by
  obtain ⟨w, height, hw, hheight, -, -, hbounds, -⟩ := diamond_spec hx subject
  have hpad := hc.pad_nonneg hx
  have hwidth : 0 ≤ (x.diamond subject).bounds.width / 2.0 := by
    rw [hbounds]
    change 0 ≤ (w - 0) / 2.0
    norm_num
    linarith
  have hholder : c.switchHolder.Upright := upright_blank rfl rfl rfl
  obtain ⟨hadvances, hroom⟩ := takeTest_room hx (c := c.switchHolder) hc.sound hpad subject
    ((x.diamond subject).bounds.height + 2.0 * c.pad)
    (reach_le_startBelow _ hx.stepY)
    (by change (x.diamond subject).bounds.height + 2 * c.pad ≤ _; linarith)
  unfold openSwitch
  dsimp only
  change Front.Room c.pad c.front _ _ at hroom
  generalize c.switchHolder.takeBand _ _ = taken at hadvances hroom ⊢
  obtain ⟨pos, t⟩ := taken
  dsimp only at hadvances hroom ⊢
  have hgroup : t.group.Upright := hadvances.group ▸ hholder.group
  obtain ⟨hdecision, heast, -⟩ := drawDecision_draws hx hgroup subject (pos + c.pad)
  have hbox : (t.drawDecision (x.diamond subject) (pos + c.pad)).1.width =
      (x.diamond subject).bounds.width := rfl
  have hshown := (hdecision.shown.trans_eq (add_zero _)).trans_eq
    (hadvances.lines.trans (lines_blank (c := c.switchHolder) rfl rfl rfl))
  have hupright := hdecision.around (hadvances.upright hholder)
  generalize t.drawDecision (x.diamond subject) (pos + c.pad) = outcome at *
  obtain ⟨box, decided⟩ := outcome
  dsimp only at hdecision heast hbox hshown hupright ⊢
  have hsound : decided.front.Sound := hdecision.front ▸ (hroom.quiet ∅).sound hc.sound
  have hsame : decided.pad = c.pad := hdecision.redraws.pad.trans hadvances.keeps.pad
  obtain ⟨hlined, htap⟩ := takeLine_room (c := { decided with tip := some box.bottom }) hsound le_rfl
    hsame hpad
  change Front.Room c.pad decided.front _ _ at htap
  rw [hdecision.front] at htap
  have hafter := htap.after hroom.quiet
  change Front.Room c.pad c.front (({ decided with tip := some box.bottom }).takeLine
    decided.reach).2.front (({ decided with tip := some box.bottom }).takeLine decided.reach).1
    at hafter
  change Advances _ (({ decided with tip := some box.bottom }).takeLine decided.reach).2 at hlined
  generalize ({ decided with tip := some box.bottom } : Strand ℚ).takeLine decided.reach = lined at *
  obtain ⟨tap, holder⟩ := lined
  dsimp only at hlined hafter ⊢
  have htrunk := trunkTo_draws (hlined.group ▸ hupright.group) tap false
  have hlines := htrunk.shown
  rw [add_zero, hlined.lines] at hlines
  refine ⟨?_, Multiset.le_zero.mp (hlines.trans hshown),
    htrunk.around (hlined.upright ⟨hupright.group, hupright.held⟩), ?_,
    ⟨_, htrunk.hull (hlined.group ▸ heast)⟩⟩
  · rw [htrunk.front]
    exact hafter
  · rw [hbox]
    exact hwidth

theorem start_spread (hlines : c.lines ≤ base) (hup : c.Upright) (hsome : c.group.hull.Nonempty)
    {right : ℚ} (hright : 0 ≤ right) (plan : FanPlan ℚ) :
    (Fan.start c right).Spread pad c.front base 0 plan 0 where
  layer := ⟨∅, Set.empty_subset _, nofun, fun _ => rfl, .refl _⟩
  reach := rfl
  lines := by
    change c.lines + 0 ≤ base + 0
    rwa [add_zero, add_zero]
  upright := hup
  broken := nofun
  some := hsome
  right := hright
  ends := List.nodup_nil
  within := nofun
  first _ := rfl
  beside _ := nofun

/-- The lines of a switch are the one from which its cases hang, those of the cases, the one that
joins them, and those that lead out of it. -/
theorem closeSwitch_extends (hx : x.Roomy) (hc : x.Steady c) {tap : ℚ}
    (hroom : c.front.Room c.pad s tap) (hf : f.Spread c.pad s 0 arms plan index)
    (hpad : f.holder.pad = c.pad) (htarget : f.holder.continueTarget = c.continueTarget) :
    ∃ ls, c.Extends c.pad ls (x.closeSwitch tap f c) := by
  obtain ⟨hull, hsub, -, -, hlayer⟩ := hf.layer
  have hnonneg := hc.pad_nonneg hx
  have hfinish : f.finish.front = ⟨f.reach, f.holder.lanes⟩ := rfl
  have hsound : f.finish.front.Sound := hlayer.sound ((hroom.quiet ∅).sound hc.sound)
  have hup : f.finish.Upright := ⟨hf.upright.group, hf.upright.held⟩
  unfold closeSwitch
  obtain ⟨ts, htap, hts⟩ := drawTap_draws hup.group tap f.lastDx
  rw [← add_zero ts] at htap
  have hhung : f.finish.Leads c.pad ts 0 (drawTap tap f.lastDx f.finish) :=
    .of_draws ⟨rfl, rfl, rfl, rfl, rfl, .refl _⟩ htap (.refl _)
  generalize drawTap tap f.lastDx f.finish = hung at hhung ⊢
  obtain ⟨js, hsettled⟩ := settleEnds_leads (hhung.layer.sound hsound) (hhung.upright hup.group)
    hnonneg (hhung.keeps.pad.trans hpad) (hf.some.mono hhung.hull) hf.ends
  have hjoined := hhung.trans hsettled
  generalize settleEnds f.ends hung = settled at hjoined ⊢
  obtain ⟨xs, fs, hgathered, hxs⟩ := gatherBreaks_leads (x := x) (hjoined.layer.sound hsound)
    (hjoined.upright hup.group) hnonneg (hjoined.keeps.pad.trans hpad)
    (hf.some.mono hjoined.hull) f.breaks
  have hall := hjoined.trans hgathered
  generalize x.gatherBreaks f.breaks settled = final at hgathered hall ⊢
  have hlane : ∀ p ∈ f.breaks, p.1 ≤ settled.eastLane x.config.stepX := fun p hp =>
    le_eastLane hx (hjoined.hull (hf.broken p hp))
  obtain ⟨⟨⟨htapIn, -⟩, hbreaksIn⟩, -⟩ := (forall_mem_add.mp hall.inside).imp_left fun h =>
    (forall_mem_add.mp h).imp_left forall_mem_add.mp
  have hrays := hf.lines
  rw [zero_add] at hrays
  have hcut : Multiset.Rel Hline.Within
      (f.breaks.map fun p => between p.1 (settled.eastLane x.config.stepX) p.2 : List Hline)
      (f.breaks.map eastward : List Hline) := by
    rw [← Multiset.map_coe, ← Multiset.map_coe, Multiset.rel_map]
    exact Multiset.rel_refl_of_refl_on fun p hp => Hline.between_within_eastward (hlane p hp)
  have hcases := (hlayer.le hrays).within (hsub.trans hall.hull) hcut hxs hbreaksIn
  have hstands : final.Stands c.pad (ts + (f.holder.lines + xs) + (0 + js + fs)) c.front := by
    refine ⟨((hroom _ _ _ _ hts htapIn).andThen hcases).andThen hall.layer, ?_, hall.around hup⟩
    refine hall.shown.trans (le_of_eq ?_)
    change f.holder.lines + _ = _
    abel
  exact ⟨_, adopt_extends hc hstands (hall.keeps.continueTarget.trans htarget)⟩

end Context
end Flowchart
