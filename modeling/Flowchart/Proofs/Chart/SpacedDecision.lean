import Flowchart.Proofs.Chart.Merged
/-! Decisions keep the line margin: their exits lead out of the band of the decision, and an arm
beside it begins where the one below it does. -/
namespace Flowchart.Context
open Strand
open Hline (between eastward westward)

variable {x : Context ℚ} {c d t : Strand ℚ}

theorem takeDecision_takes (hx : x.Roomy) (hc : x.Steady c) {test : String} {exits : Exit × Exit}
    {pos : ℚ} (h : x.takeDecision test exits c = .ok (pos, t)) :
    c.Advances t ∧ ∃ size, (x.diamond test).bounds.height + 2 * c.pad ≤ size ∧
      c.front.Takes t.front pos size ∧
      (exitJumps exits ≠ [] → Disjoint (Set.Ico pos (pos + size)) c.lanes.west.cover) := by
  obtain ⟨w, height, -, hheight, -, -, hbounds, -⟩ := diamond_spec hx test
  have hpad := hc.pad_nonneg hx
  have hhigh : 0 ≤ (x.diamond test).bounds.height := by
    rw [hbounds]
    exact sub_nonneg.mpr hheight
  have hlabel : 0 ≤ max x.yesSize.height x.noSize.height :=
    le_max_of_le_left (hx.labelSize _).2
  unfold takeDecision at h
  dsimp only at h
  generalize hsize : (x.diamond test).bounds.height + 2.0 * c.pad +
    max x.yesSize.height x.noSize.height = size at h
  have hroom : (x.diamond test).bounds.height + 2 * c.pad ≤ size := by linarith
  have hsize' : 0 ≤ size := by linarith
  have hstart := c.reach_le_startBelow hx.stepY
  split at h
  · next hnone =>
      have hnil := List.isEmpty_iff.mp hnone
      cases h
      exact ⟨takeBand_advances _ _ _, size, hroom, takeBand_takes hc.sound hstart hsize',
        fun hsome => absurd hnil hsome⟩
  · obtain ⟨hadvances, htakes, hwest, -⟩ := takeExit_takes hc.sound hstart hsize' h
    exact ⟨hadvances, size, hroom, htakes, fun _ => hwest⟩

theorem claimEast_takes {s : Front} {pos size : ℚ} (hs : s.Sound) (h : s.Takes t.front pos size)
    (exits : Exit × Exit) (middle : ℚ) :
    t.Advances (claimEast exits middle t) ∧ s.Takes (claimEast exits middle t).front pos size ∧
      ((∃ p ∈ exitJumps exits, p.2 = .east) →
        Set.Ico (middle - t.pad) (middle + t.pad) ⊆ (claimEast exits middle t).lanes.east.cover) := by
  have ht : t.front.Sound := (h.quiet 0 ∅).sound hs
  obtain ⟨hsorted, hkept, hfloor, hheld⟩ :=
    RangeSet.reserve_spec ht.east (middle - t.pad) (2.0 * t.pad)
  unfold claimEast
  split
  · refine ⟨⟨rfl, rfl, rfl, rfl, rfl, ⟨rfl, rfl, rfl, rfl⟩⟩, h.later fun pad hull => ?_, ?_⟩
    · exact
        { Layer.refl t.front with
          sound := fun hs => ⟨hs.west, hsorted, hs.floor, hfloor.trans hs.eastFree⟩
          east := hkept
          above := by simp
          held := by simp
          eastward := by simp }
    · rintro - y ⟨hlow, hhigh⟩
      refine hheld y ⟨hlow, by linarith⟩ fun f hf => ?_
      rw [ht.eastFree] at hf
      cases hf
  · next hnone =>
      refine ⟨⟨rfl, rfl, rfl, rfl, rfl, ⟨rfl, rfl, rfl, rfl⟩⟩, h, ?_⟩
      rintro ⟨p, hp, heast⟩
      refine absurd (List.any_eq_true.mpr ⟨p, hp, ?_⟩) hnone
      rw [heast]
      rfl

theorem foldl_notes (w middle : ℚ) (jumps : List (Jump × Direction)) (debug : c.debug = false)
    (hwest : -w / 2.0 ∈ c.group.hull) (heast : w / 2.0 ∈ c.group.hull) :
    c.Notes (jumps.map fun p => c.jumpLine p.1 (if p.2 = .east then w / 2.0 else -w / 2.0, middle) :
        List Hline)
      (jumps.foldl (fun c (j, d) =>
        c.noteJump j (if d = .east then w / 2.0 else -w / 2.0, middle)) c) := by
  induction jumps generalizing c with
  | nil => exact .refl c
  | cons p rest ih =>
      have hpoint : (if p.2 = .east then w / 2.0 else -w / 2.0, middle).1 ∈ c.group.hull := by
        dsimp only
        split
        · exact heast
        · exact hwest
      have hfirst := noteJump_notes debug p.1 hpoint
      have hrest := ih (hfirst.redraws.debug.trans debug) (hfirst.group ▸ hwest)
        (hfirst.group ▸ heast)
      rw [hfirst.redraws.keeps.jumpLine] at hrest
      rw [List.map_cons, ← Multiset.cons_coe, ← Multiset.singleton_add]
      exact hfirst.trans hrest

theorem drawExits_notes (hx : x.Roomy) (hc : c.group.Upright) (debug : c.debug = false)
    (test : String) (exits : Exit × Exit) (top : ℚ) :
    ∃ drawn, c.Draws 0 drawn ∧
      (x.diamond test).bounds.width / 2.0 ∈ drawn.group.hull ∧
      -(x.diamond test).bounds.width / 2.0 ∈ drawn.group.hull ∧
      drawn.Notes ((exitJumps exits).map fun p => c.jumpLine p.1
        (if p.2 = .east then (x.diamond test).bounds.width / 2.0
          else -(x.diamond test).bounds.width / 2.0,
          top + (x.diamond test).bounds.height / 2.0) : List Hline)
        (x.drawExits test exits top c).2 := by
  obtain ⟨drawn, hdraws, heast, hwest, hdrawn⟩ := drawTest_draws hx hc test top
    exits.1.direction exits.2.direction
  have hnotes := foldl_notes (x.diamond test).bounds.width
    (top + (x.diamond test).bounds.height / 2.0) (exitJumps exits)
    (hdraws.redraws.debug.trans debug) hwest heast
  rw [hdraws.redraws.keeps.jumpLine, hdrawn] at hnotes
  exact ⟨_, hdrawn ▸ hdraws, hdrawn ▸ heast, hdrawn ▸ hwest, hnotes⟩

/-- The lines of the exits of a decision lie in its band. They leave at different sides. -/
theorem exits_layer {jumps : List (Jump × Direction)}
    {hull : Set ℚ} {u : Front} {pos size middle w : ℚ} (hw : 0 ≤ w)
    (hjumps : ∀ p ∈ jumps, p.2 = .east ∧ c.jumpLine p.1 = eastward ∨
      p.2 = .west ∧ c.jumpLine p.1 = westward)
    (hparts : jumps.Pairwise fun p q => p.2 ≠ q.2)
    (htakes : c.front.Takes u pos size)
    (hband : pos + c.pad ≤ middle ∧ middle + c.pad ≤ pos + size)
    (hdodges : jumps ≠ [] → Disjoint (Set.Ico pos (pos + size)) c.lanes.west.cover)
    (hclaimed : (∃ p ∈ jumps, p.2 = .east) →
      Set.Ico (middle - c.pad) (middle + c.pad) ⊆ u.lanes.east.cover)
    (heast : w / 2.0 ∈ hull) (hwest : -w / 2.0 ∈ hull) :
    Layer c.pad hull c.front u ((jumps.map fun p => c.jumpLine p.1
      (if p.2 = .east then w / 2.0 else -w / 2.0, middle) : List Hline)) := by
  have hline : ∀ p ∈ jumps,
      c.jumpLine p.1 (if p.2 = .east then w / 2.0 else -w / 2.0, middle) =
        if p.2 = .east then eastward (w / 2.0, middle) else westward (-w / 2.0, middle) := by
    intro p hp
    rcases hjumps p hp with ⟨hd, hl⟩ | ⟨hd, hl⟩ <;> rw [hd, hl]
    · rfl
    · rfl
  have hmem : ∀ a ∈ ((jumps.map fun p => c.jumpLine p.1
      (if p.2 = .east then w / 2.0 else -w / 2.0, middle) : List Hline) : Multiset Hline),
      jumps ≠ [] ∧ ((∃ p ∈ jumps, p.2 = .east) ∧ a = eastward (w / 2.0, middle) ∨
        a = westward (-w / 2.0, middle)) := by
    intro a ha
    obtain ⟨p, hp, rfl⟩ := List.mem_map.mp (Multiset.mem_coe.mp ha)
    refine ⟨List.ne_nil_of_mem hp, ?_⟩
    rw [hline p hp]
    split
    · next hd => exact .inl ⟨⟨p, hp, hd⟩, rfl⟩
    · exact .inr rfl
  refine .of_takes htakes ?_ (fun a ha => ?_) (fun a ha => ?_) (fun a ha => ?_)
  · refine Multiset.pairwise_coe_iff_pairwise.mpr (List.pairwise_map.mpr ?_)
    refine hparts.imp_of_mem fun {p q} hp hq hne => ?_
    rw [hline p hp, hline q hq]
    have hsides : -w / 2.0 ≤ w / 2.0 := by
      norm_num
      linarith
    have happart : (westward (-w / 2.0, middle)).Apart c.pad (eastward (w / 2.0, middle)) :=
      Hline.apart_of_beside subset_rfl subset_rfl hsides
    rcases hjumps p hp with ⟨hd, -⟩ | ⟨hd, -⟩ <;> rcases hjumps q hq with ⟨he, -⟩ | ⟨he, -⟩
    · exact absurd (hd.trans he.symm) hne
    · rw [hd, he]
      exact symm_of (Hline.Apart c.pad) happart
    · rw [hd, he]
      exact happart
    · exact absurd (hd.trans he.symm) hne
  · rcases (hmem a ha).2 with ⟨-, rfl⟩ | rfl
    · exact hband
    · exact hband
  · rcases hmem a ha with ⟨hsome, ⟨-, rfl⟩ | rfl⟩
    · exact .inl ⟨_, heast, subset_rfl⟩
    · refine .inr ((hdodges hsome).mono_left ?_)
      rintro y ⟨hlow, hhigh⟩
      dsimp only [westward] at hlow hhigh
      constructor <;> linarith [hband.1, hband.2]
  · rcases (hmem a ha).2 with ⟨hclaim, rfl⟩ | rfl
    · exact .inr (Set.Ioo_subset_Ico_self.trans (hclaimed hclaim))
    · exact .inl ⟨_, hwest, subset_rfl⟩

/-- A decision takes a band for its exits. Where no jump leaves it, the band leaves room for one line
at its middle. -/
theorem openDecision_spec (hx : x.Roomy) (hc : x.Steady c) {test : String} {exits : Exit × Exit}
    {box : DecisionBox ℚ} (hjumps : ∀ p ∈ exitJumps exits, c.headingOf p.1 = .ok p.2)
    (hparts : (exitJumps exits).Pairwise fun p q => p.2 ≠ q.2)
    (h : x.openDecision test exits c = .ok (box, d)) :
    (∃ ls, c.Extends c.pad ls d) ∧ 0 ≤ box.width ∧ box.width / 2.0 ∈ d.group.hull ∧
      (exitJumps exits = [] → d.lines ≤ c.lines ∧
        c.front.Room c.pad d.front box.middle) := by
  obtain ⟨⟨pos, t⟩, htake, h⟩ := exists_of_bind_eq_ok h
  have hdrawn : x.drawExits test exits (pos + t.pad) (claimEast exits
      (pos + t.pad + (x.diamond test).bounds.height / 2.0) t) = (box, d) := Except.ok.inj h
  have hbox : _ = box := congrArg Prod.fst hdrawn
  obtain ⟨w, height, hw, hheight, -, -, hbounds, -⟩ := diamond_spec hx test
  have hwidth : 0 ≤ (x.diamond test).bounds.width := by
    rw [hbounds]
    exact sub_nonneg.mpr hw
  have hhigh : 0 ≤ (x.diamond test).bounds.height := by
    rw [hbounds]
    exact sub_nonneg.mpr hheight
  obtain ⟨hadvances, size, hroom, htakes, hdodges⟩ := takeDecision_takes hx hc htake
  have hpad : t.pad = c.pad := hadvances.keeps.pad
  have hmiddle : box.middle = pos + t.pad + (x.diamond test).bounds.height / 2.0 := hbox ▸ rfl
  have hwide : box.width = (x.diamond test).bounds.width := hbox ▸ rfl
  have hband : pos + c.pad ≤ box.middle ∧ box.middle + c.pad ≤ pos + size := by
    rw [hmiddle, hpad]
    norm_num
    constructor <;> linarith
  obtain ⟨hclaim, htakes', hclaimed⟩ := claimEast_takes hc.sound htakes exits box.middle
  have hall := hadvances.trans hclaim
  have hgroup : (claimEast exits box.middle t).group.Upright := hall.group ▸ hc.upright.group
  obtain ⟨drawn, hdraws, heast, hwest, hnotes⟩ := drawExits_notes hx hgroup
    (hall.keeps.debug.trans hc.debug) test exits (pos + t.pad)
  rw [← hwide] at hwidth heast hwest hnotes
  rw [← hmiddle] at hdrawn hnotes
  rw [hdrawn, hall.keeps.jumpLine] at hnotes
  have hextends : c.Extends c.pad _ d := .of_notes hall hdraws hnotes <|
    exits_layer hwidth (fun p hp => (headingOf_spec (hjumps p hp)).2) hparts htakes' hband hdodges
      (hpad ▸ hclaimed) heast hwest
  refine ⟨⟨_, hextends⟩, hwidth, hnotes.group ▸ heast, fun hnone => ?_⟩
  have hfront : d.front = (claimEast exits box.middle t).front := by
    rw [← hdraws.front]
    unfold Strand.front
    rw [hnotes.redraws.reach, hnotes.redraws.lanes]
  have hlines := hextends.lines
  rw [hnone, List.map_nil, Multiset.coe_nil, add_zero] at hlines
  rw [hfront]
  exact ⟨hlines, htakes'.room hband.1 hband.2⟩

theorem joinBeside_extends (hc : c.front.Sound) (hpad : 0 ≤ c.pad) (hup : c.Upright)
    (hsome : c.group.hull.Nonempty) (dx tip : ℚ) (below : Option ℚ) :
    ∃ ls, c.Extends c.pad ls
      { ({ (c.takeLine c.reach).2.draw (.path (((Path.start dx tip).vertical
          ((c.takeLine c.reach).1 - tip)).horizontal (-dx)).withArrow) with tip := below }).trunkTo
            (c.takeLine c.reach).1 false with alive := true } := by
  obtain ⟨hadvances, hroom⟩ := takeLine_room hc le_rfl rfl hpad
  generalize c.takeLine c.reach = taken at hadvances hroom ⊢
  obtain ⟨y, t⟩ := taken
  dsimp only at hadvances hroom ⊢
  obtain ⟨hsnug, hlines⟩ := Path.drop_spec dx tip y (-dx)
  rw [add_neg_cancel] at hlines
  have hdrop := drawPath_draws hsnug.withArrow (hadvances.group ▸ hup.group)
    (.inr (hadvances.group ▸ hsome))
  rw [Path.lines_withArrow] at hdrop
  generalize t.draw _ = dropped at hdrop ⊢
  have htrunk := trunkTo_draws (c := { dropped with tip := below })
    (hdrop.upright (hadvances.group ▸ hup.group)) y false
  have hdraws := hdrop.revise.quiet htrunk
  refine ⟨_, (Extends.of_draws hadvances hdraws ?_).revise⟩
  exact hroom _ _ _ _ hlines hdraws.inside

theorem east_of_south (hx : x.Roomy) (box : DecisionBox ℚ) (south east : Strand ℚ) :
    ∀ l ∈ south.group.hull, ∀ r ∈ {r | r - x.eastShift box
      (max (box.width / 2.0) south.group.extent.maxX) east ∈ east.group.hull}, l ≤ r := by
  rintro l ⟨-, -, hl⟩ r ⟨-, hr, -⟩
  have hright : south.group.extent.maxX ≤ max (max (box.width / 2.0) south.group.extent.maxX)
      (box.width / 2.0 + x.noSize.width + 2.0 * labelGap) :=
    (le_max_right _ _).trans (le_max_left _ _)
  have hstep : 0 ≤ x.config.stepX := labelGap_nonneg.trans hx.stepX.le
  unfold eastShift at hr
  linarith

theorem mergeBeside_extends (hx : x.Roomy) {opened south east : Strand ℚ} {box : DecisionBox ℚ}
    {ls ms : Multiset Hline} (ho : x.Steady opened) (hlines : opened.lines ≤ c.lines)
    (hhull : c.group.hull ⊆ opened.group.hull) (hcorner : box.width / 2.0 ∈ opened.group.hull)
    (hmiddle : c.front.Room c.pad opened.front box.middle)
    (hsouth : south.Stands c.pad ls opened.front) (hsouthKeeps : opened.Keeps south)
    (heast : east.Stands c.pad ms ⟨opened.reach, south.lanes⟩) (heastKeeps : opened.Keeps east)
    {merged : Strand ℚ} {dx : ℚ}
    (hdx : dx = x.eastShift box (max (box.width / 2.0) south.group.extent.maxX) east)
    (hmerged : merged = { ((closeBelow south opened).draw (.path (Path.across (box.width / 2.0)
      box.middle (dx - box.width / 2.0)))).absorb east dx with
        reach := max (max opened.reach south.reach) east.reach, lanes := east.lanes }) :
    (∃ ks, c.Extends c.pad ks merged) ∧ merged.Upright ∧ merged.group.hull.Nonempty := by
  obtain ⟨-, -, hsouthHull, -⟩ := absorb_merges 0 ho.debug ho.upright hsouth.upright
    (.inr hsouthKeeps.continueTarget) (.inl (rfl : (0 : ℚ) = 0))
  have hbelow := closeBelow_extends ho hsouth hsouthKeeps
  have hup := hbelow.upright ho.upright
  have hsame : (closeBelow south opened).debug = false ∧
      (closeBelow south opened).continueTarget = opened.continueTarget :=
    ⟨(closeBelow_keeps south opened).debug.trans ho.debug,
      (closeBelow_keeps south opened).continueTarget⟩
  have hline := drawPath_draws
    (Path.across_snug (box.width / 2.0) box.middle (dx - box.width / 2.0)) hup.group
    (.inr ⟨_, hbelow.hull hcorner⟩)
  have hle := Path.lines_across (box.width / 2.0) box.middle (dx - box.width / 2.0)
  generalize (closeBelow south opened).draw _ = drawn at hline hmerged
  obtain ⟨hshown, hkept, hadded, hupright⟩ := absorb_merges dx
    (hline.redraws.debug.trans hsame.1) (hline.around hup) heast.upright
    (.inr (heastKeeps.continueTarget.trans (hsame.2.symm.trans
      hline.redraws.continueTarget.symm))) (.inr ⟨_, hline.hull (hbelow.hull hcorner)⟩)
  generalize drawn.absorb east dx = absorbed at hshown hkept hadded hupright hmerged
  subst hmerged
  have hsouthSub : south.group.hull ⊆ absorbed.group.hull := by
    intro l hl
    rw [← sub_zero l] at hl
    exact hkept (hline.hull (hsouthHull hl))
  have hparted := east_of_south hx box south east
  rw [← hdx] at hparted
  have hbeside := hsouth.layer.beside (heast.layer.shift dx) hparted
    ((le_max_right opened.reach south.reach).trans (le_max_left _ east.reach)) (le_max_right _ _)
  rw [add_sub_cancel] at hle
  have hlayer := (hmiddle _ _ _ _ hle fun a ha =>
    (hline.inside a ha).mono hkept).andThen (hbeside.mono (Set.union_subset hsouthSub hadded))
  refine ⟨⟨_, hlayer, ?_, ?_, fun _ => ⟨hupright.group, hupright.held⟩⟩,
    ⟨hupright.group, hupright.held⟩, ⟨_, hkept (hline.hull (hbelow.hull hcorner))⟩⟩
  · have hall := add_le_add (hline.shown.trans
      (add_le_add_left (hbelow.lines.trans (add_le_add_left hlines ls)) _))
      (Multiset.map_le_map (f := (·.shift dx)) heast.lines)
    change absorbed.lines ≤ _
    rw [hshown]
    refine hall.trans (le_of_eq ?_)
    abel
  · exact ((hhull.trans hbelow.hull).trans hline.hull).trans hkept

theorem closeBeside_extends (hx : x.Roomy) (hc : x.Steady c) {opened south east : Strand ℚ}
    {box : DecisionBox ℚ} {ls ms : Multiset Hline} (ho : x.Steady opened)
    (hlines : opened.lines ≤ c.lines)
    (hhull : c.group.hull ⊆ opened.group.hull) (hcorner : box.width / 2.0 ∈ opened.group.hull)
    (hmiddle : c.front.Room c.pad opened.front box.middle)
    (hsouth : south.Stands c.pad ls opened.front) (hsouthKeeps : opened.Keeps south)
    (heast : east.Stands c.pad ms ⟨opened.reach, south.lanes⟩) (heastKeeps : opened.Keeps east) :
    ∃ ks, c.Extends c.pad ks (x.closeBeside box south east (closeBelow south opened)) := by
  unfold closeBeside
  dsimp only
  generalize hdx : x.eastShift box (max (box.width / 2.0) south.group.extent.maxX) east = dx
  generalize hmerged : ({ ((closeBelow south opened).draw (.path (Path.across (box.width / 2.0)
    box.middle (dx - box.width / 2.0)))).absorb east dx with
      reach := max (closeBelow south opened).reach east.reach
      lanes := east.lanes } : Strand ℚ) = merged
  obtain ⟨⟨ks, hextends⟩, hupright, hsome⟩ := mergeBeside_extends hx ho hlines hhull hcorner hmiddle
    hsouth hsouthKeeps heast heastKeeps hdx.symm hmerged.symm
  have hreach : max (closeBelow south opened).reach east.reach = merged.reach := hmerged ▸ rfl
  have hpad : merged.pad = c.pad := by
    rw [← hmerged]
    refine (absorb_redraws ((closeBelow south opened).draw _) east dx).pad.trans ?_
    exact (closeBelow_keeps south opened).pad.trans (ho.pad.trans hc.pad.symm)
  rw [hreach]
  split
  · obtain ⟨js, hjoined⟩ := joinBeside_extends (hextends.layer.sound hc.sound)
      (hpad ▸ hc.pad_nonneg hx) hupright hsome dx (east.tip.getD box.middle) south.liveTip
    rw [hpad] at hjoined
    exact ⟨_, hextends.trans hjoined⟩
  · exact ⟨_, hextends⟩

end Flowchart.Context
