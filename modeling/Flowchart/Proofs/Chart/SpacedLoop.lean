import Flowchart.Proofs.Chart.Merged
/-! Loops keep the line margin. The body of a loop is laid out in lanes of its own; the jumps that
leave it are led to lanes beside it before it is merged, and only then its lines are folded back. -/
namespace Flowchart.Context
open Strand
open Hline (between eastward westward)

variable {x : Context ℚ} {c d : Strand ℚ} {ls ms : Multiset Hline}

theorem enter_spec (hx : x.Roomy) (hc : x.Steady c) :
    c.Extends c.pad 0 (x.enter c).2 ∧ c.front.Room c.pad (x.enter c).2.front (x.enter c).1 ∧
      (x.enter c).2.tip = some (x.enter c).1 := by
  obtain ⟨hadvances, hroom⟩ := takeLine_room hc.sound (c.reach_le_startBelow hx.halfGap_nonneg) rfl
    (hc.pad_nonneg hx)
  unfold enter
  dsimp only
  generalize c.takeLine (c.startBelow x.halfGap) = taken at hadvances hroom ⊢
  obtain ⟨entry, t⟩ := taken
  dsimp only at hadvances hroom ⊢
  have hdraws := trunkTo_draws (hadvances.group ▸ hc.upright.group) entry false
  refine ⟨.of_draws hadvances hdraws (hroom.quiet _), ?_, trunkTo_tip _ _ _⟩
  rw [hdraws.front]
  exact hroom

theorem Steady.loopBody (hc : x.Steady c) (htip : c.tip.isSome) (kind : JumpTarget) :
    x.Steady (c.loopBody kind) where
  pad := hc.pad
  debug := hc.debug
  sound :=
    { west := RangeSet.canonical_nil _
      east := hc.sound.east
      floor := fun f hf => by
        cases hf
        exact le_rfl
      eastFree := hc.sound.eastFree }
  upright := upright_blank rfl rfl rfl
  tip _ := htip

theorem openWhile_spec (hx : x.Roomy) (hc : x.Steady c) (htip : c.tip.isSome) (test : String) :
    x.Steady (x.openWhile test c).2 ∧ (x.openWhile test c).2.lines = 0 ∧
      Front.Room c.pad ⟨c.reach, c.lanes.inner c.reach⟩ (x.openWhile test c).2.front
        (x.openWhile test c).1.middle ∧
      (x.openWhile test c).1.width / 2.0 ∈ (x.openWhile test c).2.group.hull := by
  have hbody := hc.loopBody htip .whileLoop
  have hkeeps := x.openWhile_keeps test c
  have hlabel : 0 ≤ x.yesSize.height := (hx.labelSize _).2
  have hgap := hx.halfGap_nonneg
  obtain ⟨hadvances, hroom⟩ := takeTest_room hx hbody.sound (hbody.pad_nonneg hx) test
    ((x.diamond test).bounds.height + 2.0 * c.pad + x.yesSize.height)
    (le_add_of_nonneg_right hgap : c.reach ≤ c.reach + x.halfGap)
    (by change (x.diamond test).bounds.height + 2 * c.pad ≤ _; linarith)
  unfold openWhile at hkeeps ⊢
  dsimp only at hkeeps ⊢
  change Front.Room c.pad _ _ _ at hroom
  have hreach : (c.loopBody .whileLoop).reach = c.reach := rfl
  rw [hreach] at hkeeps ⊢
  generalize (c.loopBody .whileLoop).takeBand _ _ = taken at hadvances hroom hkeeps ⊢
  obtain ⟨pos, t⟩ := taken
  dsimp only at hadvances hroom hkeeps ⊢
  obtain ⟨drawn, hdraws, heast, -, hdrawn⟩ := drawTest_draws hx
    (hadvances.group ▸ hbody.upright.group) test (pos + c.pad) .south .east
  rw [← hdrawn] at hkeeps ⊢
  have hsound := (hroom.quiet ∅).sound hbody.sound
  have hupright := hdraws.around (hadvances.upright hbody.upright)
  have hlines := hdraws.shown
  rw [hadvances.lines, lines_blank (c := c.loopBody .whileLoop) rfl rfl rfl, add_zero] at hlines
  rw [← hdraws.front] at hroom hsound
  exact ⟨⟨hkeeps.pad.trans hbody.pad, hkeeps.debug.trans hbody.debug, hsound,
    ⟨hupright.group, hupright.held⟩, fun _ => rfl⟩, Multiset.le_zero.mp hlines, hroom, heast⟩

theorem trunkTo_continues (c : Strand ℚ) (continues : List (ℚ × ℚ)) (y : ℚ) (arrow : Bool) :
    { c with continues }.trunkTo y arrow = { c.trunkTo y arrow with continues } := by
  unfold trunkTo
  dsimp only
  split <;> rfl

/-- What returns to the head of a `while` are its continues and the end of its trunk, which leaves
like one of them. -/
theorem gatherBack_extends (hx : x.Roomy) (hc : x.Steady c)
    (htarget : c.continueTarget = some .whileLoop) {back : List (ℚ × ℚ)}
    (h : x.gatherBack c = .ok (back, d)) :
    (∃ ls, c.Extends c.pad ls { d with continues := back }) ∧ d.continues = [] ∧ c.Keeps d := by
  unfold gatherBack at h
  dsimp only at h
  split at h
  · obtain ⟨⟨pos, t⟩, htake, h⟩ := exists_of_bind_eq_ok h
    cases h
    have hpad := hc.pad_nonneg hx
    have hgap := hx.halfGap_nonneg
    obtain ⟨hdrained, htakes, hwest, -⟩ := takeExit_takes (c := { c with continues := [] }) hc.sound
      (le_add_of_nonneg_right hgap : c.reach ≤ c.reach + x.halfGap)
      (by change (0 : ℚ) ≤ 2.0 * c.pad; linarith) htake
    change c.front.Takes t.front pos (2.0 * c.pad) at htakes
    have htpad : t.pad = c.pad := hdrained.keeps.pad
    have hadvances : c.Advances { t with continues := c.continues } :=
      ⟨hdrained.group, hdrained.tip, hdrained.breaks, rfl, hdrained.alive,
        ⟨hdrained.keeps.breakTarget, hdrained.keeps.continueTarget, hdrained.keeps.pad,
          hdrained.keeps.debug⟩⟩
    have hgroup : t.group.Upright := hdrained.group ▸ hc.upright.group
    have htip : t.tip.isSome := hdrained.tip ▸ hc.tip (.inr (htarget ▸ rfl))
    have hdraws := trunkTo_draws (c := { t with continues := c.continues }) hgroup (pos + t.pad) false
    have hzero := trunkTo_hull (c := { t with continues := c.continues }) hgroup.x htip
      (pos + t.pad) false
    rw [trunkTo_continues] at hdraws hzero
    have hkeeps := hadvances.keeps.trans hdraws.redraws.keeps
    have hdebug := hkeeps.debug.trans hc.debug
    have hnotes := noteJump_notes hdebug .resume (p := (0, pos + t.pad)) hzero
    rw [noteJump_eq hdebug, hkeeps.jumpLine] at hnotes
    have hline : c.jumpLine .resume = westward := by
      unfold jumpLine resumeLine
      rw [htarget]
      rfl
    rw [hline] at hnotes
    refine ⟨⟨_, .of_notes hadvances hdraws hnotes (.of_takes htakes (.singleton _) ?_ ?_ ?_)⟩, ?_,
      ⟨hkeeps.breakTarget, hkeeps.continueTarget, hkeeps.pad, hkeeps.debug⟩⟩
    · intro a ha
      rw [Multiset.mem_singleton.mp ha]
      change pos + c.pad ≤ pos + t.pad ∧ pos + t.pad + c.pad ≤ pos + 2.0 * c.pad
      rw [htpad]
      constructor <;> linarith
    · intro a ha
      rw [Multiset.mem_singleton.mp ha]
      refine .inr (hwest.mono_left ?_)
      change Set.Ioo (pos + t.pad - c.pad) (pos + t.pad + c.pad) ⊆ Set.Ico pos (pos + 2.0 * c.pad)
      rw [htpad]
      rintro y ⟨hlow, hhigh⟩
      constructor <;> linarith
    · intro a ha
      rw [Multiset.mem_singleton.mp ha]
      exact .inl ⟨0, hzero, subset_rfl⟩
    · have hsame := (trunkTo_draws (c := t) hgroup (pos + t.pad) false).continues
      exact hsame.trans hdrained.continues
  · cases h
    exact ⟨⟨0, .refl c⟩, rfl, ⟨rfl, rfl, rfl, rfl⟩⟩

/-- Once its pending jumps are led to lanes, what a branch draws makes a layer inside a hull. -/
theorem lead_layer {pad east west : ℚ} {hull hull' : Set ℚ} {s u : Front}
    (h : Layer pad hull s u c.lines) (hsub : hull ⊆ hull') (heast : ∀ p ∈ c.breaks, p.1 ≤ east)
    (hwest : ∀ p ∈ c.continues, (between p.1 west p.2).Within (c.resumeLine p))
    (hle : ls ≤ (c.breaks.map fun p => between p.1 east p.2 : List Hline) +
      (c.continues.map fun p => between p.1 west p.2 : List Hline))
    (hinside : ∀ a ∈ ls, a.Inside hull') : Layer pad hull' s u (c.group.lines + ls) := by
  unfold Strand.lines at h
  rw [add_assoc] at h
  refine h.within hsub (.add ?_ ?_) hle hinside
  · rw [← Multiset.map_coe, ← Multiset.map_coe, Multiset.rel_map]
    exact Multiset.rel_refl_of_refl_on fun p hp => Hline.between_within_eastward (heast p hp)
  · rw [← Multiset.map_coe, ← Multiset.map_coe, Multiset.rel_map]
    exact Multiset.rel_refl_of_refl_on fun p hp => hwest p hp

/-- A body whose jumps are led to lanes is merged, and what it reserved is folded back. Its lines lie
in its own layer, at the entry of the loop, and at its exit. -/
theorem leaveLoop_extends {entered body last : Strand ℚ} (inner : Strand ℚ)
    (es ms fs : Multiset Hline) {x₁ x₂ entry : ℚ} (hc : x.Steady c) (hentry : c.Extends c.pad 0 entered)
    (hkeeps : c.Keeps entered) (hroom : c.front.Room c.pad entered.front entry)
    (hbody : body.group.Upright) (hbreaks : body.breaks = []) (hcontinues : body.continues = [])
    (hlines : body.group.lines ≤ es + ms + fs) (hes : es ≤ {between x₁ x₂ entry})
    (hinside : ∀ a ∈ es + ms + fs, a.Inside body.group.hull)
    (hlayer : Layer c.pad body.group.hull ⟨entered.reach, entered.lanes.inner entered.reach⟩
      inner.front ms)
    (hlast : (entered.reclaim inner).Advances last)
    (hexit : Layer c.pad body.group.hull (entered.reclaim inner).front last.front fs)
    {tip : Option ℚ} {alive : Bool} :
    c.Extends c.pad (es + ms + fs) { last.absorb body 0 with tip, alive } := by
  have hbodyUp : body.Upright := by
    refine ⟨hbody, fun p hp => ?_⟩
    rw [hbreaks, hcontinues] at hp
    rcases hp with hp | hp <;> cases hp
  have hbodyLines : body.lines = body.group.lines := by
    unfold Strand.lines
    rw [hbreaks, hcontinues]
    exact (add_zero _).trans (add_zero _)
  have hup := hentry.upright hc.upright
  have hlastUp : last.Upright := hlast.upright ⟨hup.group, hup.held⟩
  have hdebug : last.debug = false := hlast.keeps.debug.trans (hkeeps.debug.trans hc.debug)
  obtain ⟨hshown, hkept, hadded, hupright⟩ := absorb_merges 0 hdebug hlastUp hbodyUp (.inl hcontinues)
    (.inl (rfl : (0 : ℚ) = 0))
  rw [Hline.map_shift_zero, hbodyLines, hlast.lines] at hshown
  have hin : ∀ a ∈ es + ms, a.Inside body.group.hull := fun a ha =>
    hinside a (Multiset.mem_add.mpr (.inl ha))
  have hatEntry := hroom body.group.hull es x₁ x₂ hes fun a ha =>
    hin a (Multiset.mem_add.mpr (.inl ha))
  have hfolded := hlayer.fold (hatEntry.sound hc.sound)
    (fun a ha => hin a (Multiset.mem_add.mpr (.inr ha))) (le_max_right entered.reach inner.reach)
  have hbodyHull : body.group.hull ⊆ (last.absorb body 0).group.hull := by
    intro y hy
    rw [← sub_zero y] at hy
    exact hadded hy
  refine ⟨?_, ?_, ?_, fun _ => ⟨hupright.group, hupright.held⟩⟩
  · have hall := ((hatEntry.andThen hfolded).andThen hexit).mono hbodyHull
    have hfront : (last.absorb body 0).front = last.front := by
      unfold Strand.front
      rw [(absorb_redraws last body 0).reach, (absorb_redraws last body 0).lanes]
    rw [← hfront] at hall
    exact hall
  · have hbefore := hentry.lines
    rw [add_zero] at hbefore
    change (last.absorb body 0).lines ≤ _
    rw [hshown]
    exact add_le_add hbefore hlines
  · exact (hentry.hull.trans (hlast.group ▸ subset_rfl)).trans hkept

theorem routeBack_draws (hc : c.group.Upright) (hsome : c.group.hull.Nonempty)
    (back : List (ℚ × ℚ)) (entry : ℚ) :
    ∃ ls ms, c.Draws (ls + ms) (x.routeBack back entry c) ∧
      ls ≤ (back.map fun p => between p.1 (c.westLane x.config.stepX) p.2 : List Hline) ∧
      ms ≤ {between (c.westLane x.config.stepX) 0 entry} := by
  unfold routeBack
  split
  · exact ⟨0, 0, .refl c, Multiset.zero_le _, Multiset.zero_le _⟩
  · exact route_draws hc hsome .back back _ entry

theorem exit_room (hx : x.Roomy) (hc : x.Steady c) {entered inner : Strand ℚ} {entry : ℚ}
    {hull : Set ℚ} (hkeeps : c.Keeps entered) (hroom : c.front.Room c.pad entered.front entry)
    (hlayer : Layer c.pad hull ⟨entered.reach, entered.lanes.inner entered.reach⟩ inner.front ms) :
    (entered.reclaim inner).Advances
        ((entered.reclaim inner).takeLine (entered.reclaim inner).reach).2 ∧
      (entered.reclaim inner).front.Room c.pad
        ((entered.reclaim inner).takeLine (entered.reclaim inner).reach).2.front
        ((entered.reclaim inner).takeLine (entered.reclaim inner).reach).1 := by
  have hsound := (hroom.quiet ∅).sound hc.sound
  have hfolded := (hlayer.le (Multiset.zero_le ms)).fold hsound (by simp)
    (le_max_right entered.reach inner.reach)
  exact takeLine_room (c := entered.reclaim inner) (hfolded.sound hsound) le_rfl hkeeps.pad
    (hc.pad_nonneg hx)

/-- The lines of a `while` are those of its test and its body, the returning ones, its entry and its
exit. -/
theorem closeWhile_extends (hx : x.Roomy) (hc : x.Steady c) {entered opened body : Strand ℚ}
    {entry : ℚ} {box : DecisionBox ℚ} {back : List (ℚ × ℚ)}
    (hentry : c.Extends c.pad 0 entered) (hkeeps : c.Keeps entered)
    (hroom : c.front.Room c.pad entered.front entry) (hopened : opened.Upright)
    (hopenedLines : opened.lines = 0)
    (hmiddle : Front.Room c.pad ⟨entered.reach, entered.lanes.inner entered.reach⟩ opened.front
      box.middle)
    (hcorner : box.width / 2.0 ∈ opened.group.hull)
    (hbody : opened.Extends c.pad ls { body with continues := back })
    (hcontinues : body.continues = []) (htarget : body.continueTarget = some .whileLoop) :
    ∃ ks, c.Extends c.pad ks (x.closeWhile entry box back body entered) := by
  have hup := hbody.upright hopened
  have hsome : body.group.hull.Nonempty := ⟨_, hbody.hull hcorner⟩
  have hinner := (hmiddle.quiet _).andThen (hbody.layer.le (Multiset.zero_le ls))
  obtain ⟨bs, es, hback, hbs, hes⟩ := routeBack_draws (x := x) (c := body) hup.group hsome back entry
  unfold closeWhile
  dsimp only
  generalize x.routeBack back entry body = routed at hback ⊢
  obtain ⟨drained, hdrained⟩ : ∃ drained : Strand ℚ, drained = { routed with breaks := [] } :=
    ⟨_, rfl⟩
  rw [← hdrained, hback.breaks]
  have hgroup : drained.group = routed.group := hdrained ▸ rfl
  have hfront : drained.front = body.front := by
    rw [hdrained]
    exact hback.front
  have hpending : drained.continues = [] := by
    rw [hdrained]
    exact hback.continues.trans hcontinues
  have hbodyFront : ({ body with continues := back } : Strand ℚ).front = drained.front := hfront.symm
  rw [hbodyFront] at hinner
  obtain ⟨hlast, hexit⟩ := exit_room hx hc hkeeps hroom hinner
  generalize (entered.reclaim drained).takeLine _ = taken at hlast hexit ⊢
  obtain ⟨exit, last⟩ := taken
  dsimp only at hlast hexit ⊢
  obtain ⟨xs, fs, hout, hxs, hfs⟩ := route_draws (hgroup ▸ hback.upright hup.group)
    (hgroup ▸ hsome.mono hback.hull) .out ((box.width / 2.0, box.middle) :: body.breaks)
    (drained.eastLane x.config.stepX) exit
  rw [List.map_cons, ← Multiset.cons_coe, ← Multiset.singleton_add] at hxs
  obtain ⟨t, ht, bs', hbs', rfl⟩ := exists_add_of_le_add hxs
  generalize drained.route _ _ _ _ = final at hout ⊢
  have hroutedHull : routed.group.hull ⊆ final.group.hull := hgroup ▸ hout.hull
  have hbodyHull : body.group.hull ⊆ final.group.hull := hback.hull.trans hroutedHull
  have hdrawn : ∀ a ∈ body.group.lines, a.Inside final.group.hull := fun a ha =>
    (hup.group.inside a ha).mono hbodyHull
  have hreturned : ∀ a ∈ bs + es, a.Inside final.group.hull := fun a ha =>
    (hback.inside a ha).mono hroutedHull
  obtain ⟨⟨htest, hbroken⟩, hleft⟩ := (forall_mem_add.mp hout.inside).imp_left forall_mem_add.mp
  have hled : ∀ a ∈ bs' + bs, a.Inside final.group.hull :=
    forall_mem_add.mpr ⟨hbroken, (forall_mem_add.mp hreturned).1⟩
  have hrays := hbody.lines
  rw [hopenedLines, zero_add] at hrays
  have hlayer : Layer c.pad final.group.hull opened.front drained.front
      (body.group.lines + (bs' + bs)) := by
    rw [← hbodyFront]
    refine lead_layer (c := { body with continues := back }) (hbody.layer.le hrays) hbodyHull
      (fun p hp => ?_) (fun p hp => ?_) (add_le_add hbs' hbs) hled
    · exact le_eastLane hx (hgroup ▸ hback.hull (hup.held p (.inl hp)))
    · have hwest : resumeLine { body with continues := back } p = westward p := by
        unfold resumeLine
        rw [if_neg (by rw [htarget]; nofun)]
      rw [hwest]
      exact Hline.between_within_westward (westLane_le hx (hup.held p (.inr hp)))
  refine ⟨_, leaveLoop_extends drained es (t + (body.group.lines + (bs' + bs))) fs hc hentry hkeeps
    hroom (hout.upright (hgroup ▸ hback.upright hup.group)) (hout.breaks.trans (hdrained ▸ rfl))
    (hout.continues.trans hpending) ?_ hes ?_
    ((hmiddle _ _ _ _ ht htest).andThen hlayer) hlast (hexit _ _ _ _ hfs hleft)⟩
  · have hall := hout.lines.trans (add_le_add_left (hgroup ▸ hback.lines) _)
    refine hall.trans (le_of_eq ?_)
    abel
  · exact forall_mem_add.mpr ⟨forall_mem_add.mpr ⟨(forall_mem_add.mp hreturned).2,
      forall_mem_add.mpr ⟨htest, forall_mem_add.mpr ⟨hdrawn, hled⟩⟩⟩, hleft⟩

theorem gatherOnward_leads (hx : x.Roomy) {pad : ℚ} (hc : c.front.Sound) (hup : c.Upright)
    (hpad : 0 ≤ pad) (hsame : c.pad = pad) :
    ∃ ls ms, Leads pad ls ms { c with continues := [] } (x.gatherOnward c) ∧
      ls ≤ (c.continues.map fun p => between p.1 (c.eastLane x.config.stepX) p.2 : List Hline) := by
  subst hsame
  unfold gatherOnward
  dsimp only
  split
  · exact ⟨0, 0, .refl _, Multiset.zero_le _⟩
  · next hsome =>
      have hgap := hx.halfGap_nonneg
      obtain ⟨hadvances, hroom⟩ := takeLine_room (c := { c with continues := [] }) hc
        (le_add_of_nonneg_right hgap : c.reach ≤ c.reach + x.halfGap) rfl hpad
      change Front.Room c.pad c.front _ _ at hroom
      generalize ({ c with continues := [] } : Strand ℚ).takeLine _ = taken at hadvances hroom ⊢
      obtain ⟨y, t⟩ := taken
      dsimp only at hadvances hroom ⊢
      have hgroup : t.group.Upright := hadvances.group ▸ hup.group
      have hdropped := dropDeadTip_draws t
      have htrunk := hdropped.quiet (trunkTo_draws (hdropped.upright hgroup) y false)
      have hnonempty : t.group.hull.Nonempty := by
        obtain ⟨p, hp⟩ := List.exists_mem_of_ne_nil c.continues (mt List.isEmpty_iff.mpr hsome)
        exact ⟨p.1, hadvances.group ▸ hup.held p (.inr hp)⟩
      obtain ⟨ls, ms, hroute, hls, hms⟩ := route_draws (htrunk.upright hgroup)
        (hnonempty.mono htrunk.hull) .onward c.continues (c.eastLane x.config.stepX) y
      have hdraws := htrunk.trans hroute
      rw [zero_add] at hdraws
      have hinside := (forall_mem_add.mp hdraws.inside).2
      exact ⟨ls, ms, (Leads.of_draws hadvances hdraws (hroom _ _ _ _ hms hinside)).revise, hls⟩

theorem testDo_leads (hx : x.Roomy) {pad : ℚ} (hc : c.front.Sound) (hup : c.group.Upright)
    (hpad : 0 ≤ pad) (hsame : c.pad = pad) (test : String) (entry : ℚ) :
    ∃ ls ms x₁, Leads pad ls ms c (x.testDo test entry c).2 ∧ ls ≤ {between x₁ 0 entry} := by
  subst hsame
  have hlabel : 0 ≤ x.noSize.height := (hx.labelSize _).2
  obtain ⟨hadvances, hroom⟩ := takeTest_room hx hc hpad test
    ((x.diamond test).bounds.height + 2.0 * c.pad + x.noSize.height)
    (le_add_of_nonneg_right hx.stepY) (by linarith)
  unfold testDo
  dsimp only
  generalize c.takeBand _ _ = taken at hadvances hroom ⊢
  obtain ⟨pos, t⟩ := taken
  dsimp only at hadvances hroom ⊢
  have htpad : t.pad = c.pad := hadvances.keeps.pad
  have hgroup : t.group.Upright := hadvances.group ▸ hup
  have hdropped := dropDeadTip_draws t
  obtain ⟨drawn, hdraws, heast, hwest, hdrawn⟩ := drawTest_draws hx (hdropped.upright hgroup) test
    (pos + t.pad) .west .south
  rw [← hdrawn]
  have htest := hdropped.quiet hdraws
  obtain ⟨ms, ls, hroute, hms, hls⟩ := route_draws (htest.upright hgroup) ⟨_, heast⟩ .again
    [(-(x.diamond test).bounds.width / 2.0, pos + t.pad + (x.diamond test).bounds.height / 2.0)]
    (drawn.westLane x.config.stepX) entry
  have hall := htest.trans hroute
  rw [zero_add, add_comm] at hall
  have hlayer := hroom _ ms _ _ (htpad ▸ hms) (forall_mem_add.mp hall.inside).2
  exact ⟨ls, ms, _, (Leads.of_draws hadvances hall hlayer).revise, hls⟩

theorem leaveDo_extends (east : ℚ) (xs fs : Multiset Hline) (hx : x.Roomy) (hc : x.Steady c)
    {entered inner tested last final : Strand ℚ} {entry x₁ : ℚ} {bs es ks : Multiset Hline}
    (hentry : c.Extends c.pad 0 entered) (hkeeps : c.Keeps entered)
    (hroom : c.front.Room c.pad entered.front entry)
    (hinner : inner.Stands c.pad ls ⟨entered.reach, entered.lanes.inner entered.reach⟩)
    (htarget : inner.continueTarget = some .doWhile)
    (hleads : Leads c.pad (bs + es) ks { inner with continues := [] } tested)
    (hbs : bs ≤ (inner.continues.map fun p => between p.1 (inner.eastLane x.config.stepX) p.2 :
      List Hline)) (hes : es ≤ {between x₁ 0 entry})
    (hout : ({ tested with breaks := [] } : Strand ℚ).Draws (xs + fs) final)
    (hxs : xs ≤ (inner.breaks.map fun p => between p.1 east p.2 : List Hline))
    (heast : ∀ p ∈ inner.breaks, p.1 ≤ east)
    (hlast : (entered.reclaim tested).Advances last)
    (hexit : Layer c.pad final.group.hull (entered.reclaim tested).front last.front fs)
    {tip : Option ℚ} {alive : Bool} :
    ∃ ls, c.Extends c.pad ls { last.absorb final 0 with tip, alive } := by
  have hinnerHull : inner.group.hull ⊆ final.group.hull := hleads.hull.trans hout.hull
  have hdrawn : ∀ a ∈ inner.group.lines, a.Inside final.group.hull := fun a ha =>
    (hinner.upright.group.inside a ha).mono hinnerHull
  obtain ⟨⟨hskips, hback⟩, hnested⟩ := (forall_mem_add.mp fun a ha =>
    (hleads.inside a ha).mono hout.hull).imp_left forall_mem_add.mp
  obtain ⟨hbreaks, hleft⟩ := forall_mem_add.mp hout.inside
  have hled : ∀ a ∈ xs + bs, a.Inside final.group.hull := forall_mem_add.mpr ⟨hbreaks, hskips⟩
  have hlayer : Layer c.pad final.group.hull ⟨entered.reach, entered.lanes.inner entered.reach⟩
      inner.front (inner.group.lines + (xs + bs)) := by
    refine lead_layer (hinner.layer.le hinner.lines) hinnerHull heast (fun p hp => ?_)
      (add_le_add hxs hbs) hled
    have hline : inner.resumeLine p = eastward p := if_pos htarget
    rw [hline]
    exact Hline.between_within_eastward (le_eastLane hx (hinner.upright.held p (.inr hp)))
  have hbelow := hleads.layer.mono hout.hull
  refine ⟨_, leaveLoop_extends tested es (inner.group.lines + (xs + bs) + ks) fs hc hentry hkeeps
    hroom (hout.upright (hleads.upright hinner.upright.group)) hout.breaks
    (hout.continues.trans hleads.continues) ?_ hes ?_ (hlayer.andThen hbelow) hlast
    hexit⟩
  · refine (hout.lines.trans (add_le_add_left hleads.lines _)).trans (le_of_eq ?_)
    change inner.group.lines + (bs + es + ks) + (xs + fs) = _
    abel
  · exact forall_mem_add.mpr ⟨forall_mem_add.mpr ⟨hback,
      forall_mem_add.mpr ⟨forall_mem_add.mpr ⟨hdrawn, hled⟩, hnested⟩⟩, hleft⟩

/-- The lines of a `do` are those of its body and its test, the returning one at its entry, and those
that lead out of it. -/
theorem closeDo_extends (hx : x.Roomy) (hc : x.Steady c) {entered inner : Strand ℚ} {entry : ℚ}
    (hentry : c.Extends c.pad 0 entered) (hkeeps : c.Keeps entered)
    (hroom : c.front.Room c.pad entered.front entry)
    (hinner : inner.Stands c.pad ls ⟨entered.reach, entered.lanes.inner entered.reach⟩)
    (hpad : inner.pad = c.pad) (hsound : inner.front.Sound)
    (htarget : inner.continueTarget = some .doWhile) (test : String) :
    ∃ ks, c.Extends c.pad ks (x.closeDo test entry inner entered) := by
  have hnonneg := hc.pad_nonneg hx
  obtain ⟨bs, os, honward, hbs⟩ := gatherOnward_leads hx hsound hinner.upright hnonneg hpad
  have honwardPad : (x.gatherOnward inner).pad = inner.pad := honward.keeps.pad
  obtain ⟨es, ts, x₁, htested, hes⟩ := testDo_leads hx (honward.layer.sound hsound)
    (honward.upright hinner.upright.group) hnonneg (honwardPad.trans hpad) test entry
  have hleads := honward.trans htested
  unfold closeDo
  dsimp only
  generalize x.testDo test entry (x.gatherOnward inner) = outcome at hleads ⊢
  obtain ⟨box, tested⟩ := outcome
  dsimp only at hleads ⊢
  have hgroup := hleads.upright hinner.upright.group
  have hlayer := (hinner.layer.le (Multiset.zero_le ls)).mono hleads.hull
  have hfront : (entered.reclaim { tested with breaks := [] }) = entered.reclaim tested := rfl
  rw [hfront]
  split
  · next hnone =>
      have hbreaks : inner.breaks = [] := by
        rw [← List.isEmpty_iff.mp hnone]
        exact hleads.breaks.symm
      refine leaveDo_extends 0 0 0 hx hc hentry hkeeps hroom hinner htarget hleads hbs hes (.refl _)
        (Multiset.zero_le _) ?_ ⟨rfl, rfl, rfl, rfl, rfl, .refl _⟩ (.refl _)
      rw [hbreaks]
      nofun
  · next hsome =>
      obtain ⟨hlast, hexit⟩ := exit_room hx hc hkeeps hroom (hlayer.andThen (hleads.layer))
      generalize (entered.reclaim tested).takeLine _ = taken at hlast hexit ⊢
      obtain ⟨exit, last⟩ := taken
      dsimp only at hlast hexit ⊢
      have hheld : ∀ p ∈ inner.breaks, p.1 ∈ tested.group.hull := fun p hp =>
        hleads.hull (hinner.upright.held p (.inl hp))
      have htrunk := trunkTo_draws (c := { tested with breaks := [] }) hgroup exit false
      have hnonempty : tested.group.hull.Nonempty := by
        obtain ⟨p, hp⟩ := List.exists_mem_of_ne_nil tested.breaks (mt List.isEmpty_iff.mpr hsome)
        exact ⟨p.1, hheld p (hleads.breaks ▸ hp)⟩
      obtain ⟨xs, fs, hroute, hxs, hfs⟩ := route_draws (htrunk.upright hgroup)
        (hnonempty.mono htrunk.hull) .out tested.breaks (tested.eastLane x.config.stepX) exit
      have hout := htrunk.trans hroute
      rw [zero_add] at hout
      have hbreaks : tested.breaks = inner.breaks := hleads.breaks
      have hleft := hexit _ _ _ _ hfs (forall_mem_add.mp hroute.inside).2
      rw [hbreaks] at hout hxs hleft ⊢
      exact leaveDo_extends _ xs fs hx hc hentry hkeeps hroom hinner htarget hleads hbs hes hout hxs
        (fun p hp => le_eastLane hx (hheld p hp)) hlast hleft

end Flowchart.Context
