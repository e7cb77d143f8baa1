import Flowchart.Proofs.Chart.Columns
import Flowchart.Proofs.Chart.Confined
import Flowchart.Proofs.Chart.Converged
/-! The frame of a try stands around its body and around nothing else. The body is laid out below the
upper side of the frame, which lies in a band of its own, and the lower side is drawn below the body. -/
namespace Flowchart
open Strand
open Set (Icc)

structure Context.Padded (x : Context ℚ) : Prop extends Context.Spacious x where
  measure : ∀ text attrs, 0 ≤ (x.measure text attrs).width ∧ 0 ≤ (x.measure text attrs).height
  rectX : 0 ≤ x.config.rect.padX
  rectY : 0 ≤ x.config.rect.padY
  frameX : 0 ≤ x.config.frame.padX
  frameY : 0 ≤ x.config.frame.padY

theorem Context.padded_classic {measure : Measure ℚ}
    (h : ∀ text attrs, 0 ≤ (measure text attrs).width ∧ 0 ≤ (measure text attrs).height) :
    (⟨Config.classic, measure⟩ : Context ℚ).Padded where
  toSpacious := spacious_classic measure
  measure := h
  rectX := by change (0 : ℚ) ≤ 12.0; norm_num
  rectY := by change (0 : ℚ) ≤ 8.0; norm_num
  frameX := by change (0 : ℚ) ≤ 10.0; norm_num
  frameY := by change (0 : ℚ) ≤ 10.0; norm_num

theorem Context.Padded.ample {x : Context ℚ} (hx : x.Padded) : x.Ample :=
  ⟨fun text attrs => (hx.measure text attrs).2, hx.margin, hx.stepX, hx.stepY, hx.frameY⟩

namespace Strand.Confined
variable {low high start size : ℚ} {c : Strand ℚ}

theorem takeBand (h : c.Confined low c.reach) (start size : ℚ) :
    (c.takeBand start size).2.Confined low (c.takeBand start size).2.reach :=
  (h.raise (le_max_left _ _)).revise (h.raise (le_max_left _ _)).tip (List.Subset.refl _)
    (List.Subset.refl _)

theorem takeLine (h : c.Confined low c.reach) (hpad : 0 ≤ c.pad) (hstart : c.reach ≤ start) :
    (c.takeLine start).2.Confined low (c.takeLine start).2.reach ∧
      (c.takeLine start).1 ∈ Icc low (c.takeLine start).2.reach := by
  obtain ⟨hlow, hhigh⟩ := Context.takeLine_spec hpad start
  exact ⟨h.takeBand _ _, (h.order.trans hstart).trans hlow, hhigh⟩

theorem takeExitLine {d : Strand ℚ} (h : c.Confined low c.reach) (hpad : 0 ≤ c.pad)
    (hstart : c.reach ≤ start) {pos : ℚ} {east : Bool}
    (htake : c.takeExit start (2.0 * c.pad) east = .ok (pos, d)) :
    d.Confined low d.reach ∧ pos + d.pad ∈ Icc low d.reach := by
  obtain ⟨hwidens, -, hlow, hhigh⟩ := takeExit_widens htake
  have hpad' : d.pad = c.pad := hwidens.keeps.pad
  have horder := h.order
  exact ⟨(h.raise hwidens.reach).takeExit htake, by linarith, by linarith⟩

theorem drawDecision {x : Context ℚ} (hx : x.Padded) (h : c.Confined low high) (test : String)
    {top : ℚ} (htop : low ≤ top) (hbottom : top + (x.diamond test).bounds.height ≤ high) :
    (c.drawDecision (x.diamond test) top).2.Confined low high ∧
      (c.drawDecision (x.diamond test) top).1.middle ∈ Icc low high ∧
      (c.drawDecision (x.diamond test) top).1.bottom ∈ Icc low high := by
  obtain ⟨w, height, text, -, hheight, -, hy, -, hbounds⟩ := Context.diamond_bounds hx.measure test
  have hsize : (x.diamond test).bounds.height = height := by
    rw [hbounds]
    exact sub_zero height
  rw [hsize] at hbottom
  have htrunk := h.trunkTo (y := top) ⟨htop, by linarith⟩ true
  refine ⟨htrunk.draw ((Context.diamond_made test).between hy hbounds _ htop hbottom), ?_, ?_⟩
  · change top + (x.diamond test).bounds.height / 2.0 ∈ Icc low high
    rw [hsize]
    constructor <;> linarith
  · change top + (x.diamond test).bounds.height ∈ Icc low high
    rw [hsize]
    exact ⟨by linarith, hbottom⟩

theorem joinBeside {d : Strand ℚ} (h : c.Confined low c.reach) (hpad : 0 ≤ c.pad) {below : Option ℚ}
    (hbelow : ∀ t ∈ below, t ∈ Icc low c.reach) {tip : ℚ} (htip : tip ∈ Icc low c.reach) (dx : ℚ)
    (hd : d = { (c.takeLine c.reach).2.draw (.path (((Path.start dx tip).vertical
      ((c.takeLine c.reach).1 - tip)).horizontal (-dx)).withArrow) with tip := below }) :
    (d.trunkTo (c.takeLine c.reach).1 false).Confined low
      (d.trunkTo (c.takeLine c.reach).1 false).reach := by
  obtain ⟨hlined, hy⟩ := h.takeLine hpad le_rfl
  have hraise : Icc low c.reach ⊆ Icc low (c.takeLine c.reach).2.reach :=
    Set.Icc_subset_Icc_right (le_max_left _ _)
  have hjoined := hlined.drawPath (Path.Between.drop dx (-dx) (hraise htip) hy).withArrow
  have hreach : d.reach = (c.takeLine c.reach).2.reach := hd ▸ rfl
  have hopened : d.Confined low d.reach := by
    rw [hreach, hd]
    exact hjoined.revise (fun t ht => hraise (hbelow t ht)) (List.Subset.refl _) (List.Subset.refl _)
  exact (hopened.trunkTo (hreach ▸ hy) false).of_redraws (trunkTo_redraws _ _ _)

end Strand.Confined

namespace Context
variable {x : Context ℚ} {low high y : ℚ} {c d t arm body holder : Strand ℚ}

theorem drawBox_confined (hpad : 0 ≤ c.pad) (hc : c.Confined low c.reach) {box : Group ℚ}
    (hbox : box.Made) (hy : box.y = 0) {w height : ℚ} (hhigh : 0 ≤ height)
    (hbounds : box.bounds = ⟨0, 0, w, height⟩) {start size : ℚ} (hstart : c.reach ≤ start)
    (hsize : height + 2 * c.pad ≤ size) (dx : ℚ) :
    Confined low (c.takeBand start size).2.reach
        (((c.takeBand start size).2.trunkTo ((c.takeBand start size).1 + c.pad) true).draw
          (box.shift dx ((c.takeBand start size).1 + c.pad)).toShape) ∧
      (c.takeBand start size).1 + c.pad + height ∈ Icc low (c.takeBand start size).2.reach := by
  obtain ⟨hlow, hreach⟩ := takeBand_room hpad hstart hsize
  have hlow' := hc.order.trans hlow
  have htop : (c.takeBand start size).1 + c.pad ∈ Icc low (c.takeBand start size).2.reach :=
    ⟨hlow', by linarith⟩
  exact ⟨((hc.takeBand start size).trunkTo htop true).draw
    (hbox.between hy hbounds dx htop.1 hreach), by linarith, hreach⟩

theorem arrangeText_confined (hx : x.Padded) (hpad : 0 ≤ c.pad) (hc : c.Confined low c.reach)
    (content : String) :
    (x.arrangeText content c).Confined low (x.arrangeText content c).reach := by
  obtain ⟨-, hy, hbounds, -⟩ := box_bounds hx.measure hx.rectX hx.rectY content rfl rfl
  have hmade : (Group.boxAround content (x.captionSize content).width (x.captionSize content).height
    x.config.rect.padX x.config.rect.padY).Made := Group.made_boxAround _ _ _ _ _
  have hhigh : 0 ≤ (x.captionSize content).height + 2.0 * x.config.rect.padY := by
    have hcaption : 0 ≤ (x.captionSize content).height := (hx.measure _ _).2
    have hpadY := hx.rectY
    linarith
  generalize (x.captionSize content).height + 2.0 * x.config.rect.padY = height at hbounds hhigh
  unfold arrangeText
  dsimp only
  generalize (Group.boxAround content _ _ _ _ : Group ℚ) = box at hy hbounds hmade ⊢
  have hheight : box.bounds.height = height := by
    rw [hbounds]
    exact sub_zero height
  rw [hheight]
  obtain ⟨hdrawn, hbottom⟩ := drawBox_confined hpad hc hmade hy hhigh hbounds
    (c.reach_le_startBelow hx.stepY) (by norm_num : height + 2 * c.pad ≤ height + 2.0 * c.pad)
    (-box.bounds.width / 2.0)
  rw [← (trunkTo_redraws _ _ true).reach] at hdrawn hbottom
  exact hdrawn.revise (fun t ht => Option.some.inj ht ▸ hbottom) (List.Subset.refl _)
    (List.Subset.refl _)

theorem arrangeJump_confined (hx : x.Padded) (hpad : 0 ≤ c.pad) (debug : c.debug = false)
    (hc : c.Confined low c.reach) {j : Jump} (h : x.arrangeJump j c = .ok d) :
    d.Confined low d.reach := by
  obtain ⟨heading, -, h⟩ := exists_of_bind_eq_ok h
  obtain ⟨⟨pos, taken⟩, htake, h⟩ := exists_of_bind_eq_ok h
  cases h
  obtain ⟨htaken, hy⟩ := hc.takeExitLine hpad (c.reach_le_startBelow hx.halfGap) htake
  have htrunk := trunkTo_redraws taken (pos + taken.pad) false
  have hnoted := ((htaken.trunkTo hy false).noteJump ((htrunk.keeps.debug.trans
    (takeExit_keeps htake).debug).trans debug) j (p := (0, pos + taken.pad)) hy).of_redraws
      (htrunk.trans (noteJump_redraws _ j (0, pos + taken.pad)))
  exact hnoted.revise hnoted.tip (List.Subset.refl _) (List.Subset.refl _)

theorem noteJumps_confined {β : Type} (point : β → ℚ × ℚ) (jumps : List (Jump × β))
    (hc : c.Confined low high) (debug : c.debug = false)
    (hjumps : ∀ e ∈ jumps, (point e.2).2 ∈ Icc low high) :
    (jumps.foldl (fun c e => c.noteJump e.1 (point e.2)) c).Confined low high := by
  induction jumps generalizing c with
  | nil => exact hc
  | cons first rest ih =>
      exact ih (hc.noteJump debug _ (hjumps first List.mem_cons_self))
        ((c.noteJump_redraws _ _).keeps.debug.trans debug) fun e he =>
          hjumps e (List.mem_cons_of_mem _ he)

theorem drawExits_confined (hx : x.Padded) (hc : c.Confined low high) (debug : c.debug = false)
    (test : String) (exits : Exit × Exit) {top : ℚ} (htop : low ≤ top)
    (hbottom : top + (x.diamond test).bounds.height ≤ high) :
    (x.drawExits test exits top c).2.Confined low high ∧
      (x.drawExits test exits top c).1.middle ∈ Icc low high ∧
      (x.drawExits test exits top c).1.bottom ∈ Icc low high := by
  obtain ⟨hdecided, hmiddle, hlower⟩ := hc.drawDecision hx test htop hbottom
  have hlabelled := (hdecided.labelExit x.config.yesText x.yesSize exits.1.direction
    (c.drawDecision (x.diamond test) top).1).labelExit x.config.noText x.noSize exits.2.direction
      (c.drawDecision (x.diamond test) top).1
  refine ⟨noteJumps_confined (fun d : Direction =>
    (if d = .east then (c.drawDecision (x.diamond test) top).1.width / 2.0
      else -(c.drawDecision (x.diamond test) top).1.width / 2.0,
      (c.drawDecision (x.diamond test) top).1.middle)) _ hlabelled ?_ fun _ _ => hmiddle,
    hmiddle, hlower⟩
  exact ((drawDecision_redraws c _ top).trans ((labelExit_redraws _ _ _ _ _).trans
    (labelExit_redraws _ _ _ _ _))).keeps.debug.trans debug

theorem openDecision_confined (hx : x.Padded) (hpad : 0 ≤ c.pad) (debug : c.debug = false)
    (hc : c.Confined low c.reach) {test : String} {exits : Exit × Exit} {box : DecisionBox ℚ}
    (h : x.openDecision test exits c = .ok (box, d)) :
    d.Confined low d.reach ∧ box.middle ∈ Icc low d.reach ∧ box.bottom ∈ Icc low d.reach := by
  obtain ⟨⟨pos, taken⟩, htake, h⟩ := exists_of_bind_eq_ok h
  cases h
  obtain ⟨hband, hlow, hhigh⟩ := takeDecision_room hx.ample hpad htake
  have hkeeps := x.takeDecision_keeps htake
  have htaken : taken.Confined low taken.reach := by
    have hsame : taken = { c with lanes := taken.lanes, reach := taken.reach } := by
      unfold takeDecision at htake
      dsimp only at htake
      split at htake
      · cases htake
        rfl
      · unfold Strand.takeExit at htake
        split at htake
        · cases htake
          rfl
        · cases htake
    rw [hsame]
    exact (hc.raise hband.reach).revise (hc.raise hband.reach).tip (List.Subset.refl _)
      (List.Subset.refl _)
  rw [← hkeeps.pad] at hlow hhigh
  obtain ⟨claimed, hclaim⟩ : ∃ claimed, claimed = claimEast exits
    (pos + taken.pad + (x.diamond test).bounds.height / 2.0) taken := ⟨_, rfl⟩
  have hclaimed : claimed.Confined low taken.reach ∧ claimed.reach = taken.reach ∧
      claimed.debug = taken.debug := by
    rw [hclaim]
    unfold claimEast
    split
    · exact ⟨htaken.revise htaken.tip (List.Subset.refl _) (List.Subset.refl _), rfl, rfl⟩
    · exact ⟨htaken, rfl, rfl⟩
  have hdrawn := drawExits_confined hx hclaimed.1 ((hclaimed.2.2.trans hkeeps.debug).trans debug) test
    exits (hc.order.trans hlow) hhigh
  rw [← (x.drawExits_redraws test exits (pos + taken.pad) claimed).reach.trans hclaimed.2.1,
    hclaim] at hdrawn
  exact hdrawn

theorem closeBelow_confined (debug : c.debug = false) (hc : c.Confined low c.reach)
    (harm : arm.Confined low arm.reach) :
    (closeBelow arm c).Confined low (closeBelow arm c).reach := by
  have harm' := harm.raise (le_max_right c.reach arm.reach)
  have hmerged := (hc.raise (le_max_left c.reach arm.reach)).absorb debug harm' 0
  refine hmerged.revise (fun y hy => ?_) (List.Subset.refl _) (List.Subset.refl _)
  rcases Option.or_eq_some_iff.mp hy with hy | ⟨-, hy⟩
  · exact harm'.liveTip y hy
  · exact (hc.raise (le_max_left c.reach arm.reach)).tip y hy

theorem closeBeside_confined (hpad : 0 ≤ c.pad) (debug : c.debug = false)
    (hc : c.Confined low c.reach) {below : Strand ℚ} (hbelow : below.Confined low c.reach)
    (harm : arm.Confined low arm.reach) {box : DecisionBox ℚ} (hmiddle : box.middle ∈ Icc low c.reach) :
    (x.closeBeside box below arm c).Confined low (x.closeBeside box below arm c).reach := by
  have hle : c.reach ≤ max c.reach arm.reach := le_max_left _ _
  have harm' := harm.raise (le_max_right c.reach arm.reach)
  have hmiddle' := Set.Icc_subset_Icc_right hle hmiddle
  have hmerged (p : Path ℚ) (hp : p.Between low (max c.reach arm.reach)) (dx : ℚ) :
      Confined low (max c.reach arm.reach) { (c.draw (.path p)).absorb arm dx with
        reach := max c.reach arm.reach, lanes := arm.lanes } ∧
        ((c.draw (.path p)).absorb arm dx).pad = c.pad := by
    have habsorbed := ((hc.raise hle).drawPath hp).absorb debug harm' dx
    exact ⟨habsorbed.revise habsorbed.tip (List.Subset.refl _) (List.Subset.refl _),
      (absorb_redraws _ arm dx).keeps.pad⟩
  unfold closeBeside
  dsimp only
  generalize x.eastShift box (max (box.width / 2.0) below.group.extent.maxX) arm = dx
  obtain ⟨hheld, hsame⟩ := hmerged _ (.across (box.width / 2.0) (dx - box.width / 2.0) hmiddle') dx
  generalize (c.draw (.path (Path.across (box.width / 2.0) box.middle
    (dx - box.width / 2.0)))).absorb arm dx = merged at hheld hsame ⊢
  dsimp only at hheld
  split
  · have htip : arm.tip.getD box.middle ∈ Icc low (max c.reach arm.reach) := by
      cases htip : arm.tip with
      | none => exact hmiddle'
      | some y => exact harm'.tip y htip
    have hjoined := Confined.joinBeside
      (c := { merged with reach := max c.reach arm.reach, lanes := arm.lanes }) hheld
      (hpad.trans_eq hsame.symm) (hbelow.raise hle).liveTip htip dx rfl
    exact hjoined.revise hjoined.tip (List.Subset.refl _) (List.Subset.refl _)
  · exact hheld

theorem enter_confined (hx : x.Padded) (hpad : 0 ≤ c.pad) (hc : c.Confined low c.reach) :
    (x.enter c).2.Confined low (x.enter c).2.reach ∧ (x.enter c).1 ∈ Icc low (x.enter c).2.reach := by
  obtain ⟨hlined, hy⟩ := hc.takeLine hpad (c.reach_le_startBelow hx.halfGap)
  have htrunk := trunkTo_redraws (c.takeLine (c.startBelow x.halfGap)).2
    (c.takeLine (c.startBelow x.halfGap)).1 false
  exact ⟨(hlined.trunkTo hy false).of_redraws htrunk,
    Set.Icc_subset_Icc_right htrunk.reach.ge hy⟩

theorem takeTest_confined (hx : x.Padded) {pad : ℚ} (hpad : 0 ≤ pad) (test : String)
    {start size : ℚ} (hstart : low ≤ start) (hsize : (x.diamond test).bounds.height + 2.0 * pad ≤ size)
    (ht : t.Confined low t.reach) (hreach : t.reach = (c.takeBand start size).2.reach) :
    (t.drawDecision (x.diamond test) ((c.takeBand start size).1 + pad)).2.Confined low
        (t.drawDecision (x.diamond test) ((c.takeBand start size).1 + pad)).2.reach ∧
      (t.drawDecision (x.diamond test) ((c.takeBand start size).1 + pad)).1.middle ∈
        Icc low (t.drawDecision (x.diamond test) ((c.takeBand start size).1 + pad)).2.reach ∧
      (t.drawDecision (x.diamond test) ((c.takeBand start size).1 + pad)).1.bottom ∈
        Icc low (t.drawDecision (x.diamond test) ((c.takeBand start size).1 + pad)).2.reach := by
  obtain ⟨htop, hbottom⟩ := takeBand_bounds c start size
  rw [(drawDecision_redraws t (x.diamond test) ((c.takeBand start size).1 + pad)).reach]
  exact ht.drawDecision hx test (by linarith) (by linarith)

theorem labelTest_confined (hc : c.Confined low c.reach) (hy : y ∈ Icc low c.reach)
    (yes no : Direction) (box : DecisionBox ℚ)
    (hd : d = (c.labelExit x.config.yesText x.yesSize yes box).labelExit x.config.noText x.noSize no box) :
    d.Confined low d.reach ∧ y ∈ Icc low d.reach := by
  have hkept := (labelExit_redraws c x.config.yesText x.yesSize yes box).trans
    (labelExit_redraws _ x.config.noText x.noSize no box)
  rw [hd]
  exact ⟨((hc.labelExit _ _ _ _).labelExit _ _ _ _).of_redraws hkept,
    Set.Icc_subset_Icc_right hkept.reach.ge hy⟩

theorem openWhile_confined (hx : x.Padded) (hpad : 0 ≤ c.pad) (hc : c.Confined low c.reach)
    (test : String) : (x.openWhile test c).2.Confined low (x.openWhile test c).2.reach ∧
      (x.openWhile test c).1.middle ∈ Icc low (x.openWhile test c).2.reach := by
  have hlabel : 0 ≤ x.yesSize.height := labelSize_height hx.measure _
  have hblank : (c.loopBody .whileLoop).Confined low (c.loopBody .whileLoop).reach :=
    .blank hc.order rfl hc.tip rfl rfl
  have htested := takeTest_confined (x := x) hx hpad test (hblank.order.trans
    (le_add_of_nonneg_right hx.halfGap)) (le_add_of_nonneg_right hlabel) (hblank.takeBand _ _) rfl
  unfold openWhile
  dsimp only
  generalize Strand.drawDecision _ (x.diamond test) _ = tested at htested ⊢
  obtain ⟨hdrawn, hmiddle, hbottom⟩ := htested
  obtain ⟨hlabelled, hmiddle⟩ := labelTest_confined (x := x) hdrawn hmiddle .south .east tested.1 rfl
  refine ⟨hlabelled.revise (fun t ht => Option.some.inj ht ▸ ?_) (List.Subset.refl _)
    (List.Subset.refl _), hmiddle⟩
  exact (labelTest_confined hdrawn hbottom .south .east tested.1 rfl).2

theorem gatherBack_confined (hx : x.Padded) (hpad : 0 ≤ body.pad) (hbody : body.Confined low body.reach)
    {back : List (ℚ × ℚ)} (h : x.gatherBack body = .ok (back, d)) :
    d.Confined low d.reach ∧ ∀ p ∈ back, p.2 ∈ Icc low d.reach := by
  have hdrained : Confined low body.reach { body with continues := [] } :=
    hbody.revise hbody.tip (List.Subset.refl _) (List.nil_subset _)
  have hle := (gatherBack_widens h).reach
  unfold gatherBack at h
  dsimp only at h
  split at h
  · obtain ⟨⟨pos, taken⟩, htake, h⟩ := exists_of_bind_eq_ok h
    cases h
    obtain ⟨htaken, hy⟩ := Confined.takeExitLine (c := { body with continues := [] }) hdrained hpad
      (le_add_of_nonneg_right hx.halfGap) htake
    have htrunk := trunkTo_redraws taken (pos + taken.pad) false
    refine ⟨(htaken.trunkTo hy false).of_redraws htrunk, fun p hp => ?_⟩
    rcases List.mem_append.mp hp with hp | hp
    · exact Set.Icc_subset_Icc_right hle (hbody.continues p hp)
    · rw [List.mem_singleton.mp hp]
      exact Set.Icc_subset_Icc_right htrunk.reach.ge hy
  · cases h
    exact ⟨hdrained, hbody.continues⟩

theorem routeBack_confined (hbody : body.Confined low body.reach) {back : List (ℚ × ℚ)}
    (hback : ∀ p ∈ back, p.2 ∈ Icc low body.reach) {entry : ℚ} (hentry : entry ∈ Icc low body.reach) :
    (x.routeBack back entry body).Confined low body.reach := by
  unfold routeBack
  split
  · exact hbody
  · exact hbody.route _ _ hback hentry

theorem reclaim_confined (hc : c.Confined low c.reach) (body : Strand ℚ) :
    (c.reclaim body).Confined low (c.reclaim body).reach := by
  have hraised : c.Confined low (c.reclaim body).reach := hc.raise (le_max_left _ _)
  exact hraised.revise hraised.tip (List.Subset.refl _) (List.Subset.refl _)

theorem mergeLoop_confined (hc : c.Confined low c.reach) (debug : c.debug = false)
    (hbody : body.Confined low c.reach) {y : ℚ} (hy : y ∈ Icc low c.reach) :
    Confined low (c.absorb body 0).reach { c.absorb body 0 with tip := some y, alive := true } := by
  have hkept := absorb_redraws c body 0
  refine ((hc.absorb debug hbody 0).of_redraws hkept).revise (fun t ht => Option.some.inj ht ▸ ?_)
    (List.Subset.refl _) (List.Subset.refl _)
  exact Set.Icc_subset_Icc_right hkept.reach.ge hy

theorem closeWhile_confined (hpad : 0 ≤ c.pad) (debug : c.debug = false) (hc : c.Confined low c.reach)
    (hbody : body.Confined low body.reach) {back : List (ℚ × ℚ)}
    (hback : ∀ p ∈ back, p.2 ∈ Icc low body.reach) {entry : ℚ} (hentry : entry ∈ Icc low body.reach)
    {box : DecisionBox ℚ} (hmiddle : box.middle ∈ Icc low body.reach) :
    (x.closeWhile entry box back body c).Confined low (x.closeWhile entry box back body c).reach := by
  have hrouted := routeBack_confined (x := x) hbody hback hentry
  have hkept : (x.routeBack back entry body).reach = body.reach := by
    unfold routeBack
    split
    · rfl
    · exact (route_redraws _ _ _ _ _).reach
  rw [← hkept] at hrouted hmiddle
  unfold closeWhile
  dsimp only
  generalize x.routeBack back entry body = routed at hrouted hmiddle ⊢
  have hemptied : Confined low routed.reach { routed with breaks := [] } :=
    hrouted.revise hrouted.tip (List.nil_subset _) (List.Subset.refl _)
  have hreclaimed := reclaim_confined hc { routed with breaks := [] }
  have hinner : routed.reach ≤ (c.reclaim { routed with breaks := [] }).reach := le_max_right _ _
  have hpad' : 0 ≤ (c.reclaim { routed with breaks := [] }).pad := hpad
  have debug' : (c.reclaim { routed with breaks := [] }).debug = false := debug
  generalize c.reclaim { routed with breaks := [] } = reclaimed at hreclaimed hinner hpad' debug' ⊢
  obtain ⟨hlined, hexit⟩ := hreclaimed.takeLine hpad' le_rfl
  have hreach := hinner.trans (le_max_left _ _ :
    reclaimed.reach ≤ (reclaimed.takeLine reclaimed.reach).2.reach)
  have hexits : ∀ p ∈ (box.width / 2.0, box.middle) :: routed.breaks,
      p.2 ∈ Icc low (reclaimed.takeLine reclaimed.reach).2.reach := by
    intro p hp
    refine Set.Icc_subset_Icc_right hreach ?_
    rcases List.mem_cons.mp hp with rfl | hp
    · exact hmiddle
    · exact hrouted.breaks p hp
  have hout := (hemptied.raise hreach).route .out
    (Strand.eastLane { routed with breaks := [] } x.config.stepX) hexits hexit
  exact mergeLoop_confined hlined debug' hout hexit

theorem gatherOnward_confined (hx : x.Padded) (hpad : 0 ≤ body.pad)
    (hbody : body.Confined low body.reach) :
    (x.gatherOnward body).Confined low (x.gatherOnward body).reach := by
  have hdrained : Confined low body.reach { body with continues := [] } :=
    hbody.revise hbody.tip (List.Subset.refl _) (List.nil_subset _)
  unfold gatherOnward
  dsimp only
  split
  · exact hdrained
  · obtain ⟨hlined, hy⟩ := Confined.takeLine (c := { body with continues := [] }) hdrained hpad
      (le_add_of_nonneg_right hx.halfGap)
    have hroom : body.reach ≤ (Strand.takeLine { body with continues := [] }
      (body.reach + x.halfGap)).2.reach := le_max_left _ _
    have hrouted := ((hlined.dropDeadTip.trunkTo hy false).route .onward
      (Strand.eastLane { body with continues := [] } x.config.stepX)
      (fun p hp => Set.Icc_subset_Icc_right hroom (hbody.continues p hp)) hy).of_redraws
        (((dropDeadTip_redraws _).trans (trunkTo_redraws _ _ _)).trans (route_redraws _ _ _ _ _))
    exact hrouted.revise hrouted.tip (List.Subset.refl _) (List.Subset.refl _)

theorem testDo_confined (hx : x.Padded) (hpad : 0 ≤ body.pad) (hbody : body.Confined low body.reach)
    (test : String) {entry : ℚ} (hentry : entry ∈ Icc low body.reach) :
    (x.testDo test entry body).2.Confined low (x.testDo test entry body).2.reach ∧
      (x.testDo test entry body).1.bottom ∈ Icc low (x.testDo test entry body).2.reach := by
  have hlabel : 0 ≤ x.noSize.height := labelSize_height hx.measure _
  have hle := (x.testDo_widens test entry body).reach
  have htested := takeTest_confined (x := x) hx hpad test (hbody.order.trans
    (le_add_of_nonneg_right hx.stepY)) (le_add_of_nonneg_right hlabel)
    ((hbody.takeBand _ _).dropDeadTip.of_redraws (dropDeadTip_redraws _)) (dropDeadTip_redraws _).reach
  unfold testDo at hle ⊢
  dsimp only [takeBand_pad] at hle ⊢
  generalize Strand.drawDecision _ (x.diamond test) _ = tested at htested hle ⊢
  obtain ⟨hdrawn, hmiddle, hbottom⟩ := htested
  obtain ⟨hlabelled, hmiddle⟩ := labelTest_confined (x := x) hdrawn hmiddle .west .south tested.1 rfl
  obtain ⟨-, hbottom⟩ := labelTest_confined (x := x) hdrawn hbottom .west .south tested.1 rfl
  generalize (tested.2.labelExit x.config.yesText x.yesSize .west tested.1).labelExit x.config.noText
    x.noSize .south tested.1 = labelled at hlabelled hmiddle hbottom hle ⊢
  have hkept := route_redraws labelled .again [(-tested.1.width / 2.0, tested.1.middle)]
    (labelled.westLane x.config.stepX) entry
  have hagain := (hlabelled.route .again (labelled.westLane x.config.stepX)
    (fun p hp => List.mem_singleton.mp hp ▸ hmiddle)
    (Set.Icc_subset_Icc_right (hle.trans_eq hkept.reach) hentry)).of_redraws hkept
  rw [← hkept.reach] at hbottom
  exact ⟨hagain.revise (fun t ht => Option.some.inj ht ▸ hbottom) (List.Subset.refl _)
    (List.Subset.refl _), hbottom⟩

theorem closeDo_confined (hx : x.Padded) (hpad : 0 ≤ c.pad) (debug : c.debug = false)
    (hc : c.Confined low c.reach) (hsame : body.pad = c.pad) (hbody : body.Confined low body.reach)
    (test : String) {entry : ℚ} (hentry : entry ∈ Icc low body.reach) :
    (x.closeDo test entry body c).Confined low (x.closeDo test entry body c).reach := by
  have honward := gatherOnward_confined hx (hpad.trans_eq hsame.symm) hbody
  have hwidens := x.gatherOnward_widens body
  obtain ⟨htested, hbottom⟩ := testDo_confined hx
    ((hpad.trans_eq hsame.symm).trans_eq hwidens.keeps.pad.symm) honward test
    (Set.Icc_subset_Icc_right hwidens.reach hentry)
  unfold closeDo
  dsimp only
  generalize x.testDo test entry (x.gatherOnward body) = tested at htested hbottom ⊢
  obtain ⟨box, tested⟩ := tested
  dsimp only at htested hbottom ⊢
  have hemptied : Confined low tested.reach { tested with breaks := [] } :=
    htested.revise htested.tip (List.nil_subset _) (List.Subset.refl _)
  have hreclaimed := reclaim_confined hc { tested with breaks := [] }
  have hinner : tested.reach ≤ (c.reclaim { tested with breaks := [] }).reach := le_max_right _ _
  have hpad' : 0 ≤ (c.reclaim { tested with breaks := [] }).pad := hpad
  have debug' : (c.reclaim { tested with breaks := [] }).debug = false := debug
  generalize c.reclaim { tested with breaks := [] } = reclaimed at hreclaimed hinner hpad' debug' ⊢
  split
  · exact mergeLoop_confined hreclaimed debug' (hemptied.raise hinner)
      (Set.Icc_subset_Icc_right hinner hbottom)
  · obtain ⟨hlined, hexit⟩ := hreclaimed.takeLine hpad' le_rfl
    have hreach := hinner.trans (le_max_left _ _ :
      reclaimed.reach ≤ (reclaimed.takeLine reclaimed.reach).2.reach)
    have hout := ((hemptied.raise hreach).trunkTo hexit false).route .out
      (Strand.eastLane { tested with breaks := [] } x.config.stepX)
      (fun p hp => Set.Icc_subset_Icc_right hreach (htested.breaks p hp)) hexit
    exact mergeLoop_confined hlined debug' hout hexit

end Context

structure Fan.Confined (low : ℚ) (f : Fan ℚ) : Prop where
  holder : f.finish.Confined low f.reach
  ends : ∀ e ∈ f.ends, e.tip ∈ Icc low f.reach
  breaks : ∀ p ∈ f.breaks, p.2 ∈ Icc low f.reach

namespace Context
variable {x : Context ℚ} {low high y : ℚ} {c d arm body holder : Strand ℚ} {f : Fan ℚ}
  {plan : FanPlan ℚ}

theorem start_confined (hc : c.Confined low c.reach) (right : ℚ) : (Fan.start c right).Confined low :=
  ⟨hc.revise hc.tip (List.Subset.refl _) (List.Subset.refl _), nofun, nofun⟩

theorem openBranch_confined (htap : plan.tap ∈ Icc low f.holder.reach) (label : String) :
    (x.openBranch plan label f).Confined low (x.openBranch plan label f).reach := by
  have hblank : Confined low f.holder.reach { f.holder.fork with tip := some plan.tap } :=
    .blank (htap.1.trans htap.2) rfl (fun t ht => Option.some.inj ht ▸ htap) rfl rfl
  unfold openBranch labelBranch
  split
  · exact hblank
  · exact (Confined.takeBand (c := { f.holder.fork with tip := some plan.tap }) hblank _ _).draw
      (Shape.between_label rfl)

theorem closeBranch_confined (debug : f.holder.debug = false) (hf : f.Confined low)
    (harm : arm.Confined low arm.reach) (plan : FanPlan ℚ) (index : Nat) :
    (x.closeBranch plan index arm f).Confined low := by
  have hraise : Icc low f.reach ⊆ Icc low (max f.reach arm.reach) :=
    Set.Icc_subset_Icc_right (le_max_left _ _)
  have harm' := harm.raise (le_max_right f.reach arm.reach)
  refine ⟨?_, fun e he => ?_, fun p hp => ?_⟩
  · have hheld : Confined low (max f.reach arm.reach)
        { f.holder with reach := max f.reach arm.reach, lanes := arm.lanes } := by
      have hholder := hf.holder.raise (le_max_left f.reach arm.reach)
      exact hholder.revise hholder.tip (List.Subset.refl _) (List.Subset.refl _)
    rw [closeBranch_finish]
    cases plan.takesBreaks
    · exact hheld.absorb debug harm' _
    · exact hheld.absorb debug (harm'.revise harm'.tip (List.nil_subset _) (List.Subset.refl _)) _
  · rcases List.mem_append.mp he with he | he
    · exact hraise (hf.ends e he)
    · unfold branchEnd at he
      split at he
      · next tip htip =>
          rw [List.mem_singleton.mp he]
          exact harm'.liveTip tip htip
      · cases he
  · rcases List.mem_append.mp hp with hp | hp
    · exact hraise (hf.breaks p hp)
    · split at hp
      · obtain ⟨q, hq, rfl⟩ := List.mem_map.mp hp
        exact harm'.breaks q hq
      · cases hp

theorem joinEnds_reach (ends : List (ℚ × ℚ)) (holder : Strand ℚ) :
    (joinEnds ends holder).reach = (holder.takeLine holder.reach).2.reach := by
  unfold joinEnds
  dsimp only
  refine (foldl_redraws _ (fun (h : Strand ℚ) (e : ℚ × ℚ) => ?_) ends _).reach
  split <;> exact draw_redraws _ _

theorem joinEnds_confined (hholder : holder.Confined low holder.reach) (hpad : 0 ≤ holder.pad)
    {ends : List (ℚ × ℚ)} (hends : ∀ e ∈ ends, e.2 ∈ Icc low holder.reach) :
    (joinEnds ends holder).Confined low (joinEnds ends holder).reach := by
  obtain ⟨hlined, hy⟩ := hholder.takeLine hpad le_rfl
  have hend (e : ℚ × ℚ) (he : e ∈ ends) : e.2 ∈ Icc low (holder.takeLine holder.reach).2.reach :=
    Set.Icc_subset_Icc_right (le_max_left _ _) (hends e he)
  have hjoined := Confined.foldl (fun (h : Strand ℚ) (e : ℚ × ℚ) =>
    if e.1 == (ends.map Prod.fst).foldl max 0 && decide (0 < e.1) then
      h.draw (.path (((Path.start e.1 e.2).vertical
        ((holder.takeLine holder.reach).1 - e.2)).horizontal (-e.1)).withArrow)
    else h.draw (.path (Path.down e.1 e.2 ((holder.takeLine holder.reach).1 - e.2)))) ends hlined
    fun e he h hh => by
      split
      · exact hh.drawPath (Path.Between.drop _ _ (hend e he) hy).withArrow
      · exact hh.drawPath (.down _ (hend e he) hy)
  rw [joinEnds_reach]
  exact hjoined.revise (fun t ht => Option.some.inj ht ▸ hy) (List.Subset.refl _) (List.Subset.refl _)

theorem adopt_confined (debug : c.debug = false) (hc : c.Confined low c.reach)
    (hholder : holder.Confined low holder.reach) :
    (adopt holder c).Confined low (adopt holder c).reach := by
  have hholder' := hholder.raise (le_max_right c.reach holder.reach)
  have hadopted := (hc.raise (le_max_left c.reach holder.reach)).absorb debug hholder' 0
  exact hadopted.revise hholder'.tip (List.Subset.refl _) (List.Subset.refl _)

theorem openSwitch_confined (hx : x.Padded) (hpad : 0 ≤ c.pad) (hc : c.Confined low c.reach)
    (subject : String) : (x.openSwitch subject c).2.2.Confined low (x.openSwitch subject c).2.2.reach ∧
      (x.openSwitch subject c).2.1 ∈ Icc low (x.openSwitch subject c).2.2.reach := by
  have hblank : c.switchHolder.Confined low c.switchHolder.reach := .blank hc.order rfl hc.tip rfl rfl
  have htested := takeTest_confined (x := x) hx hpad subject
    (hblank.order.trans (c.switchHolder.reach_le_startBelow hx.stepY)) le_rfl (hblank.takeBand _ _) rfl
  have hkept : ∀ top, (((c.switchHolder.takeBand (c.switchHolder.startBelow x.config.stepY)
      ((x.diamond subject).bounds.height + 2.0 * c.pad)).2.drawDecision (x.diamond subject) top)).2.pad =
        c.pad := fun top => (drawDecision_redraws _ _ top).keeps.pad
  unfold openSwitch
  dsimp only
  specialize hkept _
  · exact (c.switchHolder.takeBand (c.switchHolder.startBelow x.config.stepY)
      ((x.diamond subject).bounds.height + 2.0 * c.pad)).1 + c.pad
  generalize Strand.drawDecision _ (x.diamond subject) _ = tested at htested hkept ⊢
  obtain ⟨hdrawn, -, hbottom⟩ := htested
  obtain ⟨hlined, htap⟩ := Confined.takeLine (c := { tested.2 with tip := some tested.1.bottom })
    (hdrawn.revise (fun t ht => Option.some.inj ht ▸ hbottom) (List.Subset.refl _)
      (List.Subset.refl _)) (hpad.trans_eq hkept.symm) le_rfl
  exact ⟨(hlined.trunkTo htap false).of_redraws (trunkTo_redraws _ _ _),
    Set.Icc_subset_Icc_right (trunkTo_redraws _ _ _).reach.ge htap⟩

theorem drawTap_confined {tap : ℚ} (hholder : holder.Confined low high) (htap : tap ∈ Icc low high)
    (lastDx : ℚ) : (drawTap tap lastDx holder).Confined low high := by
  unfold drawTap
  split
  · exact hholder.drawPath (.across _ _ htap)
  · exact hholder

theorem settleEnds_confined (hpad : 0 ≤ holder.pad) (hholder : holder.Confined low holder.reach)
    {ends : List (BranchEnd ℚ)} (hends : ∀ e ∈ ends, e.tip ∈ Icc low holder.reach) :
    (settleEnds ends holder).Confined low (settleEnds ends holder).reach := by
  unfold settleEnds
  split
  · exact hholder.revise hholder.tip (List.Subset.refl _) (List.Subset.refl _)
  · exact hholder.revise (fun t ht => Option.some.inj ht ▸ hends _ List.mem_cons_self)
      (List.Subset.refl _) (List.Subset.refl _)
  · refine joinEnds_confined hholder hpad fun e he => ?_
    obtain ⟨branch, hbranch, rfl⟩ := List.mem_map.mp he
    exact hends branch hbranch

theorem gatherBreaks_confined (hpad : 0 ≤ holder.pad) (hholder : holder.Confined low holder.reach)
    {breaks : List (ℚ × ℚ)} (hbreaks : ∀ p ∈ breaks, p.2 ∈ Icc low holder.reach) :
    (x.gatherBreaks breaks holder).Confined low (x.gatherBreaks breaks holder).reach := by
  unfold gatherBreaks
  dsimp only
  split
  · exact hholder
  · obtain ⟨hlined, hexit⟩ := hholder.takeLine hpad le_rfl
    have hrouted := ((hlined.dropDeadTip.trunkTo hexit false).route .out
      (holder.eastLane x.config.stepX)
      (fun p hp => Set.Icc_subset_Icc_right (le_max_left holder.reach _) (hbreaks p hp)) hexit).of_redraws
        (((dropDeadTip_redraws _).trans (trunkTo_redraws _ _ _)).trans (route_redraws _ _ _ _ _))
    exact hrouted.revise hrouted.tip (List.Subset.refl _) (List.Subset.refl _)

theorem closeSwitch_confined (hpad : 0 ≤ c.pad) (debug : c.debug = false) (hc : c.Confined low c.reach)
    (hf : f.Confined low) (hsame : f.finish.pad = c.pad) {tap : ℚ} (htap : tap ∈ Icc low f.reach) :
    (x.closeSwitch tap f c).Confined low (x.closeSwitch tap f c).reach := by
  have hdrawn := drawTap_confined hf.holder htap f.lastDx
  have hkept : (drawTap tap f.lastDx f.finish).pad = f.finish.pad ∧
      (drawTap tap f.lastDx f.finish).reach = f.reach := by
    unfold drawTap
    split <;> exact ⟨rfl, rfl⟩
  have hends := hf.ends
  rw [← hkept.2] at hdrawn hends
  have hsettled := settleEnds_confined (hpad.trans_eq (hkept.1.trans hsame).symm) hdrawn hends
  have hwidens := settleEnds_widens f.ends (drawTap tap f.lastDx f.finish)
  have hgathered := gatherBreaks_confined (x := x)
    (hpad.trans_eq (hwidens.keeps.pad.trans (hkept.1.trans hsame)).symm) hsettled fun p hp =>
      Set.Icc_subset_Icc_right (hkept.2.ge.trans hwidens.reach) (hf.breaks p hp)
  exact adopt_confined debug hc hgathered

theorem openTry_confined (hx : x.Padded) (hpad : 0 ≤ c.pad) (hc : c.Confined low c.reach) :
    (x.openTry c).2.1.Confined low (x.openTry c).2.1.reach ∧ low ≤ (x.openTry c).1 := by
  have hfork : c.fork.Confined low c.fork.reach := hc.fork
  obtain ⟨hlined, htop⟩ := hfork.takeLine hpad (c.fork.reach_le_startBelow hx.stepY)
  exact ⟨(hlined.trunkTo htop false).of_redraws (trunkTo_redraws _ _ _), htop.1⟩

theorem openTry_body_confined (hx : x.Padded) (hpad : 0 ≤ c.pad) (hlow : low ≤ (x.openTry c).1) :
    (x.openTry c).2.2.Confined low (x.openTry c).2.2.reach := by
  have htop := (takeLine_spec (c := c.fork) hpad (c.fork.startBelow x.config.stepY)).2
  have hroom : (x.openTry c).1 ≤ (x.openTry c).2.2.reach :=
    (htop.trans (trunkTo_redraws _ _ false).reach.ge).trans (le_add_of_nonneg_right hx.frameY)
  refine .blank (hlow.trans hroom) rfl (fun t ht => ?_) rfl rfl
  unfold openTry at ht
  dsimp only at ht
  split at ht
  · cases ht
    exact ⟨hlow, hroom⟩
  · cases ht

theorem closedBody_confined (hx : x.Padded) (hpad : 0 ≤ body.pad) (hbody : body.Confined low body.reach) :
    (x.closedBody body).Confined low (body.takeLine (body.reach + x.config.frame.padY)).1 ∧
      (body.takeLine (body.reach + x.config.frame.padY)).1 ∈ Icc low (x.closedBody body).reach := by
  obtain ⟨hlow, hhigh⟩ := takeLine_spec hpad (body.reach + x.config.frame.padY)
  have hbelow := (le_add_of_nonneg_right hx.frameY).trans hlow
  have hraised := hbody.raise hbelow
  have hlined : (body.takeLine (body.reach + x.config.frame.padY)).2.Confined low
      (body.takeLine (body.reach + x.config.frame.padY)).1 :=
    hraised.revise hraised.tip (List.Subset.refl _) (List.Subset.refl _)
  unfold closedBody
  dsimp only
  split
  · refine ⟨hlined.trunkTo ⟨hraised.order, le_rfl⟩ false, hraised.order, ?_⟩
    exact hhigh.trans (trunkTo_redraws _ _ _).reach.ge
  · exact ⟨hlined, hraised.order, hhigh⟩

theorem closeFrame_confined (hx : x.Padded) (hpad : 0 ≤ body.pad) (debug : holder.debug = false)
    (hholder : holder.Confined low holder.reach) (hbody : body.Confined low body.reach) {top : ℚ}
    (htop : low ≤ top) :
    (x.closeFrame top body holder).holder.Confined low (x.closeFrame top body holder).holder.reach ∧
      (x.closeFrame top body holder).bottom ∈ Icc low (x.closeFrame top body holder).holder.reach ∧
      ∀ e ∈ (x.closeFrame top body holder).ends,
        e.2 ∈ Icc low (x.closeFrame top body holder).holder.reach := by
  obtain ⟨hclosed, hbottom⟩ := closedBody_confined hx hpad hbody
  have hroom := le_max_right holder.reach (x.closedBody body).reach
  have hheld : Confined low (max holder.reach (x.closedBody body).reach) { holder with
      reach := max holder.reach (x.closedBody body).reach
      lanes := (x.closedBody body).lanes } :=
    (hholder.raise (le_max_left _ _)).revise (hholder.raise (le_max_left _ _)).tip
      (List.Subset.refl _) (List.Subset.refl _)
  have hframe : (Shape.frame (x.frameAround top body)).Between low
      (max holder.reach (x.closedBody body).reach) :=
    Shape.between_frame htop (hbottom.2.trans hroom)
  have hdrawn := (hheld.absorb debug (hclosed.raise (hbottom.2.trans hroom)) 0).draw hframe
  have hkept : (x.closeFrame top body holder).holder.reach =
      max holder.reach (x.closedBody body).reach := ((absorb_redraws _ _ 0).trans (draw_redraws _ _)).reach
  have hlower : (x.closeFrame top body holder).bottom ∈
      Icc low (x.closeFrame top body holder).holder.reach :=
    Set.Icc_subset_Icc_right (hroom.trans hkept.ge) hbottom
  refine ⟨hdrawn.raise hkept.ge, hlower, fun e he => ?_⟩
  unfold closeFrame at he
  dsimp only at he
  split at he
  · rw [List.mem_singleton.mp he]
    exact hlower
  · cases he

theorem closeTry_confined (hpad : 0 ≤ c.pad) (debug : c.debug = false) (hc : c.Confined low c.reach)
    (hf : f.Confined low) (hsame : f.finish.pad = c.pad) {tap : ℚ} (htap : tap ∈ Icc low f.reach)
    {framed : Framed ℚ} (hbottom : framed.bottom ∈ Icc low f.reach)
    (hends : ∀ e ∈ framed.ends, e.2 ∈ Icc low f.reach) :
    (closeTry tap framed f c).Confined low (closeTry tap framed f c).reach := by
  have hdrawn := hf.holder.drawPath
    (Path.Between.drop framed.right (f.lastDx - framed.right) hbottom htap)
  have hall : ∀ e ∈ framed.ends ++ f.ends.map fun e => (e.dx, e.tip), e.2 ∈ Icc low f.reach := by
    intro e he
    rcases List.mem_append.mp he with he | he
    · exact hends e he
    · obtain ⟨branch, hbranch, rfl⟩ := List.mem_map.mp he
      exact hf.ends branch hbranch
  unfold closeTry
  dsimp only
  obtain ⟨drawn, hdraw⟩ : ∃ drawn, drawn = f.finish.draw (.path (((Path.start framed.right
    framed.bottom).vertical (tap - framed.bottom)).horizontal (f.lastDx - framed.right))) := ⟨_, rfl⟩
  have hreach : drawn.reach = f.reach := hdraw ▸ rfl
  have hpad' : drawn.pad = f.finish.pad := hdraw ▸ rfl
  rw [← hdraw, ← hreach] at hdrawn
  rw [← hreach] at hall
  rw [← hdraw]
  refine adopt_confined debug hc ?_
  split
  · exact hdrawn.revise hdrawn.tip (List.Subset.refl _) (List.Subset.refl _)
  · exact joinEnds_confined hdrawn (hpad.trans_eq (hpad'.trans hsame).symm) hall

end Context

def Bounds.area (b : Bounds ℚ) : Set (ℚ × ℚ) := Icc b.minX b.maxX ×ˢ Icc b.minY b.maxY

/-- The solid leaves of a shape lie inside the outline. -/
def Outline.Surrounds (frame : Outline ℚ) (s : Shape ℚ) : Prop :=
  ∀ p ∈ s.leaves 0 0, p.shape.isSolid = true → p.extent.Inside (Shape.frame frame).extent

def Outline.Spares (frame : Outline ℚ) (s : Shape ℚ) : Prop :=
  ∀ p ∈ s.leaves 0 0, Disjoint p.extent.area (Shape.frame frame).extent.interior

/-- The frame of a try stands around its body and around no part of its handlers. -/
def Siblings.inFrames : Siblings ℚ where
  beside _ _ _ := True
  cases _ := True
  framed frame body handlers := frame.Surrounds body ∧ ∀ handler ∈ handlers, frame.Spares handler

def Stage.Confines (low : ℚ) : Stage ℚ → Prop
  | .statement _ c c' => 0 ≤ c.pad → c.debug = false → c.Confined low c.reach →
      c'.Confined low c'.reach
  | .block _ c c' => 0 ≤ c.pad → c.debug = false → c.Confined low c.reach → c'.Confined low c'.reach
  | .branches plan _ _ f f' => 0 ≤ f.holder.pad → f.holder.debug = false →
      plan.tap ∈ Icc low f.holder.reach → f.Confined low → f'.Confined low

namespace Context
variable {x : Context ℚ} {low : ℚ} {c : Strand ℚ}

theorem arm_confined {block : Block} {opened arm : Strand ℚ} {tip : ℚ} (hpad : 0 ≤ opened.pad)
    (debug : opened.debug = false) (htip : tip ∈ Icc low opened.reach)
    (ih : Stage.Confines low (.block block (opened.armFrom tip) arm)) : arm.Confined low arm.reach :=
  ih hpad debug (.blank (htip.1.trans htip.2) rfl (fun _ ht => Option.some.inj ht ▸ htip) rfl rfl)

theorem decisionBelow_confined (hx : x.Padded) (hpad : 0 ≤ c.pad) (debug : c.debug = false)
    (hc : c.Confined low c.reach) {test : String} {exits : Exit × Exit} {box : DecisionBox ℚ}
    {opened arm : Strand ℚ} {block : Block} (hopen : x.openDecision test exits c = .ok (box, opened))
    (ih : Stage.Confines low (.block block (opened.armFrom box.bottom) arm)) :
    (closeBelow arm opened).Confined low (closeBelow arm opened).reach := by
  obtain ⟨hopened, -, hbottom⟩ := openDecision_confined hx hpad debug hc hopen
  have hkeeps := x.openDecision_keeps hopen
  have harm := arm_confined (hpad.trans_eq hkeeps.pad.symm) (hkeeps.debug.trans debug) hbottom ih
  exact closeBelow_confined (hkeeps.debug.trans debug) hopened harm

/-- When the handlers of a try are reached, the frame and the ends of its body lie above them. -/
theorem openHandlers_confined (hx : x.Padded) (hpad : 0 ≤ c.pad) (debug : c.debug = false)
    (hc : c.Confined low c.reach) {body : Block} {holder inner framed opened : Strand ℚ}
    {top tap : ℚ} {drawn : Framed ℚ} (hopen : x.openTry c = (top, holder, inner))
    (hframe : x.closeFrame top framed holder = drawn)
    (hline : drawn.holder.takeLine drawn.holder.reach = (tap, opened))
    (hrun : x.Run (.block body inner framed))
    (hbody : Stage.Confines low (.block body inner framed)) :
    opened.Confined low opened.reach ∧ tap ∈ Icc low opened.reach ∧
      drawn.bottom ∈ Icc low opened.reach ∧ ∀ e ∈ drawn.ends, e.2 ∈ Icc low opened.reach := by
  obtain ⟨rfl, rfl, rfl⟩ := openTry_parts hopen
  obtain ⟨hholder, htop⟩ := openTry_confined hx hpad hc
  have hkeeps := x.openTry_keeps c
  have hinnerKeeps : (x.openTry c).2.1.Keeps (x.openTry c).2.2 := (Keeps.refl _).revise
  have hpadInner := hpad.trans_eq (hkeeps.trans hinnerKeeps).pad.symm
  have hframed := hbody hpadInner ((hkeeps.trans hinnerKeeps).debug.trans debug)
    (openTry_body_confined hx hpad htop)
  obtain ⟨hdrawn, hbottom, hends⟩ := closeFrame_confined hx
    (hpadInner.trans_eq (hrun.widens hx.toSpacious).keeps.pad.symm) (hkeeps.debug.trans debug) hholder
    hframed htop
  have hdrawnKeeps := x.closeFrame_keeps (x.openTry c).1 framed (x.openTry c).2.1
  rw [hframe] at hdrawn hbottom hends hdrawnKeeps
  obtain ⟨hlined, htap⟩ :=
    hdrawn.takeLine (hpad.trans_eq (hkeeps.trans hdrawnKeeps).pad.symm) le_rfl
  have hlinedWidens := drawn.holder.takeLine_widens drawn.holder.reach
  rw [hline] at hlined htap hlinedWidens
  have hraise : Icc low drawn.holder.reach ⊆ Icc low opened.reach :=
    Set.Icc_subset_Icc_right hlinedWidens.reach
  exact ⟨hlined, htap, hraise hbottom, fun e he => hraise (hends e he)⟩

theorem Run.confines (hx : x.Padded) {stage : Stage ℚ} (h : x.Run stage) : stage.Confines low := by
  induction h with
  | @text content c => exact fun hpad _ hc => arrangeText_confined hx hpad hc content
  | @pass c =>
      intro _ _ hc
      have hraised := hc.raise (le_add_of_nonneg_right hx.stepY)
      exact hraised.revise hraised.tip (List.Subset.refl _) (List.Subset.refl _)
  | jump hjump => exact fun hpad debug hc => arrangeJump_confined hx hpad debug hc hjump
  | twoJumps _ _ _ hopen =>
      intro hpad debug hc
      obtain ⟨hopened, -, -⟩ := openDecision_confined hx hpad debug hc hopen
      exact hopened.revise hopened.tip (List.Subset.refl _) (List.Subset.refl _)
  | yesBelow _ _ hopen _ ih =>
      exact fun hpad debug hc => decisionBelow_confined hx hpad debug hc hopen ih
  | noBelow _ _ _ hopen _ ih =>
      exact fun hpad debug hc => decisionBelow_confined hx hpad debug hc hopen ih
  | @twoArms test yes no c box opened south east _ _ hopen _ _ ihSouth ihEast =>
      intro hpad debug hc
      obtain ⟨hopened, hmiddle, hbottom⟩ := openDecision_confined hx hpad debug hc hopen
      have hkeeps := x.openDecision_keeps hopen
      have hpad' := hpad.trans_eq hkeeps.pad.symm
      have debug' := hkeeps.debug.trans debug
      have hsouth := arm_confined hpad' debug' hbottom ihSouth
      have heast := arm_confined (show 0 ≤ (opened.share south).pad from hpad') debug' hmiddle ihEast
      have hbelow := closeBelow_keeps south opened
      exact closeBeside_confined (hpad'.trans_eq hbelow.pad.symm) (hbelow.debug.trans debug')
        (closeBelow_confined debug' hopened hsouth) (hsouth.raise (le_max_right _ _)) heast
        (Set.Icc_subset_Icc_right (le_max_left _ _) hmiddle)
  | @whileLoop test body c inner back gathered hbody hback ih =>
      intro hpad debug hc
      obtain ⟨hentered, hentry⟩ := enter_confined hx hpad hc
      have hkeeps := x.enter_keeps c
      have hpad' := hpad.trans_eq hkeeps.pad.symm
      have debug' := hkeeps.debug.trans debug
      obtain ⟨hopened, hmiddle⟩ := openWhile_confined hx hpad' hentered test
      have hopenedWidens := x.openWhile_widens test (x.enter c).2
      have hwidens := hbody.widens hx.toSpacious
      have hpadOpened := hpad'.trans_eq hopenedWidens.keeps.pad.symm
      have hinner := ih hpadOpened (hopenedWidens.keeps.debug.trans debug') hopened
      obtain ⟨hgathered, hpoints⟩ := gatherBack_confined hx
        (hpadOpened.trans_eq hwidens.keeps.pad.symm) hinner hback
      have hinnerReach := hwidens.reach.trans (gatherBack_widens hback).reach
      exact closeWhile_confined hpad' debug' hentered hgathered hpoints
        (Set.Icc_subset_Icc_right (hopenedWidens.reach.trans hinnerReach) hentry)
        (Set.Icc_subset_Icc_right hinnerReach hmiddle)
  | @doLoop body test c inner hbody ih =>
      intro hpad debug hc
      obtain ⟨hentered, hentry⟩ := enter_confined hx hpad hc
      have hkeeps := x.enter_keeps c
      have hpad' := hpad.trans_eq hkeeps.pad.symm
      have debug' := hkeeps.debug.trans debug
      have hwidens := hbody.widens hx.toSpacious
      have hinner := ih hpad' debug' (.blank hentered.order rfl hentered.tip rfl rfl)
      exact closeDo_confined hx hpad' debug' hentered hwidens.keeps.pad hinner test
        (Set.Icc_subset_Icc_right hwidens.reach hentry)
  | @switch subject cases c box tap holder fan hopen hrun ih =>
      intro hpad debug hc
      obtain ⟨hholder, htap⟩ := openSwitch_confined hx hpad hc subject
      have hkeeps := x.openSwitch_keeps subject c
      rw [hopen] at hholder htap hkeeps
      obtain ⟨hwidens, hreach⟩ := hrun.widens hx.toSpacious
      have hfan := ih (hpad.trans_eq hkeeps.pad.symm) (hkeeps.debug.trans debug) htap
        (start_confined hholder _)
      exact closeSwitch_confined hpad debug hc hfan (hwidens.keeps.pad.trans hkeeps.pad)
        (Set.Icc_subset_Icc_right hreach htap)
  | @tryBlock body handlers c top holder inner framed drawn tap opened fan hopen hbody hframe hline
      hrun ihBody ihHandlers =>
      intro hpad debug hc
      obtain ⟨hlined, htap, hbottom, hends⟩ :=
        openHandlers_confined hx hpad debug hc hopen hframe hline hbody ihBody
      have hkeeps := (openHandlers_keeps hopen hframe hline).1
      obtain ⟨hwidens, hreach⟩ := hrun.widens hx.toSpacious
      have hfan := ihHandlers (hpad.trans_eq hkeeps.pad.symm) (hkeeps.debug.trans debug) htap
        (start_confined hlined _)
      have hraise : Icc low opened.reach ⊆ Icc low fan.reach := Set.Icc_subset_Icc_right hreach
      exact closeTry_confined hpad debug hc hfan (hkeeps.trans hwidens.keeps).pad (hraise htap)
        (hraise hbottom) fun e he => hraise (hends e he)
  | done => exact fun _ _ hc => hc
  | dead => exact fun _ _ hc => hc
  | next _ hs _ ihs ihRest =>
      exact fun hpad debug hc => ihRest (hpad.trans_eq hs.keeps.pad.symm)
        (hs.keeps.debug.trans debug) (ihs hpad debug hc)
  | noBranch => exact fun _ _ _ hf => hf
  | @branch plan index label block rest f arm f' _ _ ihBlock ihRest =>
      intro hpad debug htap hf
      have hopen := x.openBranch_keeps plan label f
      have hclosed := x.closeBranch_keeps plan index arm f
      have harm := ihBlock (hpad.trans_eq hopen.pad.symm) (hopen.debug.trans debug)
        (openBranch_confined htap label)
      have hholder : (x.closeBranch plan index arm f).holder.reach = f.holder.reach :=
        (absorb_redraws _ _ _).reach
      exact ihRest (hpad.trans_eq hclosed.pad.symm) (hclosed.debug.trans debug) (hholder ▸ htap)
        (closeBranch_confined debug hf harm plan index)

theorem closedBody_made {body : Strand ℚ} (hbody : body.group.Made) :
    (x.closedBody body).group.Made := by
  unfold closedBody
  dsimp only
  split
  · exact trunkTo_builds _ _ _ hbody
  · exact hbody

theorem frameAround_surrounds_closed (hx : x.Padded) {top : ℚ} {body : Strand ℚ}
    (hmade : body.group.Made) (hclosed : (x.closedBody body).group.Between top
      (body.takeLine (body.reach + x.config.frame.padY)).1) :
    (x.frameAround top body).Surrounds ((x.closedBody body).group.shift 0 0).toShape := by
  have hencloses := (closedBody_made (x := x) hmade).encloses
  have hpadX := hx.frameX
  intro p hp hsolid
  have hinside := (hencloses.shift 0 0).leaf_inside hp
  have hshown : p ∈ ((x.closedBody body).group.shift 0 0).toShape.visible := by
    refine List.mem_filter.mpr ⟨hp, ?_⟩
    cases hshape : p.shape <;> simp_all [Shape.isSolid, Shape.isPlaceholder]
  obtain ⟨hminY, hmaxY⟩ := hclosed.shift 0 p hshown hsolid
  have hminX : (x.closedBody body).group.extent.minX ≤ p.extent.minX := by
    refine Eq.trans_le ?_ hinside.minX
    change _ = (x.closedBody body).group.bounds.minX + ((x.closedBody body).group.x + 0)
    rw [add_zero]
    rfl
  have hmaxX : p.extent.maxX ≤ (x.closedBody body).group.extent.maxX := by
    refine hinside.maxX.trans_eq ?_
    change (x.closedBody body).group.bounds.maxX + ((x.closedBody body).group.x + 0) = _
    rw [add_zero]
    rfl
  have hleft := min_le_left (x.closedBody body).group.extent.minX 0
  have hright := le_max_left (x.closedBody body).group.extent.maxX 0
  unfold frameAround
  refine ⟨?_, ?_, ?_, ?_⟩
  · change 0 + (min (x.closedBody body).group.extent.minX 0 - x.config.frame.padX) ≤ _
    linarith
  · change 0 + top ≤ _
    linarith
  · change _ ≤ max (x.closedBody body).group.extent.maxX 0 + x.config.frame.padX -
      (min (x.closedBody body).group.extent.minX 0 - x.config.frame.padX) +
        (min (x.closedBody body).group.extent.minX 0 - x.config.frame.padX)
    linarith
  · change _ ≤ (body.takeLine (body.reach + x.config.frame.padY)).1 - top + top
    linarith

/-- A body that is laid out in a try lies within the frame that is drawn around it. -/
theorem frameAround_surrounds (hx : x.Padded) {block : Block} {top : ℚ} {holder inner body : Strand ℚ}
    (hpad : 0 ≤ c.pad) (debug : c.debug = false) (hopen : x.openTry c = (top, holder, inner))
    (hrun : x.Run (.block block inner body)) :
    (x.frameAround top body).Surrounds ((x.closedBody body).group.shift 0 0).toShape := by
  obtain ⟨rfl, rfl, rfl⟩ := openTry_parts hopen
  have hinnerKeeps : c.Keeps (x.openTry c).2.2 := (x.openTry_keeps c).revise
  have hbody := hrun.confines hx (hpad.trans_eq hinnerKeeps.pad.symm) (hinnerKeeps.debug.trans debug)
    (openTry_body_confined hx hpad le_rfl)
  obtain ⟨hclosed, -⟩ := closedBody_confined hx
    (hpad.trans_eq (hinnerKeeps.trans hrun.keeps).pad.symm) hbody
  exact frameAround_surrounds_closed hx (hrun.builds (openTry_made c).2) hclosed.group

end Context

theorem Outline.spares_of_westOf {frame : Outline ℚ} {s : Shape ℚ} {step : ℚ} (hstep : 0 ≤ step)
    (h : (Shape.frame frame).WestOf step s) : frame.Spares s := by
  intro p hp
  have hwest := h _ List.mem_cons_self p hp
  rw [Placed.extent, Bounds.offset_zero] at hwest
  rw [Set.disjoint_left]
  rintro ⟨x, y⟩ ⟨hx, -⟩ ⟨hx', -⟩
  have hleft : p.extent.minX ≤ x := hx.1
  have hright : x < (Shape.frame frame).extent.maxX := hx'.2
  linarith

/-- Every source that the parser accepts has a layout without debug markers in which the frame of each
try stands around all boxes, tests, captions and connectors inside its body, and no part of a handler
lies in its interior. -/
theorem layout_frames_bodies (config : Config ℚ) (measure : Measure ℚ)
    (hspace : (⟨config, measure⟩ : Context ℚ).Padded) (debug : config.debug = false)
    (source : String) (program : Node) (h : config.lexis.parse source = .ok program) :
    ∃ l, Layout.ofProgram config measure program = .ok l ∧
      Laid config .inFrames .outermost (.block (Block.ofProgram program)) l.root.groups := by
  obtain ⟨l, hl⟩ := Context.ofProgram_ok config measure (Rules.isProgram_of_parse h)
  refine ⟨l, hl, ?_⟩
  obtain ⟨c, hc, rfl⟩ := Layout.ofProgram_eq_ok_iff.mp hl
  have hpad : 0 ≤ config.hlineMargin / 2.0 := div_nonneg hspace.margin (by norm_num)
  have hlaid := Context.trunk_laid (x := ⟨config, measure⟩) hspace.measure Outline.Surrounds
    (fun hsame hdebug hopen hrun => Context.frameAround_surrounds hspace (hpad.trans_eq hsame.symm)
      (hdebug.trans debug) hopen hrun) hc
  refine Laid.imp ?_ ?_ ?_ hlaid
  · exact fun _ _ _ _ => trivial
  · exact fun _ _ => trivial
  · intro frame body handlers hframed
    refine ⟨hframed.2, fun handler hhandler => ?_⟩
    exact Outline.spares_of_westOf hspace.stepX ((List.pairwise_cons.mp hframed.1).1 handler hhandler)

/-- The frame stands around the test "full" and its arms, and not around what is done when it is "dry" or
"broken". -/
theorem layout_frames_bodies_guarded :
    (⟨Config.classic, fun _ _ => ⟨30, 10⟩⟩ : Context ℚ).Padded ∧
    (Config.classic : Config ℚ).debug = false ∧
    (Config.classic : Config ℚ).lexis.parse Sample.guardedSource = .ok Sample.guardedProgram ∧
    ∃ l, Layout.ofProgram Config.classic (fun _ _ => ⟨30, 10⟩ : Measure ℚ) Sample.guardedProgram =
        .ok l ∧
      Laid Config.classic .inFrames .outermost
        (.block [.tryBlock [.decision "full" [.text "use"] [.text "fill"]]
          [("dry", [.text "wait"]), ("broken", [.text "stop"])]]) l.root.groups := by
  have hspace : (⟨Config.classic, fun _ _ => ⟨30, 10⟩⟩ : Context ℚ).Padded :=
    Context.padded_classic fun _ _ => by norm_num
  have h := layout_frames_bodies Config.classic (fun _ _ => ⟨30, 10⟩) hspace rfl
    Sample.guardedSource Sample.guardedProgram Sample.parse_guarded
  rw [Sample.statements_guarded] at h
  exact ⟨hspace, rfl, Sample.parse_guarded, h⟩

end Flowchart
