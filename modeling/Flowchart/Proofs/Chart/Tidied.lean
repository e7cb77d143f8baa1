import Flowchart.Proofs.Chart.Lines
import Flowchart.Proofs.Chart.Stacked
import Flowchart.Proofs.Shape.Touched
/-! The bounds of a strand are touched west, east and south by what it shows. An empty branch leaves a
placeholder at the origin of its trunk, at y = 0: it is merged into a drawing that reaches that far
to all three sides already, or that is made to by a line which leads there. -/
namespace Flowchart

theorem Shape.tight_path {p : Path ℚ} (h : p.Snug) : (Shape.path p).Tight := by
  refine IsLeaf.tight (fun _ _ => rfl) rfl ?_
  obtain ⟨hmin, hmax⟩ := Path.start_mem h
  exact sub_nonneg.mpr (hmin.trans hmax)

theorem Outline.width_ofSize (o : Outline ℚ) :
    ((Bounds.ofSize o.width o.height).offset o.x o.y).width = o.width := by
  change (o.width + o.x) - (0 + o.x) = o.width
  ring

theorem Shape.tight_rect (o : Outline ℚ) (h : 0 ≤ o.width) : (Shape.rect o).Tight :=
  IsLeaf.tight (fun _ _ => rfl) rfl (h.trans_eq o.width_ofSize.symm)

theorem Shape.tight_diamond (o : Outline ℚ) (h : 0 ≤ o.width) : (Shape.diamond o).Tight :=
  IsLeaf.tight (fun _ _ => rfl) rfl (h.trans_eq o.width_ofSize.symm)

theorem Shape.tight_frame (o : Outline ℚ) (h : 0 ≤ o.width) : (Shape.frame o).Tight :=
  IsLeaf.tight (fun _ _ => rfl) rfl (h.trans_eq o.width_ofSize.symm)

theorem Shape.tight_point (p : Point ℚ) (h : p.isPlaceholder = false) : (Shape.point p).Tight := by
  refine IsLeaf.tight (fun _ _ => rfl) h ?_
  change 0 ≤ (0 + p.x) - (0 + p.x)
  rw [sub_self]

theorem Path.stop_mem {p : Path ℚ} (h : p.Snug) :
    p.stop.1 ∈ Set.Icc (Shape.path p).extent.minX (Shape.path p).extent.maxX := by
  have hmin := (le_min_iff.mp h.minX).2
  have hmax := (max_le_iff.mp h.maxX).2
  change p.bounds.minX + p.x ≤ p.x + p.tip.1 ∧ p.x + p.tip.1 ≤ p.bounds.maxX + p.x
  constructor <;> linarith

theorem Sheet.Grows.reach {s t : Sheet} (h : s.Grows t) : s.reach ≤ t.reach := by
  obtain ⟨bs, hbs⟩ := h
  exact hbs.reach

namespace Strand
variable {c d e : Strand ℚ}

/-- The drawing of the second strand is tidy if that of the first one is, and settled if that is. -/
structure Tidies (c d : Strand ℚ) : Prop where
  tidy : c.group.Tidy → d.group.Tidy
  settled : c.group.Settled → d.group.Settled

theorem Tidies.refl (c : Strand ℚ) : c.Tidies c := ⟨id, id⟩

theorem Tidies.trans (h : c.Tidies d) (k : d.Tidies e) : c.Tidies e :=
  ⟨k.tidy ∘ h.tidy, k.settled ∘ h.settled⟩

theorem Tidies.revise (h : c.Tidies d) {reach : ℚ} {tip : Option ℚ} {lanes : Lanes ℚ}
    {breakTarget continueTarget : Option JumpTarget} {breaks continues : List (ℚ × ℚ)}
    {alive : Bool} {pad : ℚ} {debug : Bool} {journal : List (Stroke ℚ)} :
    c.Tidies ⟨d.group, reach, tip, lanes, breakTarget, continueTarget, breaks, continues, alive, pad,
      debug, journal⟩ := ⟨h.tidy, h.settled⟩

theorem Tidies.of_settles (h : c.group.Tidy → d.group.Settled) : c.Tidies d :=
  ⟨fun hc => (h hc).tidy, fun hc => h hc.tidy⟩

theorem foldl_tidies {β : Type} (f : Strand ℚ → β → Strand ℚ) (hf : ∀ c b, Tidies c (f c b))
    (l : List β) (c : Strand ℚ) : c.Tidies (l.foldl f c) := by
  induction l generalizing c with
  | nil => exact .refl c
  | cons b rest ih => exact (hf c b).trans (ih (f c b))

theorem draw_tidies (c : Strand ℚ) {s : Shape ℚ} (hs : s.Tight) : c.Tidies (c.draw s) :=
  ⟨fun hc => (hc.push hs).tidy, fun hc => hc.push hs⟩

theorem drawPath_tidies (c : Strand ℚ) {p : Path ℚ} (hp : p.Snug) : c.Tidies (c.draw (.path p)) :=
  c.draw_tidies (Shape.tight_path hp)

theorem drawLabel_tidies (c : Strand ℚ) (text : String) {size : Size ℚ} (h : 0 ≤ size.width)
    (x y : ℚ) : c.Tidies (c.drawLabel text size x y) :=
  c.draw_tidies (Shape.tight_text _ h)

theorem dropDeadTip_tidies (c : Strand ℚ) : c.Tidies c.dropDeadTip := by
  unfold dropDeadTip
  split
  · exact .refl c
  · exact (Tidies.refl c).revise

theorem trunkTo_tidies (c : Strand ℚ) (y : ℚ) (arrow : Bool) : c.Tidies (c.trunkTo y arrow) := by
  unfold trunkTo
  split
  · next tip _ =>
      have hline := Path.down_snug 0 tip (y - tip)
      cases arrow with
      | true => exact (c.drawPath_tidies hline.withArrow).revise
      | false => exact (c.drawPath_tidies hline).revise
  · exact (Tidies.refl c).revise

theorem noteJump_tidies (c : Strand ℚ) (j : Jump) (p : ℚ × ℚ) : c.Tidies (c.noteJump j p) := by
  unfold noteJump
  cases j <;> dsimp only <;> split
  · exact (Tidies.refl c).revise.trans (draw_tidies _ (Shape.tight_point _ rfl))
  · exact (Tidies.refl c).revise
  · exact (Tidies.refl c).revise.trans (draw_tidies _ (Shape.tight_point _ rfl))
  · exact (Tidies.refl c).revise

theorem takeLine_tidies (c : Strand ℚ) (start : ℚ) : c.Tidies (c.takeLine start).2 :=
  (Tidies.refl c).revise

theorem takeExit_tidies {start size y : ℚ} {east : Bool}
    (h : c.takeExit start size east = .ok (y, d)) : c.Tidies d := by
  unfold takeExit at h
  split at h
  · cases h
    exact (Tidies.refl c).revise
  · cases h

theorem labelExit_tidies (c : Strand ℚ) (text : String) {size : Size ℚ} (h : 0 ≤ size.width)
    (d : Direction) (box : DecisionBox ℚ) : c.Tidies (c.labelExit text size d box) := by
  unfold labelExit
  split
  · exact .refl c
  · cases d <;> exact drawLabel_tidies _ _ h _ _

theorem route_tidies (c : Strand ℚ) (role : RouteRole) (points : List (ℚ × ℚ)) (lane target : ℚ) :
    c.Tidies (c.route role points lane target) := by
  unfold route
  dsimp only
  split
  · exact (Tidies.refl c).revise
  · next x y rest _ =>
      have hwhole := (Path.detour_spec x y lane target).1.withArrow
      exact ((Tidies.refl c).revise.trans (drawPath_tidies _ hwhole)).trans
        (foldl_tidies _ (fun c _ => c.drawPath_tidies (Path.across_snug _ _ _)) _ _)

theorem gather_tidies (c : Strand ℚ) (role : RouteRole) (points : List (ℚ × ℚ)) (lane y : ℚ) :
    c.Tidies ((c.dropDeadTip.trunkTo y false).route role points lane y) :=
  ((dropDeadTip_tidies c).trans (trunkTo_tidies _ _ _)).trans (route_tidies _ _ _ _ _)

theorem draw_absorb_tidies (c : Strand ℚ) {child : Strand ℚ} (hchild : child.group.Tight) (dx : ℚ) :
    (c.draw (child.group.shift dx 0).toShape).Tidies (c.absorb child dx) := by
  unfold absorb
  dsimp only
  split
  · exact (Tidies.refl _).revise.trans
      (draw_tidies _ (Shape.tight_frame _ (hchild.shift dx 0).wide))
  · exact (Tidies.refl _).revise

theorem absorb_tidies (c : Strand ℚ) {child : Strand ℚ} (hchild : child.group.Tight) (dx : ℚ) :
    c.Tidies (c.absorb child dx) :=
  (c.draw_tidies (hchild.shift dx 0)).trans (c.draw_absorb_tidies hchild dx)

theorem absorb_of_empty (c : Strand ℚ) {child : Strand ℚ} (h : child.group = .empty) (dx : ℚ) :
    (c.absorb child dx).group = c.group.push (Group.empty.shift dx 0).toShape := by
  unfold absorb
  rw [h]
  exact congrArg Strand.group (if_neg (by simp [Group.isEmpty, Group.empty, Group.placeholder,
    Shape.isPlaceholder]))

theorem extent_placeholder (dx : ℚ) :
    (Group.empty.shift dx 0).toShape.extent = (⟨dx, 0, dx, 0⟩ : Bounds ℚ) := by
  change (⟨0 + (0 + dx), 0 + (0 + 0), 0 + (0 + dx), 0 + (0 + 0)⟩ : Bounds ℚ) = _
  simp only [zero_add]

theorem absorb_settled (hc : c.group.Settled) {child : Strand ℚ} (hchild : child.group.Tidy) {dx : ℚ}
    (hdx : child.group = .empty →
      -dx ≤ c.group.bounds.edge .west ∧ dx ≤ c.group.bounds.edge .east) :
    (c.absorb child dx).group.Settled := by
  rcases hchild with hempty | hchild
  · obtain ⟨hwest, heast⟩ := hdx hempty
    rw [c.absorb_of_empty hempty]
    refine hc.push_within fun side hside => ?_
    rw [extent_placeholder]
    cases side with
    | north => exact absurd rfl hside
    | west => exact hwest
    | east => exact heast
    | south => exact hc.around .south hside
  · exact (c.absorb_tidies hchild dx).settled hc

theorem absorb_here_settled (hc : c.group.Settled) {child : Strand ℚ} (hchild : child.group.Tidy) :
    (c.absorb child 0).group.Settled :=
  absorb_settled hc hchild fun _ => ⟨neg_zero.trans_le (hc.around .west nofun), hc.around .east nofun⟩

theorem absorb_east_settled (hc : c.group.Ajar) {child : Strand ℚ} (hchild : child.group.Tight)
    {dx : ℚ} (heast : c.group.Touched (·.isPlaceholder = false) .east ∨
      c.group.bounds.edge .east ≤ (child.group.shift dx 0).extent.edge .east) :
    (c.absorb child dx).group.Settled :=
  (c.draw_absorb_tidies hchild dx).settled (hc.push_east (hchild.shift dx 0) heast)

end Strand

namespace Context
open Strand
variable {x : Context ℚ} {c d arm body holder : Strand ℚ}

theorem Roomy.yesSize (hx : x.Roomy) : 0 ≤ x.yesSize.width := (hx.labelSize _).1

theorem Roomy.noSize (hx : x.Roomy) : 0 ≤ x.noSize.width := (hx.labelSize _).1

theorem diamond_tight (hx : x.Roomy) (test : String) : (x.diamond test).Tight := by
  obtain ⟨hw, hh⟩ := hx.measure test x.config.text.attrs
  have hratio : 0 < max x.config.diamond.aspectRatio Group.leastRatio :=
    lt_max_of_lt_right leastRatio_pos
  have hwide := add_nonneg hw (div_nonneg hh hratio.le)
  exact Group.around_tight (Shape.tight_diamond ⟨0, 0, _, _⟩ hwide) test hw _

theorem box_tight (hx : x.Roomy) (content : String) :
    (Group.boxAround content (x.captionSize content).width (x.captionSize content).height
      x.config.rect.padX x.config.rect.padY).Tight := by
  obtain ⟨hw, -⟩ := hx.measure content x.config.text.attrs
  have hwide := add_nonneg hw (mul_nonneg (by norm_num : (0 : ℚ) ≤ 2.0) hx.rectX)
  exact Group.around_tight (Shape.tight_rect ⟨0, 0, _, _⟩ hwide) content hw _

theorem drawDecision_settled (hx : x.Roomy) (hc : c.group.Tidy) (test : String) {top : ℚ}
    (htop : 0 ≤ top) : (c.drawDecision (x.diamond test) top).2.group.Settled := by
  obtain ⟨w, h, -, hw, hh, hx0, hy0, -, hbounds⟩ := diamond_bounds hx.measure test
  have hwidth : (x.diamond test).bounds.width = w := by
    rw [hbounds]
    exact sub_zero w
  obtain ⟨hminX, hmaxX, -, -⟩ := Group.centred_spec hx0 hy0 hbounds hw top
  have hmaxY : ((x.diamond test).shift (-w / 2.0) top).toShape.extent.maxY = h + top := by
    change (x.diamond test).bounds.maxY + ((x.diamond test).y + top) = h + top
    rw [hbounds, hy0, zero_add]
  have htrunk := (c.trunkTo_tidies top true).tidy hc
  unfold drawDecision
  dsimp only
  rw [hwidth]
  refine htrunk.push_around ((diamond_tight hx test).shift _ _) fun side hside => ?_
  cases side with
  | north => exact absurd rfl hside
  | west =>
      change 0 ≤ -((x.diamond test).shift (-w / 2.0) top).toShape.extent.minX
      rw [hminX]
      linarith
  | east =>
      change 0 ≤ ((x.diamond test).shift (-w / 2.0) top).toShape.extent.maxX
      rw [hmaxX]
      linarith
  | south =>
      change 0 ≤ ((x.diamond test).shift (-w / 2.0) top).toShape.extent.maxY
      rw [hmaxY]
      linarith

theorem drawTest_settled (hx : x.Roomy) (hc : c.group.Tidy) (test : String) {top : ℚ}
    (htop : 0 ≤ top) (yes no : Direction) :
    (((c.drawDecision (x.diamond test) top).2.labelExit x.config.yesText x.yesSize yes
      (c.drawDecision (x.diamond test) top).1).labelExit x.config.noText x.noSize no
        (c.drawDecision (x.diamond test) top).1).group.Settled :=
  ((labelExit_tidies _ _ hx.yesSize _ _).trans (labelExit_tidies _ _ hx.noSize _ _)).settled
    (drawDecision_settled hx hc test htop)

theorem arrangeText_tidies (hx : x.Roomy) (content : String) (c : Strand ℚ) :
    c.Tidies (x.arrangeText content c) := by
  unfold arrangeText
  exact (((Tidies.refl c).revise.trans (trunkTo_tidies _ _ _)).trans
    (draw_tidies _ ((box_tight hx content).shift _ _))).revise

theorem arrangeJump_tidies {j : Jump} (h : x.arrangeJump j c = .ok d) : c.Tidies d := by
  obtain ⟨heading, -, h⟩ := exists_of_bind_eq_ok h
  obtain ⟨⟨pos, taken⟩, htake, h⟩ := exists_of_bind_eq_ok h
  cases h
  exact (((takeExit_tidies htake).trans (trunkTo_tidies _ _ _)).trans (noteJump_tidies _ _ _)).revise

theorem takeDecision_tidies {test : String} {exits : Exit × Exit} {pos : ℚ}
    (h : x.takeDecision test exits c = .ok (pos, d)) : c.Tidies d := by
  unfold takeDecision at h
  dsimp only at h
  split at h
  · cases h
    exact (Tidies.refl c).revise
  · exact takeExit_tidies h

theorem claimEast_tidies (exits : Exit × Exit) (middle : ℚ) (c : Strand ℚ) :
    c.Tidies (claimEast exits middle c) := by
  unfold claimEast
  split
  · exact (Tidies.refl c).revise
  · exact .refl c

theorem openDecision_settles (hx : x.Roomy) (ha : x.Ample) (hpad : 0 ≤ c.pad) (hreach : 0 ≤ c.reach)
    {test : String} {exits : Exit × Exit} {box : DecisionBox ℚ}
    (h : x.openDecision test exits c = .ok (box, d)) :
    0 ≤ d.pad ∧ 0 ≤ d.reach ∧ (c.group.Tidy → d.group.Settled) := by
  refine ⟨hpad.trans_eq (x.openDecision_keeps h).pad.symm,
    hreach.trans (openDecision_grows ha hpad h).reach, fun hc => ?_⟩
  obtain ⟨⟨pos, t⟩, htake, h⟩ := exists_of_bind_eq_ok h
  cases h
  obtain ⟨-, hlow, -⟩ := takeDecision_room ha hpad htake
  rw [← (x.takeDecision_keeps htake).pad] at hlow
  have hplaced := ((takeDecision_tidies htake).trans (claimEast_tidies exits
    (pos + t.pad + (x.diamond test).bounds.height / 2.0) t)).tidy hc
  exact (foldl_tidies _ (fun c _ => noteJump_tidies c _ _) _ _).settled
    (drawTest_settled hx hplaced test (hreach.trans hlow) _ _)

theorem closeBelow_settled (hc : c.group.Settled) (harm : arm.group.Tidy) :
    (closeBelow arm c).group.Settled := absorb_here_settled hc harm

theorem drawAcross_absorb_settled (hc : c.group.Settled) (harm : arm.group.Tidy)
    (half middle dx : ℚ) :
    ((c.draw (.path (Path.across half middle (dx - half)))).absorb arm dx).group.Settled := by
  have hline := Path.across_snug half middle (dx - half)
  have hstop : (Path.across half middle (dx - half)).stop.1 = dx := by
    rw [show (Path.across half middle (dx - half)).stop = _ from
      (Path.horizontal_spec (Path.start_snug half middle) _).2.2, Path.stop_start]
    exact add_sub_cancel half dx
  obtain ⟨hmin, hmax⟩ := Path.stop_mem hline
  rw [hstop] at hmin hmax
  refine absorb_settled ((c.drawPath_tidies hline).settled hc) harm fun _ => ⟨?_, ?_⟩
  · exact (neg_le_neg hmin).trans (c.group.le_edge_push _ .west)
  · exact hmax.trans (c.group.le_edge_push _ .east)

theorem closeBeside_settled (hc : c.group.Settled) (harm : arm.group.Tidy) (box : DecisionBox ℚ)
    (below : Strand ℚ) : (x.closeBeside box below arm c).group.Settled := by
  have hmerged := drawAcross_absorb_settled hc harm (box.width / 2.0) box.middle
    (x.eastShift box (max (box.width / 2.0) below.group.extent.maxX) arm)
  unfold closeBeside
  dsimp only
  split
  · refine (Tidies.trans ?_ (trunkTo_tidies _ _ _)).revise.settled hmerged
    exact ((Tidies.refl _).revise.trans (drawPath_tidies _ (Path.drop_spec _ _ _ _).1.withArrow)).revise
  · exact hmerged

theorem enter_tidies (x : Context ℚ) (c : Strand ℚ) : c.Tidies (x.enter c).2 :=
  (takeLine_tidies c _).trans (trunkTo_tidies _ _ _)

theorem enter_low (x : Context ℚ) (hpad : 0 ≤ c.pad) (hreach : 0 ≤ c.reach) :
    0 ≤ (x.enter c).2.pad ∧ 0 ≤ (x.enter c).2.reach :=
  ⟨hpad.trans_eq (x.enter_keeps c).pad.symm, hreach.trans (enter_stacks x c).reach⟩

theorem openWhile_settled (hx : x.Roomy) (ha : x.Ample) (hpad : 0 ≤ c.pad) (hreach : 0 ≤ c.reach)
    (test : String) : (x.openWhile test c).2.group.Settled := by
  obtain ⟨hlow, -⟩ := takeBand_bounds (c.loopBody .whileLoop) (c.reach + x.halfGap)
    ((x.diamond test).bounds.height + 2.0 * c.pad + x.yesSize.height)
  have htop := add_nonneg ((add_nonneg hreach ha.halfGap).trans hlow) hpad
  exact drawTest_settled hx (c := ((c.loopBody .whileLoop).takeBand (c.reach + x.halfGap)
    ((x.diamond test).bounds.height + 2.0 * c.pad + x.yesSize.height)).2) Group.tidy_empty test htop
      .south .east

theorem gatherBack_tidies {back : List (ℚ × ℚ)} (h : x.gatherBack body = .ok (back, d)) :
    body.Tidies d := by
  unfold gatherBack at h
  dsimp only at h
  split at h
  · obtain ⟨⟨pos, taken⟩, htake, h⟩ := exists_of_bind_eq_ok h
    cases h
    exact (Tidies.refl body).revise.trans ((takeExit_tidies htake).trans (trunkTo_tidies _ _ _))
  · cases h
    exact (Tidies.refl body).revise

theorem routeBack_tidies (back : List (ℚ × ℚ)) (entry : ℚ) (body : Strand ℚ) :
    body.Tidies (x.routeBack back entry body) := by
  unfold routeBack
  split
  · exact .refl body
  · exact body.route_tidies _ _ _ _

theorem closeWhile_tidies (hbody : body.group.Settled) (entry : ℚ) (box : DecisionBox ℚ)
    (back : List (ℚ × ℚ)) (c : Strand ℚ) : c.Tidies (x.closeWhile entry box back body c) := by
  have hrouted := routeBack_tidies (x := x) back entry body
  unfold closeWhile
  dsimp only
  refine ((Tidies.refl c).revise.trans (absorb_tidies _ ?_ 0)).revise
  exact ((hrouted.revise.trans (route_tidies _ _ _ _ _)).settled hbody).tight

theorem gatherOnward_tidies (body : Strand ℚ) : body.Tidies (x.gatherOnward body) := by
  unfold gatherOnward
  dsimp only
  split
  · exact (Tidies.refl body).revise
  · exact ((Tidies.refl body).revise.trans (gather_tidies _ _ _ _ _)).revise

theorem testDo_settled (hx : x.Roomy) (ha : x.Ample) (hpad : 0 ≤ body.pad) (hreach : 0 ≤ body.reach)
    (hbody : body.group.Tidy) (test : String) (entry : ℚ) :
    (x.testDo test entry body).2.group.Settled := by
  obtain ⟨hlow, -⟩ := takeBand_bounds body (body.reach + x.config.stepY)
    ((x.diamond test).bounds.height + 2.0 * body.pad + x.noSize.height)
  have htop := add_nonneg ((add_nonneg hreach ha.stepY).trans hlow) hpad
  have hplaced : (body.takeBand (body.reach + x.config.stepY) ((x.diamond test).bounds.height +
      2.0 * body.pad + x.noSize.height)).2.dropDeadTip.group.Tidy :=
    (dropDeadTip_tidies _).tidy hbody
  exact (route_tidies _ _ _ _ _).settled (drawTest_settled hx hplaced test htop .west .south)

theorem closeDo_tidies (hx : x.Roomy) (ha : x.Ample) (hpad : 0 ≤ body.pad) (hreach : 0 ≤ body.reach)
    (hbody : body.group.Tidy) (test : String) (entry : ℚ) (c : Strand ℚ) :
    c.Tidies (x.closeDo test entry body c) := by
  have hgathered := (gatherOnward_tidies (x := x) body).tidy hbody
  have htested := testDo_settled hx ha (hpad.trans_eq (x.gatherOnward_keeps body).pad.symm)
    (hreach.trans (gatherOnward_stacks x body).reach) hgathered test entry
  unfold closeDo
  dsimp only
  generalize x.testDo test entry (x.gatherOnward body) = tested at htested ⊢
  obtain ⟨box, tested⟩ := tested
  split
  · refine ((Tidies.refl c).revise.trans (absorb_tidies _ ?_ 0)).revise
    exact htested.tight
  · refine ((Tidies.refl c).revise.trans (absorb_tidies _ ?_ 0)).revise
    exact (((Tidies.refl tested).revise.trans ((trunkTo_tidies _ _ _).trans
      (route_tidies _ _ _ _ _))).settled htested).tight

end Context
end Flowchart
