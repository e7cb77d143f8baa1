import Flowchart.Proofs.Chart.Flow
import Flowchart.Proofs.Chart.Recounted
import Flowchart.Proofs.Chart.Widened
/-! Jumps that can be routed. The point where a jump leaves lies between the floor of the lanes and the
lowest y in use, and the drawing spans over it and over the trunk. That is kept while the point is
pending, so points that are routed together converge wherever they are taken. -/
namespace Flowchart
open Strand

/-- A connector that points were routed along converges. -/
def Stroke.Joins (step : ℚ) : Stroke ℚ → Prop
  | .trunk .. => True
  | .route _ points lane target drawing => Converges step points lane target drawing

namespace Strand
variable {step lane target dx : ℚ} {points : List (ℚ × ℚ)} {j : Jump} {p : ℚ × ℚ}
  {c d e arm : Strand ℚ}

theorem converges_east (hstep : 0 ≤ step) (hmade : c.group.Made) (hzero : 0 ∈ c.group.hull)
    (hlane : c.group.extent.maxX + step ≤ lane) (hsome : points ≠ [])
    (hspan : ∀ p ∈ points, p.1 ∈ c.group.hull) (hlevel : ∀ p ∈ points, p.2 ≤ target) :
    Converges step points lane target c.group where
  some := hsome
  level := .inl hlevel
  outside := by
    refine .inl ⟨?_, fun p hp => ?_, fun leaf hleaf => ?_⟩
    · linarith [hzero.2.2]
    · linarith [(hspan p hp).2.2]
    · exact (add_le_add_left (hmade.encloses.leaf_inside hleaf).maxX step).trans hlane

theorem converges_west (hstep : 0 ≤ step) (hmade : c.group.Made) (hzero : 0 ∈ c.group.hull)
    (hsome : points ≠ []) (hspan : ∀ p ∈ points, p.1 ∈ c.group.hull)
    (hlevel : ∀ p ∈ points, target ≤ p.2) :
    Converges step points (c.westLane step) target c.group where
  some := hsome
  level := .inr hlevel
  outside := by
    refine .inr ⟨?_, fun p hp => ?_, fun leaf hleaf => ?_⟩
    · exact (sub_le_self _ hstep).trans hzero.2.1
    · exact (sub_le_self _ hstep).trans (hspan p hp).2.1
    · rw [westLane, sub_add_cancel]
      exact (hmade.encloses.leaf_inside hleaf).minX

theorem trunkTo_maxX (hc : c.group.x = 0) (hzero : 0 ∈ c.group.hull) (y : ℚ) (arrow : Bool) :
    (c.trunkTo y arrow).group.extent.maxX = c.group.extent.maxX := by
  unfold trunkTo
  split
  · next tip _ =>
      have hpath : (Shape.path (if arrow then (Path.down 0 tip (y - tip)).withArrow
          else Path.down 0 tip (y - tip))).extent.maxX = 0 := by
        have hbounds : (Path.down 0 tip (y - tip)).bounds.maxX = 0 := by
          unfold Path.down Path.vertical Path.push
          split
          · rfl
          · exact max_self 0
        have hx : (Path.down 0 tip (y - tip)).x = 0 := Path.push_x _ _
        cases arrow <;> exact (congrArg₂ (· + ·) hbounds hx).trans (add_zero 0)
      change (c.group.push _).extent.maxX = _
      rw [(Group.extent_push hc _ hzero.1).2, hpath]
      exact max_eq_left hzero.2.2
  · rfl

structure Enlarges (c d : Strand ℚ) : Prop where
  widens : c.Widens d
  builds : c.Builds d
  renders : c.Renders [] d

theorem Enlarges.refl (c : Strand ℚ) : c.Enlarges c := ⟨.refl c, .refl c, .refl c⟩

theorem Enlarges.trans (h : c.Enlarges d) (k : d.Enlarges e) : c.Enlarges e :=
  ⟨h.widens.trans k.widens, h.builds.trans k.builds, h.renders.trans k.renders⟩

theorem Enlarges.revise (h : c.Enlarges d) {reach : ℚ} {tip : Option ℚ} {lanes : Lanes ℚ} {alive : Bool}
    (hreach : d.reach ≤ reach) (hlanes : lanes.west.floor = d.lanes.west.floor) :
    c.Enlarges ⟨d.group, reach, tip, lanes, d.breakTarget, d.continueTarget, d.breaks, d.continues,
      alive, d.pad, d.debug, d.journal⟩ :=
  ⟨h.widens.revise hreach hlanes, h.builds.revise, h.renders.revise⟩

theorem foldl_enlarges {β : Type} (f : Strand ℚ → β → Strand ℚ) (hf : ∀ c b, Enlarges c (f c b))
    (l : List β) (c : Strand ℚ) : c.Enlarges (l.foldl f c) :=
  ⟨foldl_widens f (fun c b => (hf c b).widens) l c, foldl_builds f (fun c b => (hf c b).builds) l c,
    foldl_quiet f (fun c b => (hf c b).renders) l c⟩

theorem draw_enlarges (c : Strand ℚ) {s : Shape ℚ} (hs : s.IsLeaf) (hshown : s.isPlaceholder = false) :
    c.Enlarges (c.draw s) := ⟨c.draw_widens hshown, c.draw_builds hs, c.draw_quiet s⟩

theorem drawPath_enlarges (c : Strand ℚ) (p : Path ℚ) : c.Enlarges (c.draw (.path p)) :=
  c.draw_enlarges (fun _ _ => rfl) rfl

theorem drawGroup_enlarges (c : Strand ℚ) {g : Group ℚ} (hg : g.Made) (dx dy : ℚ) :
    c.Enlarges (c.draw (g.shift dx dy).toShape) :=
  ⟨c.draw_widens rfl, c.drawGroup_builds hg dx dy, c.draw_quiet _⟩

theorem dropDeadTip_enlarges (c : Strand ℚ) : c.Enlarges c.dropDeadTip :=
  ⟨c.dropDeadTip_widens, c.dropDeadTip_builds, c.dropDeadTip_quiet⟩

theorem trunkTo_enlarges (c : Strand ℚ) (y : ℚ) (arrow : Bool) : c.Enlarges (c.trunkTo y arrow) :=
  ⟨c.trunkTo_widens y arrow, c.trunkTo_builds y arrow, c.trunkTo_quiet y arrow⟩

theorem takeBand_enlarges (c : Strand ℚ) (start size : ℚ) : c.Enlarges (c.takeBand start size).2 :=
  ⟨c.takeBand_widens start size, c.takeBand_builds start size, c.takeBand_quiet start size⟩

theorem takeLine_enlarges (c : Strand ℚ) (start : ℚ) : c.Enlarges (c.takeLine start).2 :=
  c.takeBand_enlarges start _

theorem takeExit_enlarges {start size pos : ℚ} {east : Bool}
    (h : c.takeExit start size east = .ok (pos, d)) : c.Enlarges d :=
  ⟨(takeExit_widens h).1, takeExit_builds h, takeExit_quiet h⟩

theorem labelExit_enlarges (c : Strand ℚ) (text : String) (size : Size ℚ) (d : Direction)
    (box : DecisionBox ℚ) : c.Enlarges (c.labelExit text size d box) :=
  ⟨c.labelExit_widens text size d box, c.labelExit_builds text size d box,
    c.labelExit_quiet text size d box⟩

theorem drawDecision_enlarges (c : Strand ℚ) {diamond : Group ℚ} (h : diamond.Made) (top : ℚ) :
    c.Enlarges (c.drawDecision diamond top).2 :=
  (c.trunkTo_enlarges top true).trans (drawGroup_enlarges _ h _ _)

def Bound (c : Strand ℚ) (j : Jump) : Prop := ∃ d, c.headingOf j = .ok d

/-- A point at which a jump waits to be routed. -/
structure Holds (c : Strand ℚ) (j : Jump) (p : ℚ × ℚ) : Prop where
  bound : c.Bound j
  span : p.1 ∈ c.group.hull
  trunk : 0 ∈ c.group.hull
  floor : ∀ f ∈ c.lanes.west.floor, f ≤ p.2
  reach : p.2 ≤ c.reach

theorem Bound.of_keeps (h : c.Bound j) (k : c.Keeps d) : d.Bound j := by
  obtain ⟨e, he⟩ := h
  exact ⟨e, (k.headingOf j).trans he⟩

theorem Bound.of_kept (h : d.Bound j) (k : c.Keeps d) : c.Bound j := by
  obtain ⟨e, he⟩ := h
  exact ⟨e, (k.headingOf j).symm.trans he⟩

theorem bound_of_soleJump {block : Block} {e : Direction} (h : c.soleJump block = .ok (some (j, e))) :
    c.Bound j := by
  unfold soleJump aim at h
  split at h
  · obtain ⟨d, hd, h⟩ := exists_of_bind_eq_ok h
    cases h
    exact ⟨_, hd⟩
  · cases h

theorem Holds.widen (h : c.Holds j p) (hc : c.group.x = 0) (k : c.Widens d) : d.Holds j p where
  bound := h.bound.of_keeps k.keeps
  span := k.hull hc h.span
  trunk := k.hull hc h.trunk
  floor f hf := h.floor f (k.floor ▸ hf)
  reach := h.reach.trans k.reach

theorem absorb_hull (hc : c.group.x = 0) {x : ℚ} (hx : x ∈ arm.group.hull) (dx : ℚ) :
    x + dx ∈ (c.absorb arm dx).group.hull := by
  obtain ⟨-, hmin, hmax⟩ := hx
  have hmerged := (Group.hull_push hc (s := (arm.group.shift dx 0).toShape) rfl).2
  have hmem : x + dx ∈ (c.group.push (arm.group.shift dx 0).toShape).hull := by
    refine hmerged ⟨?_, ?_⟩
    · change arm.group.bounds.minX + (arm.group.x + dx) ≤ x + dx
      rw [← add_assoc]
      exact add_le_add_left hmin dx
    · change x + dx ≤ arm.group.bounds.maxX + (arm.group.x + dx)
      rw [← add_assoc]
      exact add_le_add_left hmax dx
  unfold absorb
  dsimp only
  split
  · exact (Group.hull_push ((push_left _ _).trans hc) rfl).1 hmem
  · exact hmem

theorem Holds.absorb (h : arm.Holds j p) (hc : c.group.x = 0) (hbound : arm.Bound j → c.Bound j)
    (hlanes : c.lanes.west.floor = arm.lanes.west.floor) (hreach : arm.reach ≤ c.reach)
    (hzero : dx = 0 ∨ 0 ∈ c.group.hull) : (c.absorb arm dx).Holds j (p.1 + dx, p.2) where
  bound := (hbound h.bound).of_keeps (c.absorb_redraws arm dx).keeps
  span := absorb_hull hc h.span dx
  trunk := by
    rcases hzero with rfl | hzero
    · have hmoved := absorb_hull (c := c) hc h.trunk 0
      rwa [add_zero] at hmoved
    · exact (c.absorb_widens arm dx).hull hc hzero
  floor f hf := by
    rw [absorb_lanes, hlanes] at hf
    exact h.floor f hf
  reach := (h.reach.trans hreach).trans_eq (c.absorb_redraws arm dx).reach.symm

/-- A strand at its trunk, all whose pending jumps can be routed, and whose routes converge. -/
structure Moored (step : ℚ) (c : Strand ℚ) : Prop where
  left : c.group.x = 0
  made : c.group.Made
  breaks : ∀ p ∈ c.breaks, c.Holds .leave p
  continues : ∀ p ∈ c.continues, c.Holds .resume p
  routes : ∀ s ∈ c.routes, s.Joins step

theorem moored_blank (hgroup : c.group = .empty) (hbreaks : c.breaks = [])
    (hcontinues : c.continues = []) (hjournal : c.journal = []) : c.Moored step where
  left := congrArg Group.x hgroup
  made := hgroup ▸ .empty
  breaks := by simp [hbreaks]
  continues := by simp [hcontinues]
  routes := by simp [routes, hjournal]

theorem Moored.enlarge (h : c.Moored step) (k : c.Enlarges d) : d.Moored step where
  left := k.widens.left.trans h.left
  made := k.builds h.made
  breaks p hp := (h.breaks p (k.renders.breaks ▸ hp)).widen h.left k.widens
  continues p hp := (h.continues p (k.renders.continues ▸ hp)).widen h.left k.widens
  routes s hs := h.routes s (k.renders.routes ▸ hs)

theorem Moored.take (h : c.Moored step) {breaks continues : List (ℚ × ℚ)}
    (hbreaks : breaks ⊆ c.breaks) (hcontinues : continues ⊆ c.continues) :
    Moored step { c with breaks, continues } where
  left := h.left
  made := h.made
  breaks p hp :=
    have hold := h.breaks p (hbreaks hp)
    ⟨hold.bound, hold.span, hold.trunk, hold.floor, hold.reach⟩
  continues p hp :=
    have hold := h.continues p (hcontinues hp)
    ⟨hold.bound, hold.span, hold.trunk, hold.floor, hold.reach⟩
  routes := h.routes

theorem Moored.note (h : c.Moored step) (hp : c.Holds j p) : (c.noteJump j p).Moored step := by
  have hwidens := c.noteJump_widens j p
  have hfields : (c.noteJump j p).routes = c.routes ∧
      (∀ q ∈ (c.noteJump j p).breaks, q ∈ c.breaks ∨ (j = .leave ∧ q = p)) ∧
      ∀ q ∈ (c.noteJump j p).continues, q ∈ c.continues ∨ (j = .resume ∧ q = p) := by
    unfold noteJump
    cases j <;> dsimp only <;> split <;> refine ⟨rfl, fun q hq => ?_, fun q hq => ?_⟩ <;>
      simpa [draw] using hq
  obtain ⟨hroutes, hbreaks, hcontinues⟩ := hfields
  refine ⟨hwidens.left.trans h.left, c.noteJump_builds j p h.made, fun q hq => ?_, fun q hq => ?_,
    fun s hs => h.routes s (hroutes ▸ hs)⟩
  · rcases hbreaks q hq with hq | ⟨rfl, rfl⟩
    · exact (h.breaks q hq).widen h.left hwidens
    · exact hp.widen h.left hwidens
  · rcases hcontinues q hq with hq | ⟨rfl, rfl⟩
    · exact (h.continues q hq).widen h.left hwidens
    · exact hp.widen h.left hwidens

theorem Moored.route (h : c.Moored step) (role : RouteRole)
    (hpoints : Converges step points lane target c.group) :
    (c.route role points lane target).Moored step := by
  have hquiet := c.route_quiet role points lane target
  have hwidens := c.route_widens role points lane target
  refine ⟨hwidens.left.trans h.left, c.route_builds role points lane target h.made,
    fun q hq => (h.breaks q (hquiet.breaks ▸ hq)).widen h.left hwidens,
    fun q hq => (h.continues q (hquiet.continues ▸ hq)).widen h.left hwidens, fun s hs => ?_⟩
  rw [hquiet.routes] at hs
  unfold Strand.routes at hs
  rw [List.filter_append] at hs
  rcases List.mem_append.mp hs with hs | hs
  · exact h.routes s hs
  · rw [List.mem_singleton.mp (List.mem_filter.mp hs).1]
    exact hpoints

/-- Below everything that waits on a strand, the trunk goes down to a line, and points are led to it in
a lane east of the drawing. -/
theorem Moored.routeOut (h : c.Moored step) (hstep : 0 ≤ step) (hd : c.Enlarges d)
    (hgroup : d.group = c.group) (hsome : points ≠ []) (hpoints : ∀ p ∈ points, c.Holds j p) {y : ℚ}
    (hy : c.reach ≤ y) (role : RouteRole) :
    ((d.trunkTo y false).route role points (c.eastLane step) y).Moored step := by
  obtain ⟨q, hq⟩ := List.exists_mem_of_ne_nil _ hsome
  have hgrows := hd.trans (d.trunkTo_enlarges y false)
  have hmoored := h.enlarge hgrows
  have hzero := (hpoints q hq).trunk
  have hmax := d.trunkTo_maxX (hd.widens.left.trans h.left) (hgroup ▸ hzero) y false
  refine hmoored.route role (converges_east hstep hmoored.made (hgrows.widens.hull h.left hzero) ?_
    hsome (fun p hp => hgrows.widens.hull h.left (hpoints p hp).span)
    fun p hp => (hpoints p hp).reach.trans hy)
  rw [hmax, hgroup]
  exact le_rfl

/-- What is set of a strand before it absorbs a branch may as well be set afterwards. -/
theorem absorb_revise (c arm : Strand ℚ) (dx reach : ℚ) (tip : Option ℚ) (lanes : Lanes ℚ)
    (alive : Bool) : { c.absorb arm dx with reach, tip, lanes, alive } =
      Strand.absorb { c with reach, tip, lanes, alive } arm dx := by
  unfold absorb
  dsimp only
  split <;> rfl

theorem Moored.absorb (h : c.Moored step) (k : arm.Moored step)
    (hbreaks : ∀ p ∈ arm.breaks, (c.absorb arm dx).Holds .leave (p.1 + dx, p.2))
    (hcontinues : ∀ p ∈ arm.continues, (c.absorb arm dx).Holds .resume (p.1 + dx, p.2)) :
    (c.absorb arm dx).Moored step := by
  have hwidens := c.absorb_widens arm dx
  have hfields : (c.absorb arm dx).breaks = c.breaks ++ arm.breaks.map (fun p => (p.1 + dx, p.2)) ∧
      (c.absorb arm dx).continues =
        c.continues ++ arm.continues.map (fun p => (p.1 + dx, p.2)) ∧
      (c.absorb arm dx).journal = c.journal ++ arm.journal := by
    unfold Strand.absorb
    dsimp only
    split <;> exact ⟨rfl, rfl, rfl⟩
  refine ⟨hwidens.left.trans h.left, c.absorb_builds k.made dx h.made, fun q hq => ?_,
    fun q hq => ?_, fun s hs => ?_⟩
  · rw [hfields.1] at hq
    rcases List.mem_append.mp hq with hq | hq
    · exact (h.breaks q hq).widen h.left hwidens
    · obtain ⟨p, hp, rfl⟩ := List.mem_map.mp hq
      exact hbreaks p hp
  · rw [hfields.2.1] at hq
    rcases List.mem_append.mp hq with hq | hq
    · exact (h.continues q hq).widen h.left hwidens
    · obtain ⟨p, hp, rfl⟩ := List.mem_map.mp hq
      exact hcontinues p hp
  · unfold Strand.routes at hs
    rw [hfields.2.2, List.filter_append] at hs
    exact (List.mem_append.mp hs).elim (h.routes s) (k.routes s)

theorem Moored.absorbSettled (h : c.Moored step) (k : arm.Moored step) (hbreaks : arm.breaks = [])
    (hcontinues : arm.continues = []) : (c.absorb arm dx).Moored step :=
  h.absorb k (by simp [hbreaks]) (by simp [hcontinues])

theorem Moored.merge (h : c.Moored step) (hd : c.Enlarges d) (k : arm.Moored step)
    (hleave : arm.breaks ≠ [] → arm.Bound .leave → c.Bound .leave)
    (hresume : arm.Bound .resume → c.Bound .resume)
    (hfloor : arm.lanes.west.floor = c.lanes.west.floor) (hreach : arm.reach ≤ d.reach)
    (hzero : ∀ j, arm.Bound j → dx = 0 ∨ 0 ∈ c.group.hull) : (d.absorb arm dx).Moored step := by
  have hleft := hd.widens.left.trans h.left
  have hlanes := hd.widens.floor.trans hfloor.symm
  refine (h.enlarge hd).absorb k (fun p hp => ?_) (fun p hp => ?_)
  · have hold := k.breaks p hp
    exact hold.absorb hleft (fun hb => (hleave (List.ne_nil_of_mem hp) hb).of_keeps hd.widens.keeps)
      hlanes hreach ((hzero _ hold.bound).imp_right fun hmem => hd.widens.hull h.left hmem)
  · have hold := k.continues p hp
    exact hold.absorb hleft (fun hb => (hresume hb).of_keeps hd.widens.keeps) hlanes hreach
      ((hzero _ hold.bound).imp_right fun hmem => hd.widens.hull h.left hmem)

theorem Moored.mergeKept (h : c.Moored step) (hd : c.Enlarges d) (k : arm.Moored step)
    (hkeeps : c.Keeps arm) (hfloor : arm.lanes.west.floor = c.lanes.west.floor)
    (hreach : arm.reach ≤ d.reach) (hzero : ∀ j, c.Bound j → dx = 0 ∨ 0 ∈ c.group.hull) :
    (d.absorb arm dx).Moored step :=
  h.merge hd k (fun _ hb => hb.of_kept hkeeps) (fun hb => hb.of_kept hkeeps) hfloor hreach
    fun j hb => hzero j (hb.of_kept hkeeps)

end Strand

structure Strand.Bears (c : Strand ℚ) (top : ℚ) (box : DecisionBox ℚ) : Prop where
  width : 0 ≤ box.width
  span : Set.Icc (-box.width / 2.0) (box.width / 2.0) ⊆ c.group.hull
  top : top ≤ box.middle
  reach : box.middle ≤ c.reach

namespace Strand.Bears
variable {c d : Strand ℚ} {top : ℚ} {box : DecisionBox ℚ}

theorem widen (h : c.Bears top box) (hc : c.group.x = 0) (k : c.Widens d) : d.Bears top box :=
  ⟨h.width, h.span.trans (k.hull hc), h.top, h.reach.trans k.reach⟩

theorem east (h : c.Bears top box) : box.width / 2.0 ∈ c.group.hull := by
  have hw := h.width
  exact h.span (by constructor <;> linarith)

theorem west (h : c.Bears top box) : -box.width / 2.0 ∈ c.group.hull := by
  have hw := h.width
  exact h.span (by constructor <;> linarith)

theorem trunk (h : c.Bears top box) : 0 ∈ c.group.hull := by
  have hw := h.width
  exact h.span (by constructor <;> linarith)

end Strand.Bears

namespace Context
variable {x : Context ℚ} {c : Strand ℚ}

theorem drawDecision_bears (hmeasure : ∀ text attrs,
    0 ≤ (x.measure text attrs).width ∧ 0 ≤ (x.measure text attrs).height) (hc : c.group.x = 0)
    (test : String) {top : ℚ} (hreach : top + (x.diamond test).bounds.height ≤ c.reach) :
    (c.drawDecision (x.diamond test) top).2.Bears top (c.drawDecision (x.diamond test) top).1 := by
  obtain ⟨w, h, text, hw, hh, hx, hy, -, hbounds⟩ := diamond_bounds hmeasure test
  have hwidth : (x.diamond test).bounds.width = w := by
    rw [hbounds]
    exact sub_zero w
  have hheight : (x.diamond test).bounds.height = h := by
    rw [hbounds]
    exact sub_zero h
  obtain ⟨hminX, hmaxX, -, -⟩ := Group.centred_spec hx hy hbounds hw top
  have hhull := (Group.hull_push ((c.trunkTo_widens top true).left.trans hc)
    (s := ((x.diamond test).shift (-w / 2.0) top).toShape) rfl).2
  rw [hminX, hmaxX] at hhull
  have hkept : (c.drawDecision (x.diamond test) top).2.reach = c.reach :=
    (c.drawDecision_redraws _ _).reach
  rw [hheight] at hreach
  refine ⟨hw.trans_eq hwidth.symm, ?_, ?_, ?_⟩
  · unfold drawDecision
    dsimp only
    rw [hwidth]
    refine (Set.Icc_subset_Icc ?_ ?_).trans hhull
    · norm_num
      linarith
    · norm_num
  · change top ≤ top + (x.diamond test).bounds.height / 2.0
    rw [hheight]
    linarith
  · rw [hkept]
    change top + (x.diamond test).bounds.height / 2.0 ≤ c.reach
    rw [hheight]
    linarith

end Context
end Flowchart
