import Flowchart.Proofs.Chart.Arrows
import Flowchart.Proofs.Chart.Framing
/-! How many arrows lead into each node. What follows on a trunk brings its nodes strictly below what
was drawn, and a branch is moved strictly clear of the arrows beside it, so no arrow of one piece ends
where a node of another one is entered. -/
namespace Flowchart
open Set (Icc Ioo)

structure Context.Generous (x : Context ℚ) : Prop where
  measure : ∀ text attrs, 0 < (x.measure text attrs).width ∧ 0 < (x.measure text attrs).height
  margin : 0 < x.config.hlineMargin
  stepX : 0 ≤ x.config.stepX
  stepY : 0 ≤ x.config.stepY
  rectX : 0 ≤ x.config.rect.padX
  rectY : 0 ≤ x.config.rect.padY
  frameY : 0 ≤ x.config.frame.padY

/-- Each point is the end of one arrow or of none, as the flags say. -/
def Tally (ends tops : List (ℚ × ℚ)) (flags : List Bool) : Prop :=
  List.Forall₂ (fun top entered => ends.count top = entered.toNat) tops flags

namespace Tally
variable {ends ends' tops tops' : List (ℚ × ℚ)} {flags flags' : List Bool}

theorem more (h : Tally ends tops flags) (hmiss : ∀ p ∈ tops, p ∉ ends') :
    Tally (ends ++ ends') tops flags := by
  refine ((List.forall₂_and_left tops flags).mpr ⟨hmiss, h⟩).imp fun p entered hp => ?_
  rw [List.count_append, List.count_eq_zero.mpr hp.1, hp.2, add_zero]

theorem append (h : Tally ends tops flags) (k : Tally ends' tops' flags')
    (hmiss : ∀ p ∈ tops, p ∉ ends') (hmiss' : ∀ p ∈ tops', p ∉ ends) :
    Tally (ends ++ ends') (tops ++ tops') (flags ++ flags') := by
  refine List.rel_append (h.more hmiss) ?_
  refine (k.more hmiss').imp fun p entered hp => ?_
  rw [List.count_append, add_comm, ← List.count_append]
  exact hp

theorem moved (h : Tally ends tops flags) (dx dy : ℚ) :
    Tally (ends.map (movedBy dx dy)) (tops.map (movedBy dx dy)) flags := by
  refine List.forall₂_map_left_iff.mpr (h.imp fun p entered hp => ?_)
  rw [List.count_map_of_injective _ _ (movedBy_injective dx dy)]
  exact hp

end Tally

namespace Sheet

/-- The second sheet has more nodes and more arrows, below the first one, and its new arrows lead into
its new nodes as the flags say. -/
structure Tallies (tops ends : List (ℚ × ℚ)) (flags : List Bool) (s t : Sheet) : Prop where
  drawing : Group.Collects tops ends s.drawing t.drawing
  reach : s.reach ≤ t.reach
  inside : ∀ p ∈ tops, p.2 ∈ Ioo s.reach t.reach
  within : ∀ p ∈ ends, p.2 ∈ Icc s.reach t.reach
  tally : Tally ends tops flags

/-- The second sheet has more nodes, into which arrows lead as the flags say. -/
def Counts (flags : List Bool) (s t : Sheet) : Prop := ∃ tops ends, Tallies tops ends flags s t

variable {s t u arm : Sheet} {tops tops' ends ends' : List (ℚ × ℚ)} {flags flags' : List Bool}

theorem Tallies.refl (s : Sheet) : Tallies [] [] [] s s := ⟨.refl _, le_rfl, nofun, nofun, .nil⟩

theorem Tallies.counts (h : Tallies tops ends flags s t) : Counts flags s t := ⟨tops, ends, h⟩

theorem Tallies.trans (h : Tallies tops ends flags s t) (k : Tallies tops' ends' flags' t u) :
    Tallies (tops ++ tops') (ends ++ ends') (flags ++ flags') s u where
  drawing := h.drawing.trans k.drawing
  reach := h.reach.trans k.reach
  inside p hp := by
    rcases List.mem_append.mp hp with hp | hp
    · exact ⟨(h.inside p hp).1, (h.inside p hp).2.trans_le k.reach⟩
    · exact ⟨h.reach.trans_lt (k.inside p hp).1, (k.inside p hp).2⟩
  within p hp := by
    rcases List.mem_append.mp hp with hp | hp
    · exact ⟨(h.within p hp).1, (h.within p hp).2.trans k.reach⟩
    · exact ⟨h.reach.trans (k.within p hp).1, (k.within p hp).2⟩
  tally := h.tally.append k.tally
    (fun p hp hend => absurd (k.within p hend).1 (not_le.mpr (h.inside p hp).2))
    (fun p hp hend => absurd (h.within p hend).2 (not_le.mpr (k.inside p hp).1))

/-- A drawing that is merged brings its nodes and arrows below a sheet, if it is moved clear of those
that were merged before it. -/
theorem Tallies.beside {merged : Group ℚ} {dx reach right : ℚ} (h : Tallies tops ends flags s t)
    (harm : Tallies tops' ends' flags' ⟨.empty, s.reach⟩ arm)
    (htops : ∀ p ∈ tops, p.1 < right) (hends : ∀ p ∈ ends, p.1 ≤ right)
    (hright : right ≤ arm.drawing.extent.minX + dx)
    (hmerged : Group.Collects (arm.drawing.tops.map (movedBy dx 0))
      (arm.drawing.arrowEnds.map (movedBy dx 0)) t.drawing merged)
    (hreach : t.reach ≤ reach ∧ arm.reach ≤ reach) :
    Tallies (tops ++ tops'.map (movedBy dx 0)) (ends ++ ends'.map (movedBy dx 0)) (flags ++ flags') s
      ⟨merged, reach⟩ := by
  have hfence := harm.drawing.fenced Group.fenced_empty
  have htops' : arm.drawing.tops = tops' := harm.drawing.tops
  have hends' : arm.drawing.arrowEnds = ends' := harm.drawing.ends
  rw [htops', hends'] at hmerged
  refine ⟨h.drawing.trans hmerged, h.reach.trans hreach.1, fun p hp => ?_, fun p hp => ?_,
    h.tally.append (harm.tally.moved dx 0) (fun p hp hend => ?_) fun p hp hend => ?_⟩
  · rcases List.mem_append.mp hp with hp | hp
    · exact ⟨(h.inside p hp).1, (h.inside p hp).2.trans_le hreach.1⟩
    · obtain ⟨q, hq, rfl⟩ := List.mem_map.mp hp
      obtain ⟨hlow, hhigh⟩ := harm.inside q hq
      exact ⟨hlow.trans_eq (add_zero q.2).symm, (add_zero q.2).trans_lt (hhigh.trans_le hreach.2)⟩
  · rcases List.mem_append.mp hp with hp | hp
    · exact ⟨(h.within p hp).1, (h.within p hp).2.trans hreach.1⟩
    · obtain ⟨q, hq, rfl⟩ := List.mem_map.mp hp
      obtain ⟨hlow, hhigh⟩ := harm.within q hq
      exact ⟨hlow.trans_eq (add_zero q.2).symm, (add_zero q.2).trans_le (hhigh.trans hreach.2)⟩
  · obtain ⟨q, hq, rfl⟩ := List.mem_map.mp hend
    have hwest := htops _ hp
    have heast : q.1 + dx < right := hwest
    have hspan := (hfence.ends q (hends' ▸ hq)).1
    linarith
  · obtain ⟨q, hq, rfl⟩ := List.mem_map.mp hp
    have hwest : q.1 + dx ≤ right := hends _ hend
    have hspan := (hfence.tops q (htops' ▸ hq)).1
    linarith

namespace Counts

theorem refl (s : Sheet) : Counts [] s s := (Tallies.refl s).counts

theorem trans (h : Counts flags s t) (k : Counts flags' t u) : Counts (flags ++ flags') s u := by
  obtain ⟨tops, ends, h⟩ := h
  obtain ⟨tops', ends', k⟩ := k
  exact (h.trans k).counts

theorem quiet (h : Counts flags s t) (k : Counts [] t u) : Counts flags s u := by
  have hboth := h.trans k
  rwa [List.append_nil] at hboth

theorem follow (h : Counts [] s t) (k : Counts flags t u) : Counts flags s u := h.trans k

theorem lower (s : Sheet) {y : ℚ} (h : s.reach ≤ y) : Counts [] s ⟨s.drawing, y⟩ :=
  ⟨[], [], .refl _, h, nofun, nofun, .nil⟩

theorem reach (h : Counts flags s t) : s.reach ≤ t.reach := by
  obtain ⟨tops, ends, h⟩ := h
  exact h.reach

theorem point {g : Group ℚ} {low high y : ℚ} (h : Counts flags s t) (hlow : low ≤ s.reach)
    (hhigh : t.reach ≤ high) (hy : y ∈ Icc low s.reach ∨ y ∈ Icc t.reach high)
    (k : Group.PointsTo y t.drawing g) : Counts flags ⟨s.drawing, low⟩ ⟨g, high⟩ := by
  obtain ⟨tops, ends, h⟩ := h
  obtain ⟨more, hmore, hlevel⟩ := k
  have hreach := h.reach
  refine ⟨tops, ends ++ more, ?_, hlow.trans (h.reach.trans hhigh), fun p hp => ?_, fun p hp => ?_,
    h.tally.more fun p hp hend => ?_⟩
  · have hboth := h.drawing.trans hmore
    rwa [List.append_nil] at hboth
  · exact ⟨hlow.trans_lt (h.inside p hp).1, (h.inside p hp).2.trans_le hhigh⟩
  · rcases List.mem_append.mp hp with hp | hp
    · exact ⟨hlow.trans (h.within p hp).1, (h.within p hp).2.trans hhigh⟩
    · change low ≤ p.2 ∧ p.2 ≤ high
      rw [hlevel p hp]
      rcases hy with hy | hy
      · exact ⟨hy.1, hy.2.trans (hreach.trans hhigh)⟩
      · exact ⟨hlow.trans (hreach.trans hy.1), hy.2⟩
  · obtain ⟨habove, hbelow⟩ := h.inside p hp
    rw [hlevel p hend] at habove hbelow
    rcases hy with hy | hy
    · exact absurd hy.2 (not_le.mpr habove)
    · exact absurd hy.1 (not_le.mpr hbelow)

theorem lead {g : Group ℚ} {high y : ℚ} (h : Counts flags s t) (hy : y ∈ Icc t.reach high)
    (k : Group.PointsTo y t.drawing g) : Counts flags s ⟨g, high⟩ :=
  h.point le_rfl (hy.1.trans hy.2) (.inr hy) k

theorem leadBack {d g : Group ℚ} {low mid y : ℚ} (h : Counts flags ⟨d, mid⟩ t) (hy : y ∈ Icc low mid)
    (k : Group.PointsTo y t.drawing g) : Counts flags ⟨d, low⟩ ⟨g, t.reach⟩ :=
  h.point (hy.1.trans hy.2) le_rfl (.inl hy) k

theorem below {merged : Group ℚ} {high : ℚ} (harm : Counts flags ⟨.empty, s.reach⟩ arm)
    (hmerged : Group.Collects (arm.drawing.tops.map (movedBy 0 0))
      (arm.drawing.arrowEnds.map (movedBy 0 0)) s.drawing merged)
    (hreach : arm.reach ≤ high) : Counts flags s ⟨merged, high⟩ := by
  obtain ⟨tops, ends, harm⟩ := harm
  exact ⟨_, _, (Tallies.refl s).beside harm nofun nofun (add_zero _).ge hmerged
    ⟨harm.reach.trans hreach, hreach⟩⟩

theorem fenced {y : ℚ} (h : Counts flags ⟨.empty, y⟩ t) : t.drawing.Fenced := by
  obtain ⟨tops, ends, h⟩ := h
  exact h.drawing.fenced Group.fenced_empty

theorem node {c : Strand ℚ} {node : Group ℚ} (hnode : node.IsNode) (hgroup : c.group = s.drawing)
    {top : ℚ} (hlow : s.reach < top) (hhigh : top < c.reach) :
    Counts [c.tip.isSome] s
      ((c.trunkTo top true).draw (node.shift (-node.bounds.width / 2.0) top).toShape).sheet := by
  obtain ⟨drawing, reach⟩ := s
  obtain rfl : c.group = drawing := hgroup
  obtain ⟨htops, hends, hfence⟩ := hnode.shift top
  have hdrawn (g : Group ℚ) := g.push_collects hfence
  rw [htops, hends] at hdrawn
  have hinside : ∀ p ∈ [((0 : ℚ), top)], p.2 ∈ Ioo reach c.reach := by
    intro p hp
    rw [List.mem_singleton.mp hp]
    exact ⟨hlow, hhigh⟩
  unfold Strand.trunkTo
  cases htip : c.tip with
  | none =>
      exact ⟨[(0, top)], [], hdrawn c.group, (hlow.trans hhigh).le, hinside, (by simp), .cons rfl .nil⟩
  | some tip =>
      have hsnug := (Path.down_snug 0 tip (top - tip)).withArrow
      have hstop : (Path.down 0 tip (top - tip)).withArrow.stop = (0, top) :=
        (Path.stop_push _ _).trans (by simp [Path.stop_start, Move.apply])
      have hend : (Shape.path (Path.down 0 tip (top - tip)).withArrow).arrowEnds = [(0, top)] :=
        hsnug.arrowEnds.trans (congrArg (fun p => [p]) hstop)
      have harrow := c.group.push_collects hsnug.fenced
      rw [hend] at harrow
      refine ⟨[(0, top)], [(0, top)], harrow.trans (hdrawn _), (hlow.trans hhigh).le, hinside,
        fun p hp => ⟨(hinside p hp).1.le, (hinside p hp).2.le⟩, .cons (by simp) .nil⟩

end Counts
end Sheet

namespace Strand
open Sheet
variable {c d e : Strand ℚ} {s : Sheet} {y : ℚ} {flags : List Bool}

structure PointsTo (y : ℚ) (c d : Strand ℚ) : Prop where
  drawing : Group.PointsTo y c.group d.group
  reach : d.reach = c.reach

namespace PointsTo

theorem refl (y : ℚ) (c : Strand ℚ) : PointsTo y c c := ⟨.refl y _, rfl⟩

theorem trans (h : PointsTo y c d) (k : PointsTo y d e) : PointsTo y c e :=
  ⟨h.drawing.trans k.drawing, k.reach.trans h.reach⟩

theorem out (h : PointsTo y c d) (hc : s.Counts flags c.sheet) {high : ℚ} (hy : y ∈ Icc c.reach high) :
    s.Counts flags ⟨d.group, high⟩ := hc.lead hy h.drawing

theorem back (h : PointsTo y c d) {g : Group ℚ} {low mid : ℚ} (hc : Counts flags ⟨g, mid⟩ c.sheet)
    (hy : y ∈ Icc low mid) : Counts flags ⟨g, low⟩ d.sheet := by
  have hled := hc.leadBack hy h.drawing
  change Counts flags _ ⟨d.group, d.reach⟩
  rw [h.reach]
  exact hled

theorem along (h : PointsTo y c d) {mid : ℚ} (hc : s.Counts flags ⟨c.group, mid⟩)
    (hy : y ∈ Icc mid c.reach) : s.Counts flags d.sheet := by
  have hled := hc.lead hy h.drawing
  rwa [← h.reach] at hled

theorem quiet (h : PointsTo c.reach c d) (hc : s.Counts flags c.sheet) : s.Counts flags d.sheet :=
  h.along hc ⟨le_rfl, le_rfl⟩

end PointsTo

theorem draw_pointsTo (c : Strand ℚ) {shape : Shape ℚ} (htops : shape.tops = [])
    (hends : shape.arrowEnds = []) (y : ℚ) : PointsTo y c (c.draw shape) :=
  ⟨⟨[], c.group.push_collects_nothing htops hends, nofun⟩, rfl⟩

theorem drawLine_pointsTo (c : Strand ℚ) {p : Path ℚ} (hp : p.Snug) (hline : p.isArrow = false)
    (y : ℚ) : PointsTo y c (c.draw (.path p)) := c.draw_pointsTo rfl (hp.arrowEnds_line hline) y

theorem drawAcross_pointsTo (c : Strand ℚ) (left height length y : ℚ) :
    PointsTo y c (c.draw (.path (Path.across left height length))) :=
  c.drawLine_pointsTo (Path.across_snug _ _ _) (Path.push_isArrow _ _) y

theorem drawArrow_pointsTo (c : Strand ℚ) {p : Path ℚ} (hp : p.Snug) (hstop : p.stop.2 = y) :
    PointsTo y c (c.draw (.path p)) := ⟨c.group.pushPath_pointsTo hp hstop, rfl⟩

theorem foldl_pointsTo {β : Type} (f : Strand ℚ → β → Strand ℚ) (hf : ∀ c b, PointsTo y c (f c b))
    (l : List β) (c : Strand ℚ) : PointsTo y c (l.foldl f c) := by
  induction l generalizing c with
  | nil => exact .refl y c
  | cons b rest ih => exact (hf c b).trans (ih (f c b))

theorem dropDeadTip_pointsTo (c : Strand ℚ) (y : ℚ) : PointsTo y c c.dropDeadTip := by
  unfold dropDeadTip
  split
  · exact .refl y c
  · exact ⟨.refl y _, rfl⟩

theorem trunkTo_pointsTo (c : Strand ℚ) (bottom y : ℚ) : PointsTo y c (c.trunkTo bottom false) := by
  unfold trunkTo
  split
  · next tip _ =>
      have hdrawn := c.drawLine_pointsTo (Path.down_snug 0 tip (bottom - tip)) (Path.push_isArrow _ _) y
      exact ⟨hdrawn.drawing, rfl⟩
  · exact ⟨.refl y _, rfl⟩

theorem labelExit_pointsTo (c : Strand ℚ) (text : String) (size : Size ℚ) (d : Direction)
    (box : DecisionBox ℚ) (y : ℚ) : PointsTo y c (c.labelExit text size d box) := by
  unfold labelExit
  split
  · exact .refl y c
  · cases d <;> exact c.draw_pointsTo rfl rfl y

theorem noteJump_pointsTo (c : Strand ℚ) (j : Jump) (p : ℚ × ℚ) (y : ℚ) :
    PointsTo y c (c.noteJump j p) := by
  unfold noteJump
  cases j <;> dsimp only <;> split
  · exact ⟨(draw_pointsTo { c with breaks := c.breaks ++ [p] } rfl rfl y).drawing, rfl⟩
  · exact ⟨.refl y _, rfl⟩
  · exact ⟨(draw_pointsTo { c with continues := c.continues ++ [p] } rfl rfl y).drawing, rfl⟩
  · exact ⟨.refl y _, rfl⟩

theorem route_pointsTo (c : Strand ℚ) (role : RouteRole) (points : List (ℚ × ℚ)) (lane target : ℚ) :
    PointsTo target c (c.route role points lane target) := by
  unfold route
  dsimp only
  split
  · exact ⟨.refl target _, rfl⟩
  · next x y rest _ =>
      have hwhole := Path.visits_detour x y lane target
      have hstop : ((((Path.start x y).horizontal (lane - x)).vertical (target - y)).horizontal
          (-lane)).stop = (0, target) :=
        Path.Visits.stop (show Path.Visits ([(x, y), (lane, y), (lane, target)] ++ [(0, target)]) _ from
          hwhole)
      have hled := c.drawArrow_pointsTo hwhole.snug.withArrow (congrArg Prod.snd hstop)
      refine PointsTo.trans ?_ (foldl_pointsTo
        (fun c (p : ℚ × ℚ) => c.draw (.path (Path.across p.1 p.2 (lane - p.1))))
        (fun c p => c.drawAcross_pointsTo _ _ _ target) rest _)
      exact ⟨hled.drawing, rfl⟩

theorem gather_pointsTo (c : Strand ℚ) (role : RouteRole) (points : List (ℚ × ℚ)) (lane y : ℚ) :
    PointsTo y c ((c.dropDeadTip.trunkTo y false).route role points lane y) :=
  ((c.dropDeadTip_pointsTo y).trans (trunkTo_pointsTo _ y y)).trans (route_pointsTo _ role points lane y)

theorem absorb_collects (c : Strand ℚ) {child : Strand ℚ} (h : child.group.Fenced) (dx : ℚ) :
    Group.Collects (child.group.tops.map (movedBy dx 0)) (child.group.arrowEnds.map (movedBy dx 0))
      c.group (c.absorb child dx).group := by
  have hplace : (child.group.shift dx 0).x = dx ∧ (child.group.shift dx 0).y = 0 :=
    ⟨(congrArg (· + dx) h.x).trans (zero_add dx), (congrArg (· + 0) h.y).trans (zero_add 0)⟩
  have hmoved := c.group.push_collects (h.toShape dx 0)
  rw [Group.tops_toShape, Group.arrowEnds_toShape, hplace.1, hplace.2] at hmoved
  unfold absorb
  dsimp only
  split
  · have hnothing := Group.push_collects_nothing (c.group.push (child.group.shift dx 0).toShape)
      (s := .frame ⟨(child.group.shift dx 0).extent.minX, (child.group.shift dx 0).extent.minY,
        (child.group.shift dx 0).extent.width, (child.group.shift dx 0).extent.height⟩) rfl rfl
    have hboth := hmoved.trans hnothing
    rw [List.append_nil, List.append_nil] at hboth
    exact hboth
  · exact hmoved

/-- A branch that is merged where it stands, by a strand that has drawn nothing since. -/
theorem absorb_counts {arm t : Strand ℚ} {high : ℚ} (hgroup : t.group = s.drawing)
    (harm : Counts flags ⟨.empty, s.reach⟩ ⟨arm.group, high⟩) (hreach : high ≤ t.reach) :
    s.Counts flags (t.absorb arm 0).sheet := by
  have hmerged := Counts.below harm (hgroup ▸ t.absorb_collects harm.fenced 0) hreach
  rwa [← (t.absorb_redraws arm 0).reach] at hmerged

end Strand
end Flowchart
