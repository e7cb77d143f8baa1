import Flowchart.Proofs.Chart.Layer
import Flowchart.Proofs.Chart.Frame
import Flowchart.Proofs.Shape.Edges
/-! The horizontal lines of a strand: the edges it has drawn and the lines of its pending jumps. -/
namespace Flowchart

def Edge.hline (e : Edge ℚ) : Hline := ⟨e.y, Set.Icc e.left e.right⟩

theorem Edge.hline_shift (e : Edge ℚ) (dx : ℚ) : (e.shift dx 0).hline = e.hline.shift dx := by
  unfold shift hline Hline.shift
  congr 1
  · exact add_zero _
  · ext x
    constructor
    · rintro ⟨h, k⟩
      exact ⟨by linarith, by linarith⟩
    · rintro ⟨h, k⟩
      exact ⟨by linarith, by linarith⟩

namespace Context

theorem labelGap_nonneg : (0 : ℚ) ≤ labelGap := by
  change (0 : ℚ) ≤ 4.0
  norm_num

/-- Texts have sizes, boxes and frames have room for the line margin, and branches keep clear of the
labels beside their trunks. -/
structure Roomy (x : Context ℚ) : Prop where
  measure : ∀ text attrs, 0 ≤ (x.measure text attrs).width ∧ 0 ≤ (x.measure text attrs).height
  margin : 0 ≤ x.config.hlineMargin
  stepX : labelGap < x.config.stepX
  stepY : 0 ≤ x.config.stepY
  rectX : 0 ≤ x.config.rect.padX
  rectY : x.config.hlineMargin ≤ 2 * x.config.rect.padY
  frameX : 0 ≤ x.config.frame.padX
  frameY : 0 ≤ x.config.frame.padY

namespace Roomy
variable {x : Context ℚ}

theorem labelSize (h : x.Roomy) (text : String) :
    0 ≤ (x.labelSize text).width ∧ 0 ≤ (x.labelSize text).height := by
  unfold Context.labelSize
  split
  · exact ⟨le_rfl, le_rfl⟩
  · exact h.measure _ _

end Roomy
end Context

namespace Shape

def lines (s : Shape ℚ) : Multiset Hline := (s.edges.map Edge.hline : List Hline)

def Straddles (s : Shape ℚ) : Prop := s.extent.minX ≤ Context.labelGap ∧ 0 ≤ s.extent.maxX

end Shape

theorem Edge.hline_eq {left right : ℚ} (h : left ≤ right) (y : ℚ) :
    (⟨left, right, y⟩ : Edge ℚ).hline = .between left right y := by
  unfold hline Hline.between
  rw [Set.uIcc_of_le h]

namespace Group

def lines (g : Group ℚ) : Multiset Hline := (g.edges.map Edge.hline : List Hline)

def hull (g : Group ℚ) : Set ℚ :=
  {x | g.isEmpty = false ∧ g.extent.minX ≤ x ∧ x ≤ g.extent.maxX}

structure Upright (g : Group ℚ) : Prop where
  x : g.x = 0
  y : g.y = 0
  minX : g.extent.minX ≤ Context.labelGap
  maxX : 0 ≤ g.extent.maxX
  inside : ∀ a ∈ g.lines, a.Inside g.hull

theorem upright_empty : (empty : Group ℚ).Upright where
  x := rfl
  y := rfl
  minX := by
    change (0 : ℚ) + 0 ≤ Context.labelGap
    rw [add_zero]
    exact Context.labelGap_nonneg
  maxX := by
    change (0 : ℚ) ≤ 0 + 0
    norm_num
  inside := by simp [lines]

theorem lines_push (g : Group ℚ) (s : Shape ℚ) : (g.push s).lines = g.lines + s.lines := by
  unfold lines Shape.lines
  rw [edges_push, List.map_append]
  rfl

theorem lines_toShape {g : Group ℚ} (hg : g.Upright) (dx : ℚ) :
    (g.shift dx 0).toShape.lines = g.lines.map (·.shift dx) := by
  unfold Shape.lines lines
  rw [edges_toShape, edges_shift, List.map_map, Multiset.map_coe, List.map_map]
  refine congrArg _ (List.map_congr_left fun e _ => ?_)
  change (e.shift (g.x + dx) (g.y + 0)).hline = e.hline.shift dx
  rw [hg.x, hg.y, zero_add, add_zero, e.hline_shift]

theorem isEmpty_push (g : Group ℚ) {s : Shape ℚ} (hs : s.isPlaceholder = false) :
    (g.push s).isEmpty = false := by
  unfold push
  split
  · exact hs
  · unfold isEmpty
    dsimp only
    split
    · next t hone =>
        cases hc : g.children with
        | nil =>
            rw [hc] at hone
            cases hone
            exact hs
        | cons u rest =>
            rw [hc] at hone
            cases rest <;> cases hone
    · rfl

theorem extent_push_first {g : Group ℚ} (hx : g.x = 0) (s : Shape ℚ) (h : g.isEmpty = true) :
    (g.push s).extent.minX = s.extent.minX ∧ (g.push s).extent.maxX = s.extent.maxX := by
  unfold push extent Bounds.offset
  rw [if_pos h, hx]
  exact ⟨add_zero _, add_zero _⟩

theorem extent_push {g : Group ℚ} (hx : g.x = 0) (s : Shape ℚ) (h : g.isEmpty = false) :
    (g.push s).extent.minX = min g.extent.minX s.extent.minX ∧
      (g.push s).extent.maxX = max g.extent.maxX s.extent.maxX := by
  unfold push extent Bounds.offset Bounds.union
  rw [if_neg (Bool.eq_false_iff.mp h), hx]
  constructor <;> simp

theorem hull_push {g : Group ℚ} (hx : g.x = 0) {s : Shape ℚ} (hs : s.isPlaceholder = false) :
    g.hull ⊆ (g.push s).hull ∧ Set.Icc s.extent.minX s.extent.maxX ⊆ (g.push s).hull := by
  have hsome := g.isEmpty_push hs
  cases h : g.isEmpty with
  | true =>
      obtain ⟨hminX, hmaxX⟩ := extent_push_first hx s h
      refine ⟨fun x hmem => ?_, fun x hmem => ⟨hsome, hminX ▸ hmem.1, hmaxX ▸ hmem.2⟩⟩
      rw [hull, h] at hmem
      cases hmem.1
  | false =>
      obtain ⟨hminX, hmaxX⟩ := extent_push hx s h
      constructor
      · intro x hmem
        exact ⟨hsome, hminX ▸ min_le_of_left_le hmem.2.1, hmaxX ▸ le_max_of_le_left hmem.2.2⟩
      · intro x hmem
        exact ⟨hsome, hminX ▸ min_le_of_right_le hmem.1, hmaxX ▸ le_max_of_le_right hmem.2⟩

theorem upright_push {g : Group ℚ} (hg : g.Upright) {s : Shape ℚ} (hs : s.isPlaceholder = false)
    (hplace : s.Straddles ∨ g.hull.Nonempty)
    (hinside : ∀ a ∈ s.lines, a.Inside (Set.Icc s.extent.minX s.extent.maxX)) :
    (g.push s).Upright := by
  have hx : (g.push s).x = g.x := by unfold push; split <;> rfl
  have hy : (g.push s).y = g.y := by unfold push; split <;> rfl
  have hall : ∀ a ∈ (g.push s).lines, a.Inside (g.push s).hull := by
    obtain ⟨hkept, hadded⟩ := hull_push hg.x hs
    intro a ha
    rw [lines_push] at ha
    rcases Multiset.mem_add.mp ha with ha | ha
    · exact (hg.inside a ha).mono hkept
    · exact (hinside a ha).mono hadded
  cases h : g.isEmpty with
  | true =>
      obtain ⟨hminX, hmaxX⟩ := extent_push_first hg.x s h
      have hstraddles : s.Straddles := by
        refine hplace.resolve_right ?_
        rintro ⟨x, hsome, -⟩
        rw [h] at hsome
        cases hsome
      exact ⟨hx.trans hg.x, hy.trans hg.y, hminX ▸ hstraddles.1, hmaxX ▸ hstraddles.2, hall⟩
  | false =>
      obtain ⟨hminX, hmaxX⟩ := extent_push hg.x s h
      exact ⟨hx.trans hg.x, hy.trans hg.y, hminX ▸ min_le_of_left_le hg.minX,
        hmaxX ▸ le_max_of_le_left hg.maxX, hall⟩

/-- An outline is as large as it says if its caption has room in it. -/
theorem around_spec {outline : Shape ℚ} {w h tw th : ℚ} (hsize : outline.size = (w, h))
    (hextent : outline.extent = ⟨0, 0, w, h⟩) (hshape : outline.isPlaceholder = false)
    (caption : String) (htw : 0 ≤ tw ∧ tw ≤ w) (hth : 0 ≤ th ∧ th ≤ h) :
    (around outline caption tw th).x = 0 ∧ (around outline caption tw th).y = 0 ∧
      (around outline caption tw th).bounds = ⟨0, 0, w, h⟩ ∧
      (around outline caption tw th).edges = outline.edges := by
  have heq : around outline caption tw th =
      ((empty.push outline).push (.text ⟨w / 2, h / 2, tw, th, caption, false⟩)) := by
    unfold around
    rw [hsize]
    norm_num
  have hfirst : (empty : Group ℚ).push outline = ⟨0, 0, [outline], ⟨0, 0, w, h⟩⟩ := by
    unfold push
    rw [if_pos (show (empty : Group ℚ).isEmpty = true from rfl), hextent]
    rfl
  have hsome : (⟨0, 0, [outline], ⟨0, 0, w, h⟩⟩ : Group ℚ).isEmpty = false := hshape
  rw [heq, edges_push, edges_push, hfirst]
  unfold push
  rw [if_neg (Bool.eq_false_iff.mp hsome)]
  refine ⟨rfl, rfl, ?_, List.append_nil _⟩
  have htext : (Shape.text ⟨w / 2, h / 2, tw, th, caption, false⟩).extent =
      ⟨-tw / 2 + w / 2, -th / 2 + h / 2, tw / 2 + w / 2, th / 2 + h / 2⟩ := by
    change (⟨-tw / 2.0 + w / 2, -th / 2.0 + h / 2, tw / 2.0 + w / 2, th / 2.0 + h / 2⟩ : Bounds ℚ) = _
    norm_num
  rw [htext]
  unfold Bounds.union
  rw [Bounds.mk.injEq]
  exact ⟨min_eq_left (by linarith), min_eq_left (by linarith), max_eq_left (by linarith),
    max_eq_left (by linarith)⟩

theorem centred_spec {g : Group ℚ} {w h : ℚ} (hx : g.x = 0) (hy : g.y = 0)
    (hbounds : g.bounds = ⟨0, 0, w, h⟩) (hw : 0 ≤ w) (top : ℚ) :
    (g.shift (-w / 2.0) top).toShape.extent.minX = -(w / 2) ∧
      (g.shift (-w / 2.0) top).toShape.extent.maxX = w / 2 ∧
      (g.shift (-w / 2.0) top).toShape.Straddles ∧
      (g.shift (-w / 2.0) top).toShape.edges = g.edges.map (·.shift (-(w / 2)) top) := by
  have hshift : g.x + -w / 2.0 = -(w / 2) := by
    rw [hx]
    norm_num
    linarith
  have hminX : (g.shift (-w / 2.0) top).toShape.extent.minX = -(w / 2) := by
    change g.bounds.minX + (g.x + -w / 2.0) = _
    rw [hbounds, hshift]
    exact zero_add _
  have hmaxX : (g.shift (-w / 2.0) top).toShape.extent.maxX = w / 2 := by
    change g.bounds.maxX + (g.x + -w / 2.0) = _
    rw [hbounds, hshift]
    dsimp only
    linarith
  refine ⟨hminX, hmaxX, ⟨?_, ?_⟩, ?_⟩
  · rw [hminX]
    have hgap := Context.labelGap_nonneg
    linarith
  · rw [hmaxX]
    linarith
  · rw [edges_toShape, edges_shift]
    change g.edges.map (·.shift (g.x + -w / 2.0) (g.y + top)) = _
    rw [hshift, hy, zero_add]

end Group

namespace Path
open Hline (between)

def lines (p : Path ℚ) : Multiset Hline := (Shape.path p).lines

theorem lines_eq (p : Path ℚ) : p.lines = (p.edges.map Edge.hline : List Hline) := rfl

@[simp]
theorem lines_withArrow (p : Path ℚ) : p.withArrow.lines = p.lines := rfl

theorem lines_start (x y : ℚ) : (start x y).lines = 0 := rfl

theorem Snug.withArrow {p : Path ℚ} (h : p.Snug) : p.withArrow.Snug := ⟨h.last, h.minX, h.maxX, h.edges⟩

theorem lines_vertical {p : Path ℚ} (h : p.Snug) (d : ℚ) : (p.vertical d).lines = p.lines := by
  rw [lines_eq, (vertical_spec h d).2.1, lines_eq]

theorem lines_horizontal {p : Path ℚ} (h : p.Snug) (d : ℚ) :
    (p.horizontal d).lines ≤ p.lines + {between p.stop.1 (p.stop.1 + d) p.stop.2} := by
  have hsub := (horizontal_spec h d).2.1.map Edge.hline
  rw [List.map_append] at hsub
  exact Multiset.coe_le.mpr hsub.subperm

theorem lines_inside {p : Path ℚ} (h : p.Snug) :
    ∀ a ∈ p.lines, a.Inside (Set.Icc (Shape.path p).extent.minX (Shape.path p).extent.maxX) := by
  intro a ha
  obtain ⟨e, he, rfl⟩ := List.mem_map.mp (Multiset.mem_coe.mp ha)
  obtain ⟨hleft, hle, hright⟩ := h.edges e he
  have hminX : (Shape.path p).extent.minX = p.bounds.minX + p.x := rfl
  have hmaxX : (Shape.path p).extent.maxX = p.bounds.maxX + p.x := rfl
  refine ⟨⟨e.left, ⟨?_, ?_⟩, Set.Icc_subset_Ici_self⟩, ⟨e.right, ⟨?_, ?_⟩, Set.Icc_subset_Iic_self⟩⟩
  all_goals linarith

theorem start_mem {p : Path ℚ} (h : p.Snug) :
    p.x ∈ Set.Icc (Shape.path p).extent.minX (Shape.path p).extent.maxX := by
  have hminX : (Shape.path p).extent.minX = p.bounds.minX + p.x := rfl
  have hmaxX : (Shape.path p).extent.maxX = p.bounds.maxX + p.x := rfl
  have hmin := (le_min_iff.mp h.minX).1
  have hmax := (max_le_iff.mp h.maxX).1
  constructor <;> linarith

theorem straddles {p : Path ℚ} (h : p.Snug) (hx : p.x = 0) : (Shape.path p).Straddles := by
  obtain ⟨hmin, hmax⟩ := start_mem h
  rw [hx] at hmin hmax
  exact ⟨hmin.trans Context.labelGap_nonneg, hmax⟩

theorem push_x (p : Path ℚ) (m : Move ℚ) : (p.push m).x = p.x := by
  unfold push
  split <;> rfl

theorem down_snug (x y d : ℚ) : (down x y d).Snug := (vertical_spec (start_snug x y) d).1

theorem lines_down (x y d : ℚ) : (down x y d).lines = 0 := lines_vertical (start_snug x y) d

theorem across_snug (x y d : ℚ) : (across x y d).Snug := (horizontal_spec (start_snug x y) d).1

theorem lines_across (x y d : ℚ) : (across x y d).lines ≤ {between x (x + d) y} := by
  have h := lines_horizontal (start_snug x y) d
  rwa [lines_start, zero_add, stop_start] at h

theorem drop_spec (x y z d : ℚ) :
    (((start x y).vertical (z - y)).horizontal d).Snug ∧
      (((start x y).vertical (z - y)).horizontal d).lines ≤ {between x (x + d) z} := by
  obtain ⟨hsnug, -, hstop⟩ := vertical_spec (start_snug x y) (z - y)
  refine ⟨(horizontal_spec hsnug _).1, ?_⟩
  have h := lines_horizontal hsnug d
  rwa [lines_vertical (start_snug x y), lines_start, zero_add, hstop, stop_start,
    add_sub_cancel] at h

theorem detour_spec (x y lane z : ℚ) :
    ((((start x y).horizontal (lane - x)).vertical (z - y)).horizontal (-lane)).Snug ∧
      ((((start x y).horizontal (lane - x)).vertical (z - y)).horizontal (-lane)).lines ≤
        {between x lane y} + {between lane 0 z} := by
  obtain ⟨hsnug, -, hstop⟩ := horizontal_spec (start_snug x y) (lane - x)
  obtain ⟨hsnug', -, hstop'⟩ := vertical_spec hsnug (z - y)
  refine ⟨(horizontal_spec hsnug' _).1, ?_⟩
  have h := lines_horizontal (start_snug x y) (lane - x)
  have h' := lines_horizontal hsnug' (-lane)
  rw [lines_vertical hsnug, hstop', hstop, stop_start] at h'
  rw [lines_start, zero_add, stop_start] at h
  have hsum := h'.trans (add_le_add_left h _)
  simpa using hsum

end Path

namespace Strand
variable {pad : ℚ} {c d e : Strand ℚ} {ls ms : Multiset Hline}

def front (c : Strand ℚ) : Front := ⟨c.reach, c.lanes⟩

/-- The line along which a `continue` leaves. -/
def resumeLine (c : Strand ℚ) (p : ℚ × ℚ) : Hline :=
  if c.continueTarget = some .doWhile then .eastward p else .westward p

/-- The edges of a strand and the lines of its pending jumps. -/
def lines (c : Strand ℚ) : Multiset Hline :=
  c.group.lines + (c.breaks.map Hline.eastward : List Hline) +
    (c.continues.map c.resumeLine : List Hline)

structure Upright (c : Strand ℚ) : Prop where
  group : c.group.Upright
  held : ∀ p, p ∈ c.breaks ∨ p ∈ c.continues → p.1 ∈ c.group.hull

structure Draws (ls : Multiset Hline) (c d : Strand ℚ) : Prop where
  lines : d.group.lines ≤ c.group.lines + ls
  inside : ∀ a ∈ ls, a.Inside d.group.hull
  hull : c.group.hull ⊆ d.group.hull
  upright : c.group.Upright → d.group.Upright
  breaks : d.breaks = c.breaks
  continues : d.continues = c.continues
  redraws : c.Redraws d

namespace Draws

theorem refl (c : Strand ℚ) : c.Draws 0 c :=
  ⟨(add_zero _).ge, by simp, subset_rfl, id, rfl, rfl, .refl c⟩

theorem trans (h : c.Draws ls d) (k : d.Draws ms e) : c.Draws (ls + ms) e where
  lines := by
    rw [← add_assoc]
    exact k.lines.trans (add_le_add_left h.lines ms)
  inside a ha := by
    rcases Multiset.mem_add.mp ha with ha | ha
    · exact (h.inside a ha).mono k.hull
    · exact k.inside a ha
  hull := h.hull.trans k.hull
  upright := k.upright ∘ h.upright
  breaks := k.breaks.trans h.breaks
  continues := k.continues.trans h.continues
  redraws := h.redraws.trans k.redraws

theorem quiet (h : c.Draws ls d) (k : d.Draws 0 e) : c.Draws ls e := by
  have hk := h.trans k
  rwa [add_zero] at hk

theorem revise (h : c.Draws ls d) {tip : Option ℚ} {journal : List (Stroke ℚ)} :
    c.Draws ls ⟨d.group, d.reach, tip, d.lanes, d.breakTarget, d.continueTarget, d.breaks,
      d.continues, d.alive, d.pad, d.debug, journal⟩ :=
  ⟨h.lines, h.inside, h.hull, h.upright, h.breaks, h.continues,
    ⟨h.redraws.reach, h.redraws.lanes, h.redraws.breakTarget, h.redraws.continueTarget,
      h.redraws.alive, h.redraws.pad, h.redraws.debug⟩⟩

theorem front (h : c.Draws ls d) : d.front = c.front := by
  unfold Strand.front
  rw [h.redraws.reach, h.redraws.lanes]

theorem shown (h : c.Draws ls d) : d.lines ≤ c.lines + ls := by
  have hresume : d.resumeLine = c.resumeLine := by
    unfold resumeLine
    rw [h.redraws.continueTarget]
  unfold Strand.lines
  rw [h.breaks, h.continues, hresume, add_right_comm _ (_ : Multiset Hline) ls,
    add_right_comm c.group.lines]
  exact add_le_add_left (add_le_add_left h.lines _) _

theorem around (h : c.Draws ls d) (hc : c.Upright) : d.Upright where
  group := h.upright hc.group
  held p hp := by
    rw [h.breaks, h.continues] at hp
    exact h.hull (hc.held p hp)

end Draws

theorem draw_draws {s : Shape ℚ} (hc : c.group.Upright) (hs : s.isPlaceholder = false)
    (hplace : s.Straddles ∨ c.group.hull.Nonempty)
    (hinside : ∀ a ∈ s.lines, a.Inside (Set.Icc s.extent.minX s.extent.maxX)) :
    c.Draws s.lines (c.draw s) where
  lines := (Group.lines_push _ _).le
  inside a ha := (hinside a ha).mono (Group.hull_push hc.x hs).2
  hull := (Group.hull_push hc.x hs).1
  upright hc := Group.upright_push hc hs hplace hinside
  breaks := rfl
  continues := rfl
  redraws := draw_redraws c s

theorem drawPath_draws {p : Path ℚ} (hp : p.Snug) (hc : c.group.Upright)
    (hplace : p.x = 0 ∨ c.group.hull.Nonempty) : c.Draws p.lines (c.draw (.path p)) :=
  draw_draws hc rfl (hplace.imp_left (Path.straddles hp)) (Path.lines_inside hp)

theorem trunkTo_draws (hc : c.group.Upright) (y : ℚ) (arrow : Bool) :
    c.Draws 0 (c.trunkTo y arrow) := by
  unfold trunkTo
  split
  · next tip htip =>
      have hx : (Path.down 0 tip (y - tip)).x = 0 := Path.push_x _ _
      have hsnug := Path.down_snug 0 tip (y - tip)
      cases arrow with
      | true =>
          have h := drawPath_draws hsnug.withArrow hc (.inl hx)
          rw [Path.lines_withArrow, Path.lines_down] at h
          exact h.revise
      | false =>
          have h := drawPath_draws hsnug hc (.inl hx)
          rw [Path.lines_down] at h
          exact h.revise
  · exact (Draws.refl c).revise

theorem trunkTo_hull (hc : c.group.x = 0) (h : c.tip.isSome) (y : ℚ) (arrow : Bool) :
    (0 : ℚ) ∈ (c.trunkTo y arrow).group.hull := by
  obtain ⟨tip, htip⟩ := Option.isSome_iff_exists.mp h
  have hx : (Path.down 0 tip (y - tip)).x = 0 := Path.push_x _ _
  have hsnug := Path.down_snug 0 tip (y - tip)
  have hmem := Path.start_mem hsnug
  have hmem' := Path.start_mem hsnug.withArrow
  have hx' : (Path.down 0 tip (y - tip)).withArrow.x = 0 := hx
  rw [hx] at hmem
  rw [hx'] at hmem'
  unfold trunkTo
  rw [htip]
  cases arrow with
  | true => exact (Group.hull_push hc rfl).2 hmem'
  | false => exact (Group.hull_push hc rfl).2 hmem

end Strand

namespace Context
open Strand
variable {x : Context ℚ} {c d : Strand ℚ}

theorem leastRatio_pos : (0 : ℚ) < Group.leastRatio := by
  change (0 : ℚ) < 0.05
  norm_num

theorem diamond_bounds (hmeasure : ∀ text attrs, 0 ≤ (x.measure text attrs).width ∧
    0 ≤ (x.measure text attrs).height) (test : String) :
    ∃ w h text, 0 ≤ w ∧ 0 ≤ h ∧ (x.diamond test).x = 0 ∧ (x.diamond test).y = 0 ∧
      (x.diamond test).children = [.diamond ⟨0, 0, w, h⟩, .text text] ∧
      (x.diamond test).bounds = ⟨0, 0, w, h⟩ := by
  obtain ⟨hw, hh⟩ := hmeasure test x.config.text.attrs
  have hratio : 0 < max x.config.diamond.aspectRatio Group.leastRatio :=
    lt_max_of_lt_right leastRatio_pos
  have hwide := div_nonneg hh hratio.le
  have hhigh := mul_nonneg hw hratio.le
  have houtline : ∀ w h : ℚ, (Shape.diamond ⟨0, 0, w, h⟩).extent = ⟨0, 0, w, h⟩ := by
    intro w h
    change (⟨0 + 0, 0 + 0, w + 0, h + 0⟩ : Bounds ℚ) = _
    simp only [add_zero]
  obtain ⟨hx0, hy0, hbounds, -⟩ := Group.around_spec rfl (houtline _ _) rfl test
    ⟨hw, le_add_of_nonneg_right hwide⟩ ⟨hh, le_add_of_nonneg_right hhigh⟩
  exact ⟨_, _, _, add_nonneg hw hwide, add_nonneg hh hhigh, hx0, hy0, rfl, hbounds⟩

theorem diamond_spec (hx : x.Roomy) (test : String) :
    ∃ w h, 0 ≤ w ∧ 0 ≤ h ∧ (x.diamond test).x = 0 ∧ (x.diamond test).y = 0 ∧
      (x.diamond test).bounds = ⟨0, 0, w, h⟩ ∧ (x.diamond test).edges = [] := by
  obtain ⟨w, h, text, hw, hh, hx0, hy0, hchildren, hbounds⟩ := diamond_bounds hx.measure test
  refine ⟨w, h, hw, hh, hx0, hy0, hbounds, ?_⟩
  unfold Group.edges
  rw [hchildren]
  rfl

theorem drawDecision_draws (hx : x.Roomy) (hc : c.group.Upright) (test : String) (top : ℚ) :
    c.Draws 0 (c.drawDecision (x.diamond test) top).2 ∧
      (x.diamond test).bounds.width / 2.0 ∈ (c.drawDecision (x.diamond test) top).2.group.hull ∧
      -(x.diamond test).bounds.width / 2.0 ∈ (c.drawDecision (x.diamond test) top).2.group.hull := by
  obtain ⟨w, h, hw, hh, hx0, hy0, hbounds, hedges⟩ := diamond_spec hx test
  have hwidth : (x.diamond test).bounds.width = w := by
    rw [hbounds]
    exact sub_zero w
  obtain ⟨hminX, hmaxX, hstraddles, hshifted⟩ := Group.centred_spec hx0 hy0 hbounds hw top
  have hlines : ((x.diamond test).shift (-w / 2.0) top).toShape.lines = 0 := by
    rw [Shape.lines, hshifted, hedges]
    rfl
  have htrunk := trunkTo_draws hc top true
  have hbox := draw_draws (htrunk.upright hc) rfl (.inl hstraddles) (by simp [hlines])
  have hhull := (Group.hull_push (htrunk.upright hc).x (s := ((x.diamond test).shift (-w / 2.0)
    top).toShape) rfl).2
  rw [hminX, hmaxX] at hhull
  rw [hlines] at hbox
  unfold drawDecision
  dsimp only
  rw [hwidth]
  refine ⟨htrunk.quiet hbox, hhull ⟨?_, ?_⟩, hhull ⟨?_, ?_⟩⟩ <;> linarith

theorem drawText_draws (hc : c.group.Upright) (t : Caption ℚ)
    (hplace : (Shape.text t).Straddles ∨ c.group.hull.Nonempty) :
    c.Draws 0 (c.draw (.text t)) :=
  draw_draws hc rfl hplace (by simp [Shape.lines, Shape.edges, Shape.ownEdges])

theorem labelExit_draws (hc : c.group.Upright) (hsome : c.group.hull.Nonempty) (text : String)
    (size : Size ℚ) (d : Direction) (box : DecisionBox ℚ) :
    c.Draws 0 (c.labelExit text size d box) := by
  unfold labelExit
  split
  · exact .refl c
  · cases d <;> exact drawText_draws hc _ (.inr hsome)

theorem drawTest_draws (hx : x.Roomy) (hc : c.group.Upright) (test : String) (top : ℚ)
    (yes no : Direction) :
    ∃ drawn, c.Draws 0 drawn ∧ (x.diamond test).bounds.width / 2.0 ∈ drawn.group.hull ∧
      -(x.diamond test).bounds.width / 2.0 ∈ drawn.group.hull ∧
      drawn = ((c.drawDecision (x.diamond test) top).2.labelExit x.config.yesText x.yesSize yes
        (c.drawDecision (x.diamond test) top).1).labelExit x.config.noText x.noSize no
          (c.drawDecision (x.diamond test) top).1 := by
  obtain ⟨hdecision, heast, hwest⟩ := drawDecision_draws hx hc test top
  have hyes := labelExit_draws (hdecision.upright hc) ⟨_, heast⟩ x.config.yesText x.yesSize yes
    (c.drawDecision (x.diamond test) top).1
  have hboth := hdecision.quiet hyes
  have hno := labelExit_draws (hboth.upright hc) ⟨_, hyes.hull heast⟩ x.config.noText x.noSize no
    (c.drawDecision (x.diamond test) top).1
  exact ⟨_, hboth.quiet hno, hno.hull (hyes.hull heast), hno.hull (hyes.hull hwest), rfl⟩

theorem box_bounds (hmeasure : ∀ text attrs, 0 ≤ (x.measure text attrs).width ∧
    0 ≤ (x.measure text attrs).height) (hpadX : 0 ≤ x.config.rect.padX)
    (hpadY : 0 ≤ x.config.rect.padY) (content : String) {w h : ℚ}
    (hw : w = (x.captionSize content).width + 2.0 * x.config.rect.padX)
    (hh : h = (x.captionSize content).height + 2.0 * x.config.rect.padY) :
    (Group.boxAround content (x.captionSize content).width (x.captionSize content).height
        x.config.rect.padX x.config.rect.padY).x = 0 ∧
      (Group.boxAround content (x.captionSize content).width (x.captionSize content).height
        x.config.rect.padX x.config.rect.padY).y = 0 ∧
      (Group.boxAround content (x.captionSize content).width (x.captionSize content).height
        x.config.rect.padX x.config.rect.padY).bounds = ⟨0, 0, w, h⟩ ∧
      (Group.boxAround content (x.captionSize content).width (x.captionSize content).height
        x.config.rect.padX x.config.rect.padY).edges = [⟨0, w, 0⟩, ⟨0, w, h⟩] := by
  obtain ⟨hwide, hhigh⟩ : 0 ≤ (x.captionSize content).width ∧ 0 ≤ (x.captionSize content).height :=
    hmeasure content x.config.text.attrs
  have hroomX : (x.captionSize content).width ≤ w := by linarith
  have hroomY : (x.captionSize content).height ≤ h := by linarith
  have hextent : (Shape.rect ⟨0, 0, w, h⟩).extent = ⟨0, 0, w, h⟩ := by
    change (⟨0 + 0, 0 + 0, w + 0, h + 0⟩ : Bounds ℚ) = _
    simp only [add_zero]
  obtain ⟨hx0, hy0, hbounds, hedges⟩ := Group.around_spec rfl hextent rfl content
    ⟨hwide, hroomX⟩ ⟨hhigh, hroomY⟩
  unfold Group.boxAround
  rw [← hw, ← hh]
  refine ⟨hx0, hy0, hbounds, hedges.trans ?_⟩
  change [(⟨0, 0 + w, 0⟩ : Edge ℚ), ⟨0, 0 + w, 0 + h⟩] = _
  simp only [zero_add]

theorem box_spec (hx : x.Roomy) (content : String) :
    ∃ w h, 0 ≤ w ∧ x.config.hlineMargin ≤ h ∧
      (Group.boxAround content (x.captionSize content).width (x.captionSize content).height
        x.config.rect.padX x.config.rect.padY).x = 0 ∧
      (Group.boxAround content (x.captionSize content).width (x.captionSize content).height
        x.config.rect.padX x.config.rect.padY).y = 0 ∧
      (Group.boxAround content (x.captionSize content).width (x.captionSize content).height
        x.config.rect.padX x.config.rect.padY).bounds = ⟨0, 0, w, h⟩ ∧
      (Group.boxAround content (x.captionSize content).width (x.captionSize content).height
        x.config.rect.padX x.config.rect.padY).edges = [⟨0, w, 0⟩, ⟨0, w, h⟩] := by
  obtain ⟨hw, hh⟩ : 0 ≤ (x.captionSize content).width ∧ 0 ≤ (x.captionSize content).height :=
    hx.measure content x.config.text.attrs
  have hpadX := hx.rectX
  have hpadY := hx.rectY
  have hmargin := hx.margin
  refine ⟨_, _, ?_, ?_, box_bounds hx.measure hpadX (by linarith) content rfl rfl⟩
  · linarith
  · linarith

end Context

end Flowchart
