import Flowchart.Proofs.Chart.Frame
import Flowchart.Proofs.Lane.Cover
import Flowchart.Proofs.Shape.Boxes
/-! What a strand has drawn and how far down it reaches. A strand puts new boxes below its old ones,
and a branch that is moved east keeps its boxes together. -/
namespace Flowchart

/-- The second drawing has more boxes than the first, and its bounds reach around them as well. -/
structure Group.Gains (bs : List (Bounds ℚ)) (g h : Group ℚ) : Prop where
  boxes : h.boxes = g.boxes ++ bs
  snug : g.Snug → h.Snug

structure Sheet where
  drawing : Group ℚ
  reach : ℚ

def Strand.sheet (c : Strand ℚ) : Sheet := ⟨c.group, c.reach⟩

namespace Group.Gains
variable {g h k : Group ℚ} {as bs : List (Bounds ℚ)}

theorem refl (g : Group ℚ) : g.Gains [] g := ⟨(List.append_nil _).symm, id⟩

theorem trans (hg : g.Gains as h) (hh : h.Gains bs k) : g.Gains (as ++ bs) k :=
  ⟨by rw [hh.boxes, hg.boxes, List.append_assoc], hh.snug ∘ hg.snug⟩

end Group.Gains

theorem Group.push_gains (g : Group ℚ) {s : Shape ℚ} (hs : s.Snug) :
    g.Gains s.boxes (g.push s) := ⟨g.boxes_push s, fun hg => hg.push hs⟩

theorem Group.push_gains_nothing (g : Group ℚ) {s : Shape ℚ} (hs : s.boxes = []) :
    g.Gains [] (g.push s) := hs ▸ g.push_gains (Shape.snug_of_boxes hs)

namespace Sheet

/-- The second sheet has more boxes, all of them below the first one and in order. -/
structure Stacks (bs : List (Bounds ℚ)) (s t : Sheet) : Prop where
  drawing : s.drawing.Gains bs t.drawing
  reach : s.reach ≤ t.reach
  within : ∀ b ∈ bs, s.reach ≤ b.minY ∧ b.maxY ≤ t.reach
  apart : bs.Pairwise Bounds.Precedes

namespace Stacks
variable {s t u : Sheet} {as bs : List (Bounds ℚ)}

theorem refl (s : Sheet) : s.Stacks [] s := ⟨.refl _, le_rfl, by simp, .nil⟩

theorem trans (h : s.Stacks as t) (k : t.Stacks bs u) : s.Stacks (as ++ bs) u where
  drawing := h.drawing.trans k.drawing
  reach := h.reach.trans k.reach
  within b hb := by
    rcases List.mem_append.mp hb with hb | hb
    · exact ⟨(h.within b hb).1, (h.within b hb).2.trans k.reach⟩
    · exact ⟨h.reach.trans (k.within b hb).1, (k.within b hb).2⟩
  apart := List.pairwise_append.mpr ⟨h.apart, k.apart, fun a ha b hb =>
    .inr ((h.within a ha).2.trans (k.within b hb).1)⟩

theorem quiet (h : s.Stacks as t) (k : t.Stacks [] u) : s.Stacks as u := by
  have hboth := h.trans k
  rwa [List.append_nil] at hboth

theorem lower (s : Sheet) {y : ℚ} (h : s.reach ≤ y) : s.Stacks [] ⟨s.drawing, y⟩ :=
  ⟨.refl _, h, by simp, .nil⟩

/-- A drawing that is merged brings the boxes below a sheet, if it is moved clear of those that were
merged before it. -/
theorem beside {arm : Sheet} {merged : Group ℚ} {dx reach : ℚ} (h : s.Stacks as t)
    (harm : Stacks bs ⟨.empty, s.reach⟩ arm) (hclear : ∀ a ∈ as, ∀ b ∈ bs, a.maxX ≤ b.minX + dx)
    (hmerged : t.drawing.Gains (arm.drawing.boxes.map (·.offset dx 0)) merged)
    (hreach : t.reach ≤ reach ∧ arm.reach ≤ reach) :
    s.Stacks (as ++ bs.map (·.offset dx 0)) ⟨merged, reach⟩ where
  drawing := by
    have hboxes : arm.drawing.boxes = bs := harm.drawing.boxes
    rw [hboxes] at hmerged
    exact h.drawing.trans hmerged
  reach := h.reach.trans hreach.1
  within b hb := by
    rcases List.mem_append.mp hb with hb | hb
    · exact ⟨(h.within b hb).1, (h.within b hb).2.trans hreach.1⟩
    · obtain ⟨a, ha, rfl⟩ := List.mem_map.mp hb
      obtain ⟨hlow, hhigh⟩ := harm.within a ha
      exact ⟨hlow.trans (add_zero a.minY).ge, (add_zero a.maxY).le.trans (hhigh.trans hreach.2)⟩
  apart := by
    refine List.pairwise_append.mpr ⟨h.apart, ?_, fun a ha b hb => ?_⟩
    · exact List.pairwise_map.mpr (harm.apart.imp fun hab => hab.offset dx 0)
    · obtain ⟨moved, hmoved, rfl⟩ := List.mem_map.mp hb
      exact .inl (hclear a ha moved hmoved)

end Stacks

def Grows (s t : Sheet) : Prop := ∃ bs, s.Stacks bs t

theorem Stacks.grows {s t : Sheet} {bs : List (Bounds ℚ)} (h : s.Stacks bs t) : s.Grows t := ⟨bs, h⟩

theorem Grows.trans {s t u : Sheet} (h : s.Grows t) (k : t.Grows u) : s.Grows u := by
  obtain ⟨as, has⟩ := h
  obtain ⟨bs, hbs⟩ := k
  exact ⟨as ++ bs, has.trans hbs⟩

theorem Grows.below {s t arm : Sheet} {merged : Group ℚ} {reach : ℚ} (h : s.Stacks [] t)
    (harm : Grows ⟨.empty, s.reach⟩ arm)
    (hmerged : t.drawing.Gains (arm.drawing.boxes.map (·.offset 0 0)) merged)
    (hreach : t.reach ≤ reach ∧ arm.reach ≤ reach) : s.Grows ⟨merged, reach⟩ := by
  obtain ⟨bs, hbs⟩ := harm
  exact ⟨_, h.beside hbs nofun hmerged hreach⟩

theorem Grows.snug {arm : Sheet} {y : ℚ} (h : Grows ⟨.empty, y⟩ arm) : arm.drawing.Snug := by
  obtain ⟨bs, hbs⟩ := h
  exact hbs.drawing.snug Group.snug_empty

end Sheet

namespace Strand
open Sheet
variable {c d t : Strand ℚ} {s : Sheet}

theorem draw_stacks (c : Strand ℚ) {shape : Shape ℚ} (h : shape.boxes = []) :
    c.sheet.Stacks [] (c.draw shape).sheet where
  drawing := c.group.push_gains_nothing h
  reach := le_rfl
  within := by simp
  apart := .nil

theorem drawPath_stacks (c : Strand ℚ) (p : Path ℚ) :
    c.sheet.Stacks [] (c.draw (.path p)).sheet := c.draw_stacks rfl

theorem foldl_stacks {β : Type} (f : Strand ℚ → β → Strand ℚ)
    (hf : ∀ c b, (sheet c).Stacks [] (f c b).sheet) (l : List β) (c : Strand ℚ) :
    c.sheet.Stacks [] (l.foldl f c).sheet := by
  induction l generalizing c with
  | nil => exact .refl c.sheet
  | cons b rest ih => exact (hf c b).trans (ih (f c b))

theorem trunkTo_stacks (c : Strand ℚ) (y : ℚ) (arrow : Bool) :
    c.sheet.Stacks [] (c.trunkTo y arrow).sheet := by
  unfold trunkTo
  split
  · exact c.draw_stacks rfl
  · exact .refl c.sheet

theorem dropDeadTip_sheet (c : Strand ℚ) : c.dropDeadTip.sheet = c.sheet := by
  unfold dropDeadTip
  split <;> rfl

theorem labelExit_stacks (c : Strand ℚ) (text : String) (size : Size ℚ) (d : Direction)
    (box : DecisionBox ℚ) : c.sheet.Stacks [] (c.labelExit text size d box).sheet := by
  unfold labelExit
  split
  · exact .refl c.sheet
  · cases d <;> exact c.draw_stacks rfl

theorem noteJump_stacks (c : Strand ℚ) (j : Jump) (p : ℚ × ℚ) :
    c.sheet.Stacks [] (c.noteJump j p).sheet := by
  unfold noteJump
  cases j <;> dsimp only <;> split
  all_goals first | exact c.draw_stacks rfl | exact .refl c.sheet

theorem route_stacks (c : Strand ℚ) (role : RouteRole) (points : List (ℚ × ℚ)) (lane target : ℚ) :
    c.sheet.Stacks [] (c.route role points lane target).sheet := by
  unfold route
  dsimp only
  split
  · exact .refl c.sheet
  · refine Stacks.quiet ?_ (foldl_stacks _ (fun c _ => drawPath_stacks c _) _ _)
    exact c.drawPath_stacks _

theorem takeBand_stacks (c : Strand ℚ) (start size : ℚ) :
    c.sheet.Stacks [] (c.takeBand start size).2.sheet := .lower c.sheet (le_max_left _ _)

theorem takeLine_stacks (c : Strand ℚ) (start : ℚ) :
    c.sheet.Stacks [] (c.takeLine start).2.sheet := c.takeBand_stacks start _

theorem reclaim_stacks (c body : Strand ℚ) : c.sheet.Stacks [] (c.reclaim body).sheet :=
  .lower c.sheet (le_max_left _ _)

theorem takeBand_bounds (c : Strand ℚ) (start size : ℚ) :
    start ≤ (c.takeBand start size).1 ∧
      (c.takeBand start size).1 + size ≤ (c.takeBand start size).2.reach :=
  ⟨RangeSet.start_le_firstFit _ _ _, le_max_right _ _⟩

theorem takeExit_bounds {start size pos : ℚ} {east : Bool}
    (h : c.takeExit start size east = .ok (pos, d)) :
    c.sheet.Stacks [] d.sheet ∧ start ≤ pos ∧ pos + size ≤ d.reach := by
  unfold takeExit at h
  split at h
  · next hplace =>
      cases h
      obtain ⟨found, hfound, heq⟩ := Option.map_eq_some_iff.mp hplace
      cases heq
      exact ⟨.lower c.sheet (le_max_left _ _), RangeSet.le_commonFit? hfound, le_max_right _ _⟩
  · cases h

theorem drawBox_grows (h : s.Stacks [] t.sheet) {g : Group ℚ} (hg : g.OneBox) {dx top : ℚ}
    (hlow : s.reach ≤ top) (hhigh : top + g.bounds.height ≤ t.reach) :
    s.Grows (t.draw (g.shift dx top).toShape).sheet := by
  obtain ⟨width, height, hsnug, hboxes, hheight⟩ := hg
  have hdrawn : (g.shift dx top).toShape.boxes = [⟨dx, top, width + dx, height + top⟩] := by
    rw [Group.boxes_toShape, Group.boxes_shift, hboxes]
    change [(⟨0 + (g.x + dx), 0 + (g.y + top), width + (g.x + dx), height + (g.y + top)⟩ :
      Bounds ℚ)] = _
    rw [hsnug.x, hsnug.y, zero_add, zero_add, zero_add, zero_add]
  have hgains := t.group.push_gains (hsnug.toShape dx top)
  rw [hdrawn] at hgains
  refine ⟨[] ++ [_], ⟨h.drawing.trans hgains, h.reach, fun b hb => ?_, List.pairwise_singleton _ _⟩⟩
  rw [List.nil_append, List.mem_singleton] at hb
  rw [hb]
  refine ⟨hlow, le_trans ?_ hhigh⟩
  exact (add_comm height top).trans_le (add_le_add_right hheight top)

theorem absorb_gains (c : Strand ℚ) {child : Strand ℚ} (h : child.group.Snug) (dx : ℚ) :
    c.group.Gains (child.group.boxes.map (·.offset dx 0)) (c.absorb child dx).group := by
  have hmoved : (child.group.shift dx 0).toShape.boxes = child.group.boxes.map (·.offset dx 0) := by
    rw [Group.boxes_toShape, Group.boxes_shift]
    change child.group.boxes.map (·.offset (child.group.x + dx) (child.group.y + 0)) = _
    rw [h.x, h.y, zero_add, zero_add]
  have hgains := c.group.push_gains (h.toShape dx 0)
  rw [hmoved] at hgains
  unfold absorb
  dsimp only
  split
  · rw [← List.append_nil (child.group.boxes.map _)]
    exact hgains.trans (Group.push_gains_nothing _ rfl)
  · exact hgains

theorem absorb_grows {arm : Strand ℚ} (h : s.Stacks [] t.sheet)
    (harm : Grows ⟨.empty, s.reach⟩ arm.sheet) (hreach : arm.reach ≤ t.reach) :
    s.Grows (t.absorb arm 0).sheet := by
  have hsheet : (t.absorb arm 0).sheet = ⟨(t.absorb arm 0).group, t.reach⟩ :=
    congrArg (Sheet.mk _) (t.absorb_redraws arm 0).reach
  rw [hsheet]
  exact Grows.below h harm (t.absorb_gains harm.snug 0) ⟨le_rfl, hreach⟩

end Strand
end Flowchart
