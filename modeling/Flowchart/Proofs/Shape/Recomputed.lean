import Flowchart.Proofs.Lane.Order
import Flowchart.Shape.Basic
/-! Bounds computed anew. A path keeps the bounds of its vertices and a group those of what was pushed,
and neither looks at them again when it is moved. In whatever order a shape was built and moved, the
bounds it keeps are the ones its parts have. -/
namespace Flowchart
open Scalar (isNumber)
variable {α : Type} [Scalar α]

namespace Bounds

def ofPoint (p : α × α) : Bounds α := ⟨p.1, p.2, p.1, p.2⟩

def unionAll : List (Bounds α) → Bounds α
  | [] => .zero
  | b :: rest => rest.foldl union b

structure IsNumber (b : Bounds α) : Prop where
  minX : isNumber b.minX
  minY : isNumber b.minY
  maxX : isNumber b.maxX
  maxY : isNumber b.maxY

instance (b : Bounds α) : Decidable b.IsNumber :=
  decidable_of_iff (isNumber b.minX ∧ isNumber b.minY ∧ isNumber b.maxX ∧ isNumber b.maxY)
    ⟨fun ⟨minX, minY, maxX, maxY⟩ => ⟨minX, minY, maxX, maxY⟩,
      fun h => ⟨h.minX, h.minY, h.maxX, h.maxY⟩⟩

/-- Each side is the outermost one of some rectangles. -/
structure Spans (b : Bounds α) (boxes : List (Bounds α)) : Prop where
  minX : IsLeast {x | x ∈ boxes.map minX} b.minX
  minY : IsLeast {y | y ∈ boxes.map minY} b.minY
  maxX : IsGreatest {x | x ∈ boxes.map maxX} b.maxX
  maxY : IsGreatest {y | y ∈ boxes.map maxY} b.maxY

theorem unionAll_concat {boxes : List (Bounds α)} (some : boxes ≠ []) (b : Bounds α) :
    unionAll (boxes ++ [b]) = (unionAll boxes).union b := by
  cases boxes with
  | nil => exact absurd rfl some
  | cons first rest => exact List.foldl_concat ..

theorem foremost {pick : α → α → α} (before : α → α → Prop)
    (trans : ∀ a b c, before a b → before b c → before a c)
    (refl : ∀ a, isNumber a → before a a)
    (picks : ∀ a b, isNumber a → isNumber b →
      pick a b = a ∧ before a b ∨ pick a b = b ∧ before b a)
    {a : α} {xs : List α} (numbers : ∀ x ∈ a :: xs, isNumber x) :
    xs.foldl pick a ∈ a :: xs ∧ ∀ x ∈ a :: xs, before (xs.foldl pick a) x := by
  induction xs generalizing a with
  | nil =>
      refine ⟨List.mem_singleton_self a, fun x mem => ?_⟩
      rw [List.mem_singleton.mp mem]
      exact refl a (numbers a List.mem_cons_self)
  | cons b rest ih =>
      obtain ⟨ha, others⟩ := List.forall_mem_cons.mp numbers
      obtain ⟨hb, later⟩ := List.forall_mem_cons.mp others
      rw [List.foldl_cons]
      obtain ⟨same, front⟩ | ⟨same, front⟩ := picks a b ha hb
      · obtain ⟨mem, least⟩ := ih (List.forall_mem_cons.mpr ⟨ha, later⟩)
        obtain ⟨below, all⟩ := List.forall_mem_cons.mp least
        rw [same]
        refine ⟨?_, List.forall_mem_cons.mpr
          ⟨below, List.forall_mem_cons.mpr ⟨trans _ _ _ below front, all⟩⟩⟩
        exact List.mem_cons.mpr ((List.mem_cons.mp mem).imp_right (List.mem_cons_of_mem b))
      · obtain ⟨mem, least⟩ := ih (List.forall_mem_cons.mpr ⟨hb, later⟩)
        obtain ⟨below, all⟩ := List.forall_mem_cons.mp least
        rw [same]
        exact ⟨List.mem_cons_of_mem a mem, List.forall_mem_cons.mpr
          ⟨trans _ _ _ below front, List.forall_mem_cons.mpr ⟨below, all⟩⟩⟩

theorem isLeast_foldl [LawfulScalar α] {a : α} {xs : List α} (numbers : ∀ x ∈ a :: xs, isNumber x) :
    IsLeast {x | x ∈ a :: xs} (xs.foldl min a) :=
  foremost (· ≤ ·) (fun _ _ _ => LawfulScalar.le_trans)
    (fun _ => LawfulScalar.le_refl) (fun _ _ => LawfulScalar.min_number) numbers

theorem isGreatest_foldl [LawfulScalar α] {a : α} {xs : List α}
    (numbers : ∀ x ∈ a :: xs, isNumber x) : IsGreatest {x | x ∈ a :: xs} (xs.foldl max a) :=
  foremost (fun a b => b ≤ a) (fun _ _ _ ab bc => LawfulScalar.le_trans bc ab)
    (fun _ => LawfulScalar.le_refl) (fun _ _ => LawfulScalar.max_number) numbers

/-- A side of a union is picked among the sides. -/
theorem side_foldl (side : Bounds α → α) {pick : α → α → α}
    (sides : ∀ a b, side (a.union b) = pick (side a) (side b)) (b : Bounds α)
    (boxes : List (Bounds α)) :
    side (boxes.foldl union b) = (boxes.map side).foldl pick (side b) := by
  rw [List.foldl_map]
  exact (List.foldl_hom side fun a c => (sides a c).symm).symm

theorem unionAll_spans [LawfulScalar α] {boxes : List (Bounds α)} (some : boxes ≠ [])
    (numbers : ∀ b ∈ boxes, b.IsNumber) : (unionAll boxes).Spans boxes := by
  cases boxes with
  | nil => exact absurd rfl some
  | cons b rest =>
      have sides : ∀ side : Bounds α → α, (∀ c : Bounds α, c.IsNumber → isNumber (side c)) →
          ∀ x ∈ side b :: rest.map side, isNumber x := by
        intro side number
        rw [← List.map_cons]
        exact List.forall_mem_map.mpr fun c mem => number c (numbers c mem)
      refine ⟨?_, ?_, ?_, ?_⟩
      · rw [unionAll, side_foldl minX fun _ _ => rfl]
        exact isLeast_foldl (sides minX fun _ h => h.minX)
      · rw [unionAll, side_foldl minY fun _ _ => rfl]
        exact isLeast_foldl (sides minY fun _ h => h.minY)
      · rw [unionAll, side_foldl maxX fun _ _ => rfl]
        exact isGreatest_foldl (sides maxX fun _ h => h.maxX)
      · rw [unionAll, side_foldl maxY fun _ _ => rfl]
        exact isGreatest_foldl (sides maxY fun _ h => h.maxY)

end Bounds

namespace Path

/-- The vertices relative to the start: the origin and where each move leads to. -/
def stations (p : Path α) : List (α × α) := (0, 0) :: trace (0, 0) p.moves

theorem trace_concat (q : α × α) (moves : List (Move α)) (m : Move α) :
    trace q (moves ++ [m]) = trace q moves ++ [m.apply (moves.foldl Move.apply q)] := by
  induction moves generalizing q with
  | nil => rfl
  | cons first rest ih => rw [List.cons_append, trace, trace, ih, List.cons_append, List.foldl_cons]

/-- What a path keeps is what the given moves say. -/
structure Keeps (p : Path α) (given : List (Move α)) : Prop where
  moves : p.moves = given.filter (fun m => !(m.distance == 0))
  tip : p.tip = p.moves.foldl Move.apply (0, 0)
  bounds : p.bounds = .unionAll (p.stations.map .ofPoint)

theorem keeps_start (x y : α) : (start x y).Keeps [] := ⟨rfl, rfl, rfl⟩

theorem Keeps.push {p : Path α} {given : List (Move α)} (h : p.Keeps given) (m : Move α) :
    (p.push m).Keeps (given ++ [m]) := by
  cases still : m.distance == 0 with
  | true =>
      have same : p.push m = p := if_pos still
      rw [same]
      refine ⟨?_, h.tip, h.bounds⟩
      rw [List.filter_append, ← h.moves]
      simp [still]
  | false =>
      have moves : (p.push m).moves = p.moves ++ [m] := by simp [Path.push, still]
      have tip : (p.push m).tip = m.apply p.tip := by simp [Path.push, still]
      have bounds : (p.push m).bounds = p.bounds.union (.ofPoint (m.apply p.tip)) := by
        simp [Path.push, still, Bounds.union, Bounds.ofPoint]
      have stations : (p.push m).stations = p.stations ++ [m.apply p.tip] := by
        rw [Path.stations, moves, trace_concat, ← h.tip]
        rfl
      refine ⟨?_, ?_, ?_⟩
      · rw [moves, List.filter_append, ← h.moves]
        simp [still]
      · rw [tip, moves, List.foldl_concat, ← h.tip]
      · rw [bounds, stations, List.map_append, h.bounds]
        exact (Bounds.unionAll_concat (List.cons_ne_nil _ _) _).symm

inductive Script (α : Type) where
  | start (x y : α)
  | push (s : Script α) (m : Move α)
  | withArrow (s : Script α)
  | shift (s : Script α) (dx dy : α)

namespace Script

def path : Script α → Path α
  | .start x y => Path.start x y
  | .push s m => s.path.push m
  | .withArrow s => s.path.withArrow
  | .shift s dx dy => { s.path with x := s.path.x + dx, y := s.path.y + dy }

def moves : Script α → List (Move α)
  | .start _ _ => []
  | .push s m => s.moves ++ [m]
  | .withArrow s | .shift s _ _ => s.moves

theorem keeps (s : Script α) : s.path.Keeps s.moves := by
  induction s with
  | start x y => exact keeps_start x y
  | push s m ih => exact ih.push m
  | withArrow s ih => exact ⟨ih.moves, ih.tip, ih.bounds⟩
  | shift s dx dy ih => exact ⟨ih.moves, ih.tip, ih.bounds⟩

end Script
end Path

mutual

inductive Group.Script (α : Type) where
  | emptyAt (x y : α)
  | push (g : Group.Script α) (s : Shape.Script α)
  | shift (g : Group.Script α) (dx dy : α)

inductive Shape.Script (α : Type) where
  | point (x y : α)
  | path (s : Path.Script α)
  | text (t : Caption α)
  | rect (o : Outline α)
  | frame (o : Outline α)
  | diamond (o : Outline α)
  | group (g : Group.Script α)
  | shift (s : Shape.Script α) (dx dy : α)

end

mutual

def Group.Script.group : Group.Script α → Group α
  | .emptyAt x y => Group.emptyAt x y
  | .push g s => g.group.push s.shape
  | .shift g dx dy => g.group.shift dx dy

def Shape.Script.shape : Shape.Script α → Shape α
  | .point x y => .point ⟨x, y, false⟩
  | .path s => .path s.path
  | .text t => .text t
  | .rect o => .rect o
  | .frame o => .frame o
  | .diamond o => .diamond o
  | .group g => g.group.toShape
  | .shift s dx dy => s.shape.shift dx dy

end

def Group.Script.pushed : Group.Script α → List (Shape α)
  | .emptyAt _ _ => []
  | .push g s => g.pushed ++ [s.shape]
  | .shift g _ _ => g.pushed

/-- An outline around a caption is built from two pushes. -/
def Group.Script.around (outline : Shape.Script α) (caption : String) (tw th : α) :
    Group.Script α :=
  .push (.push (.emptyAt 0 0) outline) (.text
    ⟨outline.shape.size.1 / 2.0, outline.shape.size.2 / 2.0, tw, th, caption, false⟩)

theorem Group.Script.group_around (outline : Shape.Script α) (caption : String) (tw th : α) :
    (Group.Script.around outline caption tw th).group =
      Group.around outline.shape caption tw th := rfl

namespace Shape

theorem isPlaceholder_shift (s : Shape α) (dx dy : α) :
    (s.shift dx dy).isPlaceholder = s.isPlaceholder := by
  cases s <;> rfl

mutual

/-- The bounds as the parts of a shape have them, whatever bounds it keeps. -/
def recomputed : Shape α → Bounds α
  | .path p => .unionAll (p.stations.map .ofPoint)
  | .group _ _ children _ => .unionAll (extentsOf children)
  | .point p => (Shape.point p).bounds
  | .text t => (Shape.text t).bounds
  | .rect o => (Shape.rect o).bounds
  | .frame o => (Shape.frame o).bounds
  | .diamond o => (Shape.diamond o).bounds

def extentsOf : List (Shape α) → List (Bounds α)
  | [] => []
  | s :: rest =>
    if s.isPlaceholder then extentsOf rest
    else s.recomputed.offset s.position.1 s.position.2 :: extentsOf rest

end

theorem recomputed_shift (s : Shape α) (dx dy : α) :
    (s.shift dx dy).recomputed = s.recomputed := by
  cases s <;> simp only [shift, recomputed, bounds, Path.stations]

/-- A shape that is shown and whose bounds are those of its parts. -/
structure Sound (s : Shape α) : Prop where
  shown : s.isPlaceholder = false
  bounds : s.bounds = s.recomputed

theorem extentsOf_sound {shapes : List (Shape α)} (sound : ∀ s ∈ shapes, s.Sound) :
    extentsOf shapes = shapes.map extent := by
  induction shapes with
  | nil => rw [extentsOf, List.map_nil]
  | cons s rest ih =>
      obtain ⟨first, later⟩ := List.forall_mem_cons.mp sound
      rw [extentsOf, first.shown, if_neg Bool.false_ne_true, ih later, ← first.bounds,
        List.map_cons]
      rfl

end Shape

namespace Group

/-- A group holds what was pushed, or its placeholder, and keeps the union of the extents. -/
structure Keeps (g : Group α) (pushed : List (Shape α)) : Prop where
  children : g.children = if pushed.isEmpty then [placeholder] else pushed
  bounds : g.bounds = .unionAll (pushed.map Shape.extent)

theorem Keeps.isEmpty {g : Group α} {pushed : List (Shape α)} (h : g.Keeps pushed)
    (sound : ∀ s ∈ pushed, s.Sound) : g.isEmpty = pushed.isEmpty := by
  rw [Group.isEmpty, h.children]
  cases pushed with
  | nil => rfl
  | cons first rest =>
      cases rest with
      | nil => exact (sound first List.mem_cons_self).shown
      | cons second others => rfl

theorem Keeps.push {g : Group α} {pushed : List (Shape α)} (h : g.Keeps pushed)
    (sound : ∀ s ∈ pushed, s.Sound) (s : Shape α) : (g.push s).Keeps (pushed ++ [s]) := by
  have empty := h.isEmpty sound
  cases pushed with
  | nil =>
      have pushed : g.push s = { g with children := [s], bounds := s.extent } := if_pos empty
      rw [pushed]
      exact ⟨rfl, rfl⟩
  | cons first rest =>
      have pushed : g.push s =
          { g with children := g.children ++ [s], bounds := g.bounds.union s.extent } :=
        if_neg (Bool.eq_false_iff.mp empty)
      rw [pushed]
      refine ⟨?_, ?_⟩
      · exact congrArg (· ++ [s]) h.children
      · rw [List.map_append, h.bounds]
        exact (Bounds.unionAll_concat (List.cons_ne_nil _ _) _).symm

theorem Keeps.sound {g : Group α} {pushed : List (Shape α)} (h : g.Keeps pushed)
    (sound : ∀ s ∈ pushed, s.Sound) : g.toShape.Sound := by
  refine ⟨rfl, ?_⟩
  have extents : Shape.extentsOf g.children = pushed.map Shape.extent := by
    rw [h.children]
    cases pushed with
    | nil => simp [Shape.extentsOf, placeholder, Shape.isPlaceholder]
    | cons first rest => exact Shape.extentsOf_sound sound
  rw [Group.toShape, Shape.recomputed, extents]
  exact h.bounds

end Group

mutual

theorem Group.Script.keeps : (g : Group.Script α) →
    (∀ s ∈ g.pushed, s.Sound) ∧ g.group.Keeps g.pushed
  | .emptyAt x y => by
      rw [Group.Script.pushed, Group.Script.group]
      exact ⟨List.forall_mem_nil _, rfl, rfl⟩
  | .push g s => by
      obtain ⟨sound, keeps⟩ := g.keeps
      rw [Group.Script.pushed, Group.Script.group]
      refine ⟨?_, keeps.push sound s.shape⟩
      exact List.forall_mem_append.mpr ⟨sound, List.forall_mem_singleton.mpr s.sound⟩
  | .shift g dx dy => by
      obtain ⟨sound, keeps⟩ := g.keeps
      rw [Group.Script.pushed, Group.Script.group]
      exact ⟨sound, keeps.children, keeps.bounds⟩

theorem Shape.Script.sound : (s : Shape.Script α) → s.shape.Sound
  | .point x y => by
      rw [Shape.Script.shape]
      exact ⟨rfl, by rw [Shape.recomputed]⟩
  | .path s => by
      rw [Shape.Script.shape]
      refine ⟨rfl, ?_⟩
      rw [Shape.recomputed]
      exact s.keeps.bounds
  | .text t => by
      rw [Shape.Script.shape]
      exact ⟨rfl, by rw [Shape.recomputed]⟩
  | .rect o => by
      rw [Shape.Script.shape]
      exact ⟨rfl, by rw [Shape.recomputed]⟩
  | .frame o => by
      rw [Shape.Script.shape]
      exact ⟨rfl, by rw [Shape.recomputed]⟩
  | .diamond o => by
      rw [Shape.Script.shape]
      exact ⟨rfl, by rw [Shape.recomputed]⟩
  | .group g => by
      obtain ⟨sound, keeps⟩ := g.keeps
      rw [Shape.Script.shape]
      exact keeps.sound sound
  | .shift s dx dy => by
      have sound := s.sound
      rw [Shape.Script.shape]
      refine ⟨?_, ?_⟩
      · rw [Shape.isPlaceholder_shift]
        exact sound.shown
      · rw [Shape.bounds_shift, Shape.recomputed_shift]
        exact sound.bounds

end

namespace Sample

def detour : Path.Script Float32 :=
  .push (.shift (.push (.push (.push (.start 5 5) (.horizontal 10)) (.vertical 0)) (.vertical 20))
    1 2) (.horizontal (-30))

def panel : Group.Script Float32 :=
  .push (.shift (.push (.push (.emptyAt 1 1) (.group (.emptyAt 3 4))) (.shift (.path detour) 2 3))
    4 4) (.rect ⟨10, 20, 30, 5⟩)

end Sample

end Flowchart
