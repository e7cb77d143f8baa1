import Flowchart.Shape.Path
/-!
What a chart is drawn from. A shape has a position in its parent and bounds relative to that
position, so that moving a shape never looks at what it holds.
-/
namespace Flowchart

/-- A marker. A placeholder keeps the place of a group that holds nothing yet. -/
structure Point (α : Type) where
  x : α
  y : α
  isPlaceholder : Bool
deriving BEq, DecidableEq, Repr

/-- A text centred on `(x, y)`: the caption of a node, or a label beside a connector. -/
structure Caption (α : Type) where
  x : α
  y : α
  width : α
  height : α
  content : String
  isLabel : Bool
deriving BEq, DecidableEq, Repr

/-- An outline, by its top left corner. -/
structure Outline (α : Type) where
  x : α
  y : α
  width : α
  height : α
deriving BEq, DecidableEq, Repr

inductive Shape (α : Type) where
  | point (p : Point α)
  | path (p : Path α)
  | text (t : Caption α)
  | rect (o : Outline α)
  | frame (o : Outline α)
  | diamond (o : Outline α)
  | group (x y : α) (children : List (Shape α)) (bounds : Bounds α)
deriving BEq, Repr

/-- An ordered collection of shapes that is never empty: it holds a placeholder at its origin until
the first shape arrives. -/
structure Group (α : Type) where
  x : α
  y : α
  children : List (Shape α)
  bounds : Bounds α
deriving BEq, Repr

namespace Shape
variable {α : Type} [Scalar α]

def kindWord : Shape α → String
  | .point _ => "point"
  | .path _ => "path"
  | .text _ => "text"
  | .rect _ => "rect"
  | .frame _ => "frame"
  | .diamond _ => "diamond"
  | .group .. => "group"

def position : Shape α → α × α
  | .point p => (p.x, p.y)
  | .path p => (p.x, p.y)
  | .text t => (t.x, t.y)
  | .rect o | .frame o | .diamond o => (o.x, o.y)
  | .group x y _ _ => (x, y)

def bounds : Shape α → Bounds α
  | .point _ => .zero
  | .path p => p.bounds
  | .text t => ⟨-t.width / 2.0, -t.height / 2.0, t.width / 2.0, t.height / 2.0⟩
  | .rect o | .frame o | .diamond o => .ofSize o.width o.height
  | .group _ _ _ b => b

/-- The bounds in the coordinates of the parent. -/
def extent (s : Shape α) : Bounds α := s.bounds.offset s.position.1 s.position.2

def size : Shape α → α × α
  | .point _ => (0, 0)
  | .text t => (t.width, t.height)
  | .rect o | .frame o | .diamond o => (o.width, o.height)
  | .path p => (p.bounds.width, p.bounds.height)
  | .group _ _ _ b => (b.width, b.height)

def shift (dx dy : α) : Shape α → Shape α
  | .point p => .point { p with x := p.x + dx, y := p.y + dy }
  | .path p => .path { p with x := p.x + dx, y := p.y + dy }
  | .text t => .text { t with x := t.x + dx, y := t.y + dy }
  | .rect o => .rect { o with x := o.x + dx, y := o.y + dy }
  | .frame o => .frame { o with x := o.x + dx, y := o.y + dy }
  | .diamond o => .diamond { o with x := o.x + dx, y := o.y + dy }
  | .group x y children b => .group (x + dx) (y + dy) children b

@[simp]
theorem bounds_shift (s : Shape α) (dx dy : α) : (s.shift dx dy).bounds = s.bounds := by
  cases s <;> rfl

def isPlaceholder : Shape α → Bool
  | .point p => p.isPlaceholder
  | _ => false

end Shape

namespace Group
variable {α : Type} [Scalar α]

def placeholder : Shape α := .point ⟨0, 0, true⟩

def empty : Group α := ⟨0, 0, [placeholder], .zero⟩

def emptyAt (x y : α) : Group α := { (empty : Group α) with x, y }

def toShape (g : Group α) : Shape α := .group g.x g.y g.children g.bounds

/-- Whether the group still holds its placeholder only. -/
def isEmpty (g : Group α) : Bool :=
  match g.children with
  | [s] => s.isPlaceholder
  | _ => false

/-- Adds a shape at the end; the first one takes the place of the placeholder. -/
def push (g : Group α) (s : Shape α) : Group α :=
  if g.isEmpty then { g with children := [s], bounds := s.extent }
  else { g with children := g.children ++ [s], bounds := g.bounds.union s.extent }

omit [Scalar α] in
/-- What a function collects from shapes, but for placeholders, it does not find in a group that is
empty. -/
theorem collect_of_isEmpty {β : Type} (f : List (Shape α) → List β)
    (hplaceholder : ∀ s : Shape α, s.isPlaceholder = true → f [s] = []) {g : Group α}
    (h : g.isEmpty = true) : f g.children = [] := by
  unfold isEmpty at h
  split at h
  · next only honly =>
      rw [honly]
      exact hplaceholder only h
  · cases h

theorem collect_push {β : Type} (f : List (Shape α) → List β)
    (happend : ∀ shapes others, f (shapes ++ others) = f shapes ++ f others)
    (hplaceholder : ∀ s : Shape α, s.isPlaceholder = true → f [s] = []) (g : Group α)
    (s : Shape α) : f (g.push s).children = f g.children ++ f [s] := by
  unfold push
  split
  · next hempty => rw [collect_of_isEmpty f hplaceholder hempty, List.nil_append]
  · exact happend _ _

def extent (g : Group α) : Bounds α := g.bounds.offset g.x g.y

def shift (g : Group α) (dx dy : α) : Group α := { g with x := g.x + dx, y := g.y + dy }

def around (outline : Shape α) (caption : String) (tw th : α) : Group α :=
  let (width, height) := outline.size
  (empty.push outline).push (.text ⟨width / 2.0, height / 2.0, tw, th, caption, false⟩)

def boxAround (caption : String) (tw th padX padY : α) : Group α :=
  around (.rect ⟨0, 0, tw + 2.0 * padX, th + 2.0 * padY⟩) caption tw th

/-- The least aspect ratio of a decision. -/
def leastRatio : α := 0.05

/-- A decision around its caption, wider and higher by what the aspect ratio asks for. -/
def decisionAround (caption : String) (tw th ratio : α) : Group α :=
  let ratio := max ratio leastRatio
  around (.diamond ⟨0, 0, tw + th / ratio, th + tw * ratio⟩) caption tw th

end Group
end Flowchart
