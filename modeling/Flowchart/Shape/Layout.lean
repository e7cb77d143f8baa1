import Flowchart.Shape.Basic
/-!
A finished layout and its leaves: the shapes that are no groups, each with the offset of the
groups around it, in drawing order.
-/
namespace Flowchart

structure Layout (α : Type) where
  root : Group α
  width : α
  height : α
deriving BEq, Repr

structure Placed (α : Type) where
  shape : Shape α
  x : α
  y : α
deriving BEq, Repr

namespace Placed
variable {α : Type} [Scalar α]

def extent (p : Placed α) : Bounds α := p.shape.extent.offset p.x p.y

end Placed

namespace Shape
variable {α : Type} [Scalar α]

mutual

/-- The leaves of a shape whose parent lies at `(ox, oy)`. -/
def leaves (ox oy : α) : Shape α → List (Placed α)
  | .group x y children _ => leavesAll (ox + x) (oy + y) children
  | .point p => [⟨.point p, ox, oy⟩]
  | .path p => [⟨.path p, ox, oy⟩]
  | .text t => [⟨.text t, ox, oy⟩]
  | .rect o => [⟨.rect o, ox, oy⟩]
  | .frame o => [⟨.frame o, ox, oy⟩]
  | .diamond o => [⟨.diamond o, ox, oy⟩]

def leavesAll (ox oy : α) : List (Shape α) → List (Placed α)
  | [] => []
  | s :: rest => leaves ox oy s ++ leavesAll ox oy rest

end

theorem leavesAll_append (ox oy : α) (s t : List (Shape α)) :
    leavesAll ox oy (s ++ t) = leavesAll ox oy s ++ leavesAll ox oy t := by
  induction s with
  | nil => rfl
  | cons first rest ih => simp [leavesAll, ih]

end Shape

/-- All leaves, placeholders among them, in drawing order. -/
def Layout.leaves {α : Type} [Scalar α] (l : Layout α) : List (Placed α) :=
  l.root.toShape.leaves 0 0

end Flowchart
