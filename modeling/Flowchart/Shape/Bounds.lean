import Flowchart.Scalar
/-!
Rectangles that bound a drawing. The y axis points down.
-/
namespace Flowchart

structure Bounds (α : Type) where
  minX : α
  minY : α
  maxX : α
  maxY : α
deriving BEq, DecidableEq, Repr

namespace Bounds
variable {α : Type} [Scalar α]

def zero : Bounds α := ⟨0, 0, 0, 0⟩

def ofSize (width height : α) : Bounds α := ⟨0, 0, width, height⟩

/-- The least rectangle around both. -/
def union (a b : Bounds α) : Bounds α :=
  ⟨min a.minX b.minX, min a.minY b.minY, max a.maxX b.maxX, max a.maxY b.maxY⟩

def offset (b : Bounds α) (dx dy : α) : Bounds α :=
  ⟨b.minX + dx, b.minY + dy, b.maxX + dx, b.maxY + dy⟩

def width (b : Bounds α) : α := b.maxX - b.minX

def height (b : Bounds α) : α := b.maxY - b.minY

end Bounds
end Flowchart
