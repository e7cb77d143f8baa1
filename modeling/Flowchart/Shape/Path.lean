import Flowchart.Shape.Bounds
/-!
Connectors: runs of horizontal and vertical moves. A path keeps the bounds of its vertices,
relative to its start, as it grows.
-/
namespace Flowchart

inductive Move (α : Type) where
  | horizontal (d : α)
  | vertical (d : α)
deriving BEq, DecidableEq, Repr

/-- `(x, y)` is where the path starts; `tip` is where it ends, relative to the start. -/
structure Path (α : Type) where
  x : α
  y : α
  moves : List (Move α)
  isArrow : Bool
  bounds : Bounds α
  tip : α × α
deriving BEq, DecidableEq, Repr

namespace Move
variable {α : Type} [Scalar α]

def distance : Move α → α
  | .horizontal d | .vertical d => d

def apply (p : α × α) : Move α → α × α
  | .horizontal d => (p.1 + d, p.2)
  | .vertical d => (p.1, p.2 + d)

end Move

namespace Path
variable {α : Type} [Scalar α]

def start (x y : α) : Path α := ⟨x, y, [], false, .zero, (0, 0)⟩

/-- Appends a move; a move of no length leaves no trace. -/
def push (p : Path α) (m : Move α) : Path α :=
  if m.distance == 0 then p
  else
    let (x, y) := m.apply p.tip
    { p with
      moves := p.moves ++ [m]
      bounds :=
        ⟨min p.bounds.minX x, min p.bounds.minY y, max p.bounds.maxX x, max p.bounds.maxY y⟩
      tip := (x, y) }

def horizontal (p : Path α) (d : α) : Path α := p.push (.horizontal d)

def vertical (p : Path α) (d : α) : Path α := p.push (.vertical d)

def across (x y length : α) : Path α := (start x y).horizontal length

def down (x y length : α) : Path α := (start x y).vertical length

def withArrow (p : Path α) : Path α := { p with isArrow := true }

def trace (p : α × α) : List (Move α) → List (α × α)
  | [] => []
  | m :: rest => m.apply p :: trace (m.apply p) rest

def vertices (p : Path α) : List (α × α) := (p.x, p.y) :: trace (p.x, p.y) p.moves

def segments (p : Path α) : List ((α × α) × (α × α)) := p.vertices.zip p.vertices.tail

theorem length_trace (p : α × α) (moves : List (Move α)) :
    (trace p moves).length = moves.length := by
  induction moves generalizing p with
  | nil => rfl
  | cons m rest ih => simp [trace, ih]

end Path
end Flowchart
