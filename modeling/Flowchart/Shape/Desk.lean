import Flowchart.Shape.Layout
/-!
Shapes built step by step, under names. A history of inputs is replayed from an empty desk.
-/
namespace Flowchart

inductive ShapeInput (α : Type) where
  | make (name : String) (s : Shape α)
  | push (name child : String)
  | shift (name : String) (dx dy : α)
  | extend (name : String) (moves : List (Move α))
deriving Repr

namespace Shape
variable {α : Type} [Scalar α]

def adopt (s child : Shape α) : Shape α :=
  match s with
  | .group x y children bounds => ((⟨x, y, children, bounds⟩ : Group α).push child).toShape
  | s => s

def extend (s : Shape α) (moves : List (Move α)) : Shape α :=
  match s with
  | .path p => .path (moves.foldl Path.push p)
  | s => s

def isEmptyGroup? : Shape α → Option Bool
  | .group x y children bounds => some (⟨x, y, children, bounds⟩ : Group α).isEmpty
  | _ => none

/-- A shape as the root of a layout; what is no group is put into one. -/
def asGroup : Shape α → Group α
  | .group x y children bounds => ⟨x, y, children, bounds⟩
  | s => Group.empty.push s

end Shape

structure ShapeDesk (α : Type) where
  shapes : List (String × Shape α)
deriving Repr

namespace ShapeDesk
variable {α : Type} [Scalar α]

def empty : ShapeDesk α := ⟨[]⟩

def get? (d : ShapeDesk α) (name : String) : Option (Shape α) :=
  (d.shapes.find? (·.1 == name)).map Prod.snd

def put (d : ShapeDesk α) (name : String) (s : Shape α) : ShapeDesk α :=
  ⟨(name, s) :: d.shapes.filter (·.1 != name)⟩

def modify (d : ShapeDesk α) (name : String) (f : Shape α → Shape α) : ShapeDesk α :=
  match d.get? name with
  | some s => d.put name (f s)
  | none => d

def update (d : ShapeDesk α) : ShapeInput α → ShapeDesk α
  | .make name s => d.put name s
  | .push name child =>
    match d.get? child with
    | some s => d.modify name (·.adopt s)
    | none => d
  | .shift name dx dy => d.modify name (·.shift dx dy)
  | .extend name moves => d.modify name (·.extend moves)

def replay : ShapeDesk α → List (ShapeInput α) → ShapeDesk α
  | d, [] => d
  | d, input :: rest => replay (d.update input) rest

end ShapeDesk
end Flowchart
