import Flowchart.Shape.Layout
import Flowchart.Json.Document
/-!
A flat list of what a layout shows, in absolute coordinates, for tools that compare drawings.
-/
namespace Flowchart

/-- One shape: its kind and bounds, the content of a text, the vertices of a path. -/
structure ShapeEntry (α : Type) where
  kind : String
  x : α
  y : α
  width : α
  height : α
  content : Option String
  isLabel : Bool
  isArrow : Bool
  points : List (α × α)
deriving BEq, Repr

structure Dump (α : Type) where
  width : α
  height : α
  shapes : List (ShapeEntry α)
deriving BEq, Repr

namespace Placed
variable {α : Type} [Scalar α]

def isShown (p : Placed α) : Bool := !p.shape.isPlaceholder

def entry (p : Placed α) : ShapeEntry α :=
  let b := p.extent
  let plain : ShapeEntry α :=
    { kind := p.shape.kindWord, x := b.minX, y := b.minY, width := b.width, height := b.height
      content := none, isLabel := false, isArrow := false, points := [] }
  match p.shape with
  | .text t => { plain with content := some t.content, isLabel := t.isLabel }
  | .path path =>
    let start := (path.x + p.x, path.y + p.y)
    { plain with isArrow := path.isArrow, points := start :: Path.trace start path.moves }
  | _ => plain

end Placed

/-- The shapes of a layout in drawing order, placeholders left out. -/
def Layout.dump {α : Type} [Scalar α] (l : Layout α) : Dump α :=
  ⟨l.width, l.height, (l.leaves.filter Placed.isShown).map Placed.entry⟩

namespace ShapeEntry

/-- An entry as a document; fields that say nothing are left out. -/
def document (number : Float32 → Document) (e : ShapeEntry Float32) : Document :=
  .object <|
    [("kind", .text e.kind), ("x", number e.x), ("y", number e.y), ("width", number e.width),
      ("height", number e.height)]
      ++ (e.content.map fun text => ("content", .text text)).toList
      ++ (if e.isLabel then [("isLabel", .bool true)] else [])
      ++ (if e.isArrow then [("isArrow", .bool true)] else [])
      ++ (if e.points.isEmpty then []
        else [("points", .list (e.points.map fun p => .list [number p.1, number p.2]))])

end ShapeEntry

def Dump.document (number : Float32 → Document) (d : Dump Float32) : Document :=
  .object [("width", number d.width), ("height", number d.height),
    ("shapes", .list (d.shapes.map (·.document number)))]

end Flowchart
