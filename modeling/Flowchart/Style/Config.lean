import Flowchart.Scalar
import Flowchart.Style.Attrs
import Flowchart.Pseudocode.Line
/-!
Everything about a chart that can be configured: distances, styles, the words on the exits of a
decision, and how a source marks comments and indentation.
-/
namespace Flowchart

/-- A box that keeps a distance from what it holds. -/
structure BoxStyle (α : Type) where
  attrs : Attrs
  padX : α
  padY : α
deriving BEq, Repr

/-- A decision around a caption `w` by `h` is `w + h / aspectRatio` wide and `h + w * aspectRatio`
high. -/
structure DiamondStyle (α : Type) where
  attrs : Attrs
  aspectRatio : α
deriving BEq, Repr

structure PlainStyle where
  attrs : Attrs
deriving BEq, Repr

structure ArrowHeadStyle (α : Type) where
  attrs : Attrs
  size : α
deriving BEq, Repr

/-- How the finished drawing is shown: its outer size over its own, and what is behind it. -/
structure RenderStyle (α : Type) where
  scale : α
  background : String
deriving BEq, Repr

structure Config (α : Type) where
  marginX : α
  marginY : α
  /-- Between sibling branches, and between what is drawn and a lane beside it. -/
  stepX : α
  /-- Between consecutive nodes of one trunk. -/
  stepY : α
  /-- The least vertical distance of two horizontal lines that share more than a point in x. -/
  hlineMargin : α
  theme : String
  rect : BoxStyle α
  diamond : DiamondStyle α
  path : PlainStyle
  text : PlainStyle
  label : PlainStyle
  frame : BoxStyle α
  arrowHead : ArrowHeadStyle α
  yesText : String
  noText : String
  commentMarker : String
  indentChars : String
  /-- Whether branches get frames and jumps get markers. -/
  debug : Bool
  render : RenderStyle α
deriving BEq, Repr

namespace Config
variable {α : Type}

def lexis (c : Config α) : Lexis := ⟨c.indentChars.toList, c.commentMarker.toList⟩

/-- The built-in values, apart from what a theme sets. -/
def plain [Scalar α] : Config α where
  marginX := 20.0
  marginY := 20.0
  stepX := 24.0
  stepY := 20.0
  hlineMargin := 10.0
  theme := "classic"
  rect := ⟨.ofList [("stroke-width", "1.4"), ("rx", "4")], 12.0, 8.0⟩
  diamond := ⟨.ofList [("stroke-width", "1.4")], 0.5⟩
  path := ⟨.ofList [("stroke-width", "1.4"), ("fill", "none")]⟩
  text := ⟨.empty⟩
  label := ⟨.empty⟩
  frame :=
    ⟨.ofList [("stroke-width", "1.2"), ("stroke-dasharray", "6 4"), ("fill", "none")], 10.0, 10.0⟩
  arrowHead := ⟨.empty, 7.0⟩
  yesText := "Y"
  noText := "N"
  commentMarker := "#"
  indentChars := " \t"
  debug := false
  render := ⟨1.0, "#FFFFFF"⟩

end Config
end Flowchart
