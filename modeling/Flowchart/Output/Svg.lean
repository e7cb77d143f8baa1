import Flowchart.Shape.Layout
import Flowchart.Measure.Approx
/-!
Layouts as SVG. Each shape that is shown becomes one element, in drawing order; texts and attributes
are escaped, so that nothing in them can end the place they stand in.
-/
namespace Flowchart.Svg

/-- Every occurrence of a character replaced by an entity. -/
def replaced (c : Char) (entity : String) (s : List Char) : List Char :=
  s.flatMap fun x => if x = c then entity.toList else [x]

/-- The ampersand goes first: every later entity brings one. -/
def escape (s : String) : String :=
  .ofList <| replaced '\'' "&apos;" <| replaced '"' "&quot;" <| replaced '>' "&gt;" <|
    replaced '<' "&lt;" <| replaced '&' "&amp;" s.toList

/-- A tag as it is written, with the text between it and the next one. The name of a closing tag
begins with a slash. -/
structure Tag where
  name : String
  attributes : List (String × String)
  /-- Whether the tag closes its own element. -/
  isSingle : Bool
  content : String
deriving DecidableEq, Repr

def attr (name value : String) : String := " " ++ name ++ "=\"" ++ value ++ "\""

namespace Tag

def write (t : Tag) : String :=
  "<" ++ t.name ++ String.join (t.attributes.map fun (name, value) => attr name value)
    ++ (if t.isSingle then "/>" else ">") ++ t.content

def start (name : String) (attributes : List (String × String)) (content : String) : Tag :=
  ⟨name, attributes, false, content⟩

def stop (name : String) : Tag := ⟨"/" ++ name, [], false, ""⟩

def single (name : String) (attributes : List (String × String)) : Tag :=
  ⟨name, attributes, true, ""⟩

end Tag

def bag (style : Attrs) : List (String × String) :=
  style.entries.map fun (name, value) => (escape name, escape value)

def number (x : Float32) : String := Decimal.twoPlaces x

def moveText : Move Float32 → String
  | .horizontal d => " h " ++ number d
  | .vertical d => " v " ++ number d

/-- A start and the moves from there. -/
def pathText (x y : Float32) (moves : List (Move Float32)) : String :=
  "M " ++ number x ++ " " ++ number y ++ String.join (moves.map moveText)

/-- The middles of the four sides, from the top clockwise. -/
def corners {α : Type} [Scalar α] (x y w h : α) : List (α × α) :=
  [(x + w / 2.0, y), (x + w, y + h / 2.0), (x + w / 2.0, y + h), (x, y + h / 2.0)]

def cornerText (x y w h : Float32) : String :=
  " ".intercalate ((corners x y w h).map fun p => number p.1 ++ "," ++ number p.2)

def boxAttributes (x y w h : Float32) : List (String × String) :=
  [("x", number x), ("y", number y), ("width", number w), ("height", number h)]

/-- How far the baseline lies below the middle of a text, relative to its size. -/
def baselineDrop : Float32 := 0.35

/-- The tags of a leaf whose parent lies at `(ox, oy)`; a placeholder has none. -/
def leafTags (config : Config Float32) (ox oy : Float32) : Shape Float32 → List Tag
  | .point q =>
    if q.isPlaceholder then []
    else [.single "circle" [("cx", number (ox + q.x)), ("cy", number (oy + q.y)), ("r", "2.5"),
      ("fill", "#E0413A")]]
  | .rect o =>
    [.single "rect" (boxAttributes (ox + o.x) (oy + o.y) o.width o.height
      ++ bag config.rect.attrs)]
  | .frame o =>
    [.single "rect" (boxAttributes (ox + o.x) (oy + o.y) o.width o.height
      ++ bag config.frame.attrs)]
  | .diamond o =>
    [.single "polygon" (("points", cornerText (ox + o.x) (oy + o.y) o.width o.height)
      :: bag config.diamond.attrs)]
  | .path p =>
    [.single "path" (("d", pathText (ox + p.x) (oy + p.y) p.moves) :: bag config.path.attrs
      ++ (if p.isArrow then [("marker-end", "url(#arrow)")] else []))]
  | .text t =>
    let style := if t.isLabel then config.label.attrs else config.text.attrs
    let baseline := oy + t.y + Measure.fontSize style * baselineDrop
    [.start "text" ([("x", number (ox + t.x)), ("y", number baseline), ("text-anchor", "middle")]
      ++ bag style ++ [("xml:space", "preserve")]) (escape t.content), .stop "text"]
  | .group .. => []

mutual

def tags (config : Config Float32) (ox oy : Float32) : Shape Float32 → List Tag
  | .group x y children _ => tagsAll config (ox + x) (oy + y) children
  | leaf => leafTags config ox oy leaf

def tagsAll (config : Config Float32) (ox oy : Float32) : List (Shape Float32) → List Tag
  | [] => []
  | s :: rest => tags config ox oy s ++ tagsAll config ox oy rest

end

/-- The least scale of a finished drawing. -/
def leastScale : Float32 := 0.01

def opening (layout : Layout Float32) (config : Config Float32) : List Tag :=
  let scale := Scalar.atLeast leastScale config.render.scale
  let head := Decimal.NumberStyle.bare.single config.arrowHead.size
  [.start "svg" [("xmlns", "http://www.w3.org/2000/svg"),
      ("width", number (layout.width * scale)), ("height", number (layout.height * scale)),
      ("viewBox", "0 0 " ++ number layout.width ++ " " ++ number layout.height)] "",
    .single "rect" [("width", "100%"), ("height", "100%"),
      ("fill", escape config.render.background)],
    .start "defs" [] "",
    .start "marker" [("id", "arrow"), ("viewBox", "0 0 10 10"), ("refX", "10"), ("refY", "5"),
      ("markerUnits", "userSpaceOnUse"), ("markerWidth", head), ("markerHeight", head),
      ("orient", "auto-start-reverse")] "",
    .single "path" (("d", "M 0 0 L 10 5 L 0 10 z") :: bag config.arrowHead.attrs),
    .stop "marker", .stop "defs"]

def picture (layout : Layout Float32) (config : Config Float32) : List Tag :=
  opening layout config ++ tags config 0 0 layout.root.toShape ++ [.stop "svg"]

def render (layout : Layout Float32) (config : Config Float32) : String :=
  String.join ((picture layout config).map Tag.write)

end Flowchart.Svg
