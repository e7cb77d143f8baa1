import Flowchart.Chart.Strand
import Flowchart.Style.Config
/-!
What a chart is laid out with, and the pieces that several constructs draw: decisions, labels, and
the routes that bring several points together.
-/
namespace Flowchart

structure Size (α : Type) where
  width : α
  height : α
deriving BEq, DecidableEq, Repr

abbrev Measure (α : Type) := String → Attrs → Size α

structure Context (α : Type) where
  config : Config α
  measure : Measure α

/-- Where a decision lies on the trunk: its width, the y of its middle and of its lower corner. -/
structure DecisionBox (α : Type) where
  width : α
  middle : α
  bottom : α
deriving Repr

namespace Context
variable {α : Type} [Scalar α] (x : Context α)

/-- Between a label and the line it belongs to. -/
def labelGap : α := 4.0

def halfGap : α := x.config.stepY / 2.0

def captionSize (text : String) : Size α := x.measure text x.config.text.attrs

def labelSize (text : String) : Size α :=
  if text.isEmpty then ⟨0, 0⟩ else x.measure text x.config.label.attrs

def yesSize : Size α := x.labelSize x.config.yesText

def noSize : Size α := x.labelSize x.config.noText

def diamond (test : String) : Group α :=
  let size := x.captionSize test
  .decisionAround test size.width size.height x.config.diamond.aspectRatio

end Context

namespace Strand
variable {α : Type} [Scalar α]

def drawLabel (c : Strand α) (text : String) (size : Size α) (x y : α) : Strand α :=
  c.draw (.text ⟨x, y, size.width, size.height, text, true⟩)

def drawDecision (c : Strand α) (diamond : Group α) (top : α) : DecisionBox α × Strand α :=
  let width := diamond.bounds.width
  let height := diamond.bounds.height
  let c := (c.trunkTo top true).draw (diamond.shift (-width / 2.0) top).toShape
  (⟨width, top + height / 2.0, top + height⟩, c)

def labelExit (c : Strand α) (text : String) (size : Size α) (d : Direction)
    (box : DecisionBox α) : Strand α :=
  if text.isEmpty then c
  else
    let gap : α := Context.labelGap
    match d with
    | .south =>
      c.drawLabel text size (size.width / 2.0 + gap) (box.bottom + size.height / 2.0 + 1.0)
    | .east =>
      c.drawLabel text size (box.width / 2.0 + gap + size.width / 2.0)
        (box.middle - size.height / 2.0 - 1.0)
    | .west =>
      c.drawLabel text size (-box.width / 2.0 - gap - size.width / 2.0)
        (box.middle - size.height / 2.0 - 1.0)

def distance (target : α) (p : α × α) : α := Scalar.magnitude (p.2 - target)

/-- The points by their vertical distance from a target, the farthest first; equally far points
stay in order. -/
def farthestFirst (target : α) (points : List (α × α)) : List (α × α) :=
  points.mergeSort fun p q => Scalar.notFarther (distance target q) (distance target p)

/-- Routes points along a lane to the trunk at `target`. The farthest point draws the whole route,
the others only lead into the lane. -/
def route (c : Strand α) (role : RouteRole) (points : List (α × α)) (lane target : α) : Strand α :=
  let noted := { c with journal := c.journal ++ [.route role points lane target c.group] }
  match farthestFirst target points with
  | [] => noted
  | (x, y) :: rest =>
    let whole := (((Path.start x y).horizontal (lane - x)).vertical (target - y)).horizontal (-lane)
    rest.foldl (fun c (x, y) => c.draw (.path (Path.across x y (lane - x))))
      (noted.draw (.path whole.withArrow))

/-- Makes the end of a trunk that control cannot reach no end at all. -/
def dropDeadTip (c : Strand α) : Strand α := if c.alive then c else { c with tip := none }

def liveTip (arm : Strand α) : Option α := if arm.alive then arm.tip else none

def westLane (c : Strand α) (step : α) : α := c.group.extent.minX - step

def eastLane (c : Strand α) (step : α) : α := c.group.extent.maxX + step

end Strand
end Flowchart
