import Flowchart.Chart.Jump
import Flowchart.Lane.RangeSet
import Flowchart.Shape.Layout
/-!
The working state of one branch of a chart. All branches share the y axis; a branch is laid out
around its own trunk at x = 0 and is moved east once, when it is merged into its parent.

Horizontal bands are reserved in two sets. What crosses the trunk on its way west, and all content,
takes a band in `west`; a line that leaves eastwards takes its band in `east`, and content dodges
those. Sibling branches share both sets. A loop body has a west set of its own above its floor and
a copy of the east set, and gives both back when it is left.
-/
namespace Flowchart

/-- The constructs that jumps refer to. -/
inductive JumpTarget where
  | whileLoop
  | doWhile
  | forLoop
  | switch
deriving DecidableEq, Repr

namespace JumpTarget

def leaveDirection (_ : JumpTarget) : Direction := .east

def resumeDirection : JumpTarget → Except LayoutFault Direction
  | .whileLoop | .forLoop => .ok .west
  | .doWhile => .ok .east
  | .switch => .error .continueInSwitch

end JumpTarget

/-- The reserved bands of a branch. -/
structure Lanes (α : Type) where
  west : RangeSet α
  east : RangeSet α
deriving BEq, Repr

namespace Lanes
variable {α : Type} [Scalar α]

def empty : Lanes α := ⟨.empty, .empty⟩

/-- Places a band of content: it dodges the lines that leave eastwards. -/
def placeBand (l : Lanes α) (start size : α) : α × Lanes α :=
  let pos := l.east.firstFit start size
  (pos, { l with west := l.west.reserve pos size })

/-- Places the band of a line that leaves the branch: it dodges everything, and one that leaves
eastwards is in the way of later siblings. -/
def placeExit? (l : Lanes α) (start size : α) (alsoEast : Bool) : Option (α × Lanes α) :=
  (l.west.commonFit? l.east start size).map fun pos =>
    (pos,
      { west := l.west.reserve pos size
        east := if alsoEast then l.east.reserve pos size else l.east })

def inner (l : Lanes α) (top : α) : Lanes α := ⟨.above top, l.east⟩

def fold (l body : Lanes α) : Lanes α := ⟨l.west.fold body.west, l.east.fold body.east⟩

end Lanes

/-- Why several points are routed together: back to the head of a loop, on to the condition of a
`do`, from that condition back up, or out of a construct. -/
inductive RouteRole where
  | back
  | onward
  | again
  | out
deriving DecidableEq, Repr

/-- What the journal of a branch tells of one connector: a piece of trunk with its ends, or points
that were routed along a lane to a target, with the drawing as it was before. -/
inductive Stroke (α : Type) where
  | trunk (top bottom : α)
  | route (role : RouteRole) (points : List (α × α)) (lane target : α) (drawing : Group α)
deriving Repr

/-- `reach` is the lowest y in use, `tip` the end of the trunk once there is one. `breaks` and
`continues` are the points where pending jumps left; `pad` is half the line margin, which every
horizontal line keeps on both sides. -/
structure Strand (α : Type) where
  group : Group α
  reach : α
  tip : Option α
  lanes : Lanes α
  breakTarget : Option JumpTarget
  continueTarget : Option JumpTarget
  breaks : List (α × α)
  continues : List (α × α)
  alive : Bool
  pad : α
  debug : Bool
  journal : List (Stroke α)
deriving Repr

namespace Strand
variable {α : Type} [Scalar α]

def root (pad : α) (debug : Bool) : Strand α where
  group := .empty
  reach := 0
  tip := none
  lanes := .empty
  breakTarget := none
  continueTarget := none
  breaks := []
  continues := []
  alive := true
  pad
  debug
  journal := []

/-- A branch beside this one, under the same targets. -/
def fork (c : Strand α) : Strand α :=
  { c with group := .empty, breaks := [], continues := [], alive := true, journal := [] }

def loopBody (c : Strand α) (kind : JumpTarget) : Strand α :=
  { c.fork with
    lanes := c.lanes.inner c.reach
    breakTarget := some kind
    continueTarget := some kind }

/-- The holder of a switch. It shares its lanes, since a `continue` in a case still crosses the
branches around it. -/
def switchHolder (c : Strand α) : Strand α := { c.fork with breakTarget := some .switch }

def reclaim (c body : Strand α) : Strand α :=
  { c with lanes := c.lanes.fold body.lanes, reach := max c.reach body.reach }

def draw (c : Strand α) (s : Shape α) : Strand α := { c with group := c.group.push s }

/-- Moves a branch east and adopts its shapes and its pending jumps. -/
def absorb (c child : Strand α) (dx : α) : Strand α :=
  let moved := child.group.shift dx 0
  let east (p : α × α) : α × α := (p.1 + dx, p.2)
  let merged :=
    { c with
      group := c.group.push moved.toShape
      breaks := c.breaks ++ child.breaks.map east
      continues := c.continues ++ child.continues.map east
      journal := c.journal ++ child.journal }
  if c.debug && !child.group.isEmpty then
    let b := moved.extent
    merged.draw (.frame ⟨b.minX, b.minY, b.width, b.height⟩)
  else merged

def takeBand (c : Strand α) (start size : α) : α × Strand α :=
  let (pos, lanes) := c.lanes.placeBand start size
  (pos, { c with lanes, reach := max c.reach (pos + size) })

def takeExit (c : Strand α) (start size : α) (alsoEast : Bool) :
    Except LayoutFault (α × Strand α) :=
  match c.lanes.placeExit? start size alsoEast with
  | some (pos, lanes) => .ok (pos, { c with lanes, reach := max c.reach (pos + size) })
  | none => .error .endlessSearch

/-- Takes a band in which one horizontal line lies, and answers the y of that line. -/
def takeLine (c : Strand α) (start : α) : α × Strand α :=
  let (pos, c) := c.takeBand start (2.0 * c.pad)
  (pos + c.pad, c)

/-- Where the next element may start: `gap` below what is drawn, if anything is. -/
def startBelow (c : Strand α) (gap : α) : α :=
  match c.tip with
  | some _ => c.reach + gap
  | none => c.reach

def trunkTo (c : Strand α) (y : α) (arrow : Bool) : Strand α :=
  match c.tip with
  | some tip =>
    let line := Path.down 0 tip (y - tip)
    { c.draw (.path (if arrow then line.withArrow else line)) with
      tip := some y
      journal := c.journal ++ [.trunk tip y] }
  | none => { c with tip := some y }

/-- Where a jump leaves this branch for the construct that it refers to. -/
def headingOf (c : Strand α) : Jump → Except LayoutFault Direction
  | .leave =>
    match c.breakTarget with
    | some target => .ok target.leaveDirection
    | none => .error .breakOutside
  | .resume =>
    match c.continueTarget with
    | some target => target.resumeDirection
    | none => .error .continueOutside

def noteJump (c : Strand α) (j : Jump) (point : α × α) : Strand α :=
  let noted := match j with
    | .leave => { c with breaks := c.breaks ++ [point] }
    | .resume => { c with continues := c.continues ++ [point] }
  if c.debug then noted.draw (.point ⟨point.1, point.2, false⟩) else noted

end Strand
end Flowchart
