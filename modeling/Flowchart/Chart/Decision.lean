import Flowchart.Chart.Context
/-!
Decisions. An arm that begins with a jump has no body of its own: the decision leads straight into
the lane of the jump. Otherwise the block for "yes" goes on below the decision, and the one for "no"
beside it, or below it if "yes" is a jump.
-/
namespace Flowchart

/-- How a decision is left: into a block below it, into a block beside it, or by a jump. -/
inductive Exit where
  | south
  | east
  | jump (j : Jump) (d : Direction)
deriving DecidableEq, Repr

namespace Exit

def direction : Exit → Direction
  | .south => .south
  | .east => .east
  | .jump _ d => d

def jump? : Exit → Option (Jump × Direction)
  | .jump j d => some (j, d)
  | _ => none

/-- The exits for "yes" and "no", given the jumps that their blocks consist of. Two jumps in one
direction leave only the first as an exit; the second one is laid out as a block. -/
def choose (yes no : Option (Jump × Direction)) : Exit × Exit :=
  match yes, no with
  | some (j, d), some (k, e) => (.jump j d, if d = e then .south else .jump k e)
  | some (j, d), none => (.jump j d, .south)
  | none, some (k, e) => (.south, .jump k e)
  | none, none => (.south, .east)

def chosen (yes no : Option (Jump × Direction)) : Except LayoutFault (Exit × Exit) :=
  let exits := choose yes no
  if exits.1.direction = exits.2.direction then .error (.exitsAlike exits.1.direction)
  else .ok exits

end Exit

variable {α : Type} [Scalar α]

/-- A jump that a decision leads straight into, and where it leads. -/
def Strand.aim (c : Strand α) : Option Jump → Except LayoutFault (Option (Jump × Direction))
  | some j => do
    let d ← c.headingOf j
    .ok (some (j, d))
  | none => .ok none

def Strand.armFrom (c : Strand α) (tip : α) : Strand α := { c.fork with tip := some tip }

/-- The strand with what a finished branch reserved. -/
def Strand.share (c arm : Strand α) : Strand α := { c with lanes := arm.lanes }

namespace Context
variable (x : Context α)

def exitJumps (exits : Exit × Exit) : List (Jump × Direction) :=
  [exits.1, exits.2].filterMap Exit.jump?

/-- Takes the band of a decision, which dodges everything if it is left by a jump. -/
def takeDecision (test : String) (exits : Exit × Exit) (c : Strand α) :
    Except LayoutFault (α × Strand α) :=
  let band := (x.diamond test).bounds.height + 2.0 * c.pad + max x.yesSize.height x.noSize.height
  let start := c.startBelow x.config.stepY
  if (exitJumps exits).isEmpty then .ok (c.takeBand start band) else c.takeExit start band false

/-- Keeps later siblings off the line of a jump that leaves eastwards at `middle`. -/
def claimEast (exits : Exit × Exit) (middle : α) (c : Strand α) : Strand α :=
  if (exitJumps exits).any (·.2 == .east) then
    { c with lanes :=
      { c.lanes with east := c.lanes.east.reserve (middle - c.pad) (2.0 * c.pad) } }
  else c

/-- Draws a decision at `top` with the labels of its exits and notes the jumps among them. -/
def drawExits (test : String) (exits : Exit × Exit) (top : α) (c : Strand α) :
    DecisionBox α × Strand α :=
  let (box, c) := c.drawDecision (x.diamond test) top
  let c := c.labelExit x.config.yesText x.yesSize exits.1.direction box
  let c := c.labelExit x.config.noText x.noSize exits.2.direction box
  let c := (exitJumps exits).foldl (fun c (j, d) =>
    c.noteJump j (if d = .east then box.width / 2.0 else -box.width / 2.0, box.middle)) c
  (box, c)

def openDecision (test : String) (exits : Exit × Exit) (c : Strand α) :
    Except LayoutFault (DecisionBox α × Strand α) := do
  let (pos, c) ← x.takeDecision test exits c
  let top := pos + c.pad
  let c := claimEast exits (top + (x.diamond test).bounds.height / 2.0) c
  .ok (x.drawExits test exits top c)

def eastShift (box : DecisionBox α) (right : α) (arm : Strand α) : α :=
  max right (box.width / 2.0 + x.noSize.width + 2.0 * labelGap) + x.config.stepX
    - arm.group.extent.minX

/-- Merges the arm below a decision, whose trunk goes on as that of the decision. -/
def closeBelow (arm c : Strand α) : Strand α :=
  { c.absorb arm 0 with
    reach := max c.reach arm.reach
    tip := arm.liveTip.or c.tip
    lanes := arm.lanes
    alive := arm.alive }

/-- Merges the arm beside a decision after the one below, and joins its trunk with that below. -/
def closeBeside (box : DecisionBox α) (below arm c : Strand α) : Strand α :=
  let half := box.width / 2.0
  let dx := x.eastShift box (max half below.group.extent.maxX) arm
  let merged :=
    { (c.draw (.path (Path.across half box.middle (dx - half)))).absorb arm dx with
      reach := max c.reach arm.reach
      lanes := arm.lanes }
  if arm.alive then
    let tip := arm.tip.getD box.middle
    let (y, c) := merged.takeLine merged.reach
    let c := c.draw (.path (((Path.start dx tip).vertical (y - tip)).horizontal (-dx)).withArrow)
    { ({ c with tip := below.liveTip }).trunkTo y false with alive := true }
  else merged

end Context
end Flowchart
