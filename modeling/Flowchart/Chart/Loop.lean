import Flowchart.Chart.Context
/-!
Loops. A `while` tests at its head: its body returns to the entry in a lane west of it, and the
test and all breaks leave in a lane east of it. A `do` tests at its foot, where the continues of its
body arrive too.
-/
namespace Flowchart.Context
variable {α : Type} [Scalar α] (x : Context α)

/-- The line at which a loop is entered again, and its y. -/
def enter (c : Strand α) : α × Strand α :=
  let (entry, c) := c.takeLine (c.startBelow x.halfGap)
  (entry, c.trunkTo entry false)

def openWhile (test : String) (c : Strand α) : DecisionBox α × Strand α :=
  let body := c.loopBody .whileLoop
  let diamond := x.diamond test
  let band := diamond.bounds.height + 2.0 * c.pad + x.yesSize.height
  let (pos, body) := body.takeBand (body.reach + x.halfGap) band
  let (box, body) := body.drawDecision diamond (pos + c.pad)
  let body := body.labelExit x.config.yesText x.yesSize .south box
  let body := body.labelExit x.config.noText x.noSize .east box
  (box, { body with tip := some box.bottom })

/-- The points that return to the head of a `while`: its continues, and the end of its trunk. -/
def gatherBack (body : Strand α) : Except LayoutFault (List (α × α) × Strand α) :=
  let points := body.continues
  let body := { body with continues := [] }
  if body.alive then do
    let (pos, body) ← body.takeExit (body.reach + x.halfGap) (2.0 * body.pad) false
    let y := pos + body.pad
    .ok (points ++ [(0, y)], body.trunkTo y false)
  else .ok (points, body)

def routeBack (back : List (α × α)) (entry : α) (body : Strand α) : Strand α :=
  if back.isEmpty then body else body.route .back back (body.westLane x.config.stepX) entry

def closeWhile (entry : α) (box : DecisionBox α) (back : List (α × α)) (body c : Strand α) :
    Strand α :=
  let body := x.routeBack back entry body
  let exits := (box.width / 2.0, box.middle) :: body.breaks
  let body := { body with breaks := [] }
  let c := c.reclaim body
  let lane := body.eastLane x.config.stepX
  let (exit, c) := c.takeLine c.reach
  let c := c.absorb (body.route .out exits lane exit) 0
  { c with tip := some exit, alive := true }

/-- Brings the continues of a `do` body together above its test. -/
def gatherOnward (body : Strand α) : Strand α :=
  let skips := body.continues
  let body := { body with continues := [] }
  if skips.isEmpty then body
  else
    let lane := body.eastLane x.config.stepX
    let (y, body) := body.takeLine (body.reach + x.halfGap)
    let body := (body.dropDeadTip.trunkTo y false).route .onward skips lane y
    { body with alive := true }

def testDo (test : String) (entry : α) (body : Strand α) : DecisionBox α × Strand α :=
  let diamond := x.diamond test
  let band := diamond.bounds.height + 2.0 * body.pad + x.noSize.height
  let (pos, body) := body.takeBand (body.reach + x.config.stepY) band
  let (box, body) := body.dropDeadTip.drawDecision diamond (pos + body.pad)
  let body := body.labelExit x.config.yesText x.yesSize .west box
  let body := body.labelExit x.config.noText x.noSize .south box
  let lane := body.westLane x.config.stepX
  let body := body.route .again [(-box.width / 2.0, box.middle)] lane entry
  (box, { body with tip := some box.bottom })

def closeDo (test : String) (entry : α) (body c : Strand α) : Strand α :=
  let (box, body) := x.testDo test entry (x.gatherOnward body)
  let breaks := body.breaks
  let body := { body with breaks := [] }
  let c := c.reclaim body
  if breaks.isEmpty then
    { c.absorb body 0 with tip := some box.bottom, alive := true }
  else
    let lane := body.eastLane x.config.stepX
    let (exit, c) := c.takeLine c.reach
    let body := (body.trunkTo exit false).route .out breaks lane exit
    { c.absorb body 0 with tip := some exit, alive := true }

end Flowchart.Context
