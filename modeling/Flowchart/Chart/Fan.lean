import Flowchart.Chart.Context
/-!
Branches side by side: the cases of a switch below its tap line, the handlers of a try beside its
frame. They are laid out from west to east and their trunks come together below all of them.
-/
namespace Flowchart

/-- The end of a live branch: its number, how far east it lies, and the y of its trunk's end. -/
structure BranchEnd (α : Type) where
  index : Nat
  dx : α
  tip : α
deriving Repr

/-- Branches laid out so far. `right` is how far east they reach, `lastDx` where the last one lies;
`breaks` holds the breaks that were taken out of them. -/
structure Fan (α : Type) where
  holder : Strand α
  reach : α
  right : α
  lastDx : α
  ends : List (BranchEnd α)
  breaks : List (α × α)
deriving Repr

/-- How branches fan out: from which line, where the first one lies unless it is placed like the
others, and whether breaks are taken out of them. -/
structure FanPlan (α : Type) where
  tap : α
  firstDx : Option α
  takesBreaks : Bool
deriving Repr

variable {α : Type} [Scalar α]

namespace Fan

def start (holder : Strand α) (right : α) : Fan α := ⟨holder, holder.reach, right, 0, [], []⟩

/-- The holder, brought down to the lowest of its branches. -/
def finish (f : Fan α) : Strand α := { f.holder with reach := f.reach }

end Fan

namespace Context
variable (x : Context α)

def labelBranch (text : String) (arm : Strand α) : Strand α :=
  if text.isEmpty then arm
  else
    let size := x.labelSize text
    let (pos, arm) := arm.takeBand (arm.reach + labelGap) size.height
    arm.drawLabel text size (size.width / 2.0 + labelGap) (pos + size.height / 2.0)

def openBranch (plan : FanPlan α) (label : String) (f : Fan α) : Strand α :=
  x.labelBranch label { f.holder.fork with tip := some plan.tap }

/-- How far east the next branch lies: clear of all before it, unless the plan places it. -/
def branchDx (plan : FanPlan α) (index : Nat) (arm : Strand α) (f : Fan α) : α :=
  match index, plan.firstDx with
  | 0, some dx => dx
  | _, _ => f.right + x.config.stepX - arm.group.extent.minX

def branchEnd (index : Nat) (dx : α) (arm : Strand α) : List (BranchEnd α) :=
  match arm.liveTip with
  | some tip => [⟨index, dx, tip⟩]
  | none => []

def closeBranch (plan : FanPlan α) (index : Nat) (arm : Strand α) (f : Fan α) : Fan α :=
  let dx := x.branchDx plan index arm f
  let taken := if plan.takesBreaks then arm.breaks.map fun p => (p.1 + dx, p.2) else []
  let rest := if plan.takesBreaks then { arm with breaks := [] } else arm
  { holder := { f.holder.absorb rest dx with lanes := arm.lanes }
    reach := max f.reach arm.reach
    right := max f.right (dx + arm.group.extent.maxX)
    lastDx := dx
    ends := f.ends ++ branchEnd index dx arm
    breaks := f.breaks ++ taken }

/-- Joins the ends of trunks below everything laid out so far. The easternmost one leads back to
x = 0, the others drop straight down. -/
def joinEnds (ends : List (α × α)) (holder : Strand α) : Strand α :=
  let (y, holder) := holder.takeLine holder.reach
  let far := (ends.map Prod.fst).foldl max 0
  let holder := ends.foldl (fun h (dx, tip) =>
    if dx == far && decide (0 < dx) then
      h.draw (.path (((Path.start dx tip).vertical (y - tip)).horizontal (-dx)).withArrow)
    else h.draw (.path (Path.down dx tip (y - tip)))) holder
  { holder with tip := some y, alive := true }

def adopt (holder c : Strand α) : Strand α :=
  { c.absorb holder 0 with
    tip := holder.tip
    alive := holder.alive
    reach := max c.reach holder.reach
    lanes := holder.lanes }

def openSwitch (subject : String) (c : Strand α) : DecisionBox α × α × Strand α :=
  let holder := c.switchHolder
  let diamond := x.diamond subject
  let start := holder.startBelow x.config.stepY
  let (pos, holder) := holder.takeBand start (diamond.bounds.height + 2.0 * c.pad)
  let (box, holder) := holder.drawDecision diamond (pos + c.pad)
  let holder := { holder with tip := some box.bottom }
  let (tap, holder) := holder.takeLine holder.reach
  (box, tap, holder.trunkTo tap false)

def drawTap (tap lastDx : α) (holder : Strand α) : Strand α :=
  if 0 < lastDx then holder.draw (.path (Path.across 0 tap lastDx)) else holder

def settleEnds (ends : List (BranchEnd α)) (holder : Strand α) : Strand α :=
  match ends with
  | [] => { holder with alive := false }
  | [⟨0, _, tip⟩] => { holder with tip := some tip }
  | ends => joinEnds (ends.map fun e => (e.dx, e.tip)) holder

def gatherBreaks (breaks : List (α × α)) (holder : Strand α) : Strand α :=
  if breaks.isEmpty then holder
  else
    let lane := holder.eastLane x.config.stepX
    let (exit, holder) := holder.takeLine holder.reach
    { (holder.dropDeadTip.trunkTo exit false).route .out breaks lane exit with alive := true }

def closeSwitch (tap : α) (f : Fan α) (c : Strand α) : Strand α :=
  adopt (x.gatherBreaks f.breaks (settleEnds f.ends (drawTap tap f.lastDx f.finish))) c

/-- Reserves the line of a frame's top; also the holder, and the body that begins in the frame. -/
def openTry (c : Strand α) : α × Strand α × Strand α :=
  let holder := c.fork
  let (top, holder) := holder.takeLine (holder.startBelow x.config.stepY)
  let entered := holder.tip.isSome
  let holder := holder.trunkTo top false
  let body := holder.fork
  (top, holder,
    { body with
      reach := body.reach + x.config.frame.padY
      tip := if entered then some top else none })

/-- A try whose body is laid out: its holder with the frame drawn, the y and the right end of the
frame's lower side, and the end of the body if it is alive. -/
structure Framed (α : Type) where
  holder : Strand α
  bottom : α
  right : α
  ends : List (α × α)

def closeFrame (top : α) (body holder : Strand α) : Framed α :=
  let padX := x.config.frame.padX
  let (bottom, body) := body.takeLine (body.reach + x.config.frame.padY)
  let ends := if body.alive then [(0, bottom)] else []
  let body := if body.alive then body.trunkTo bottom false else body
  let bounds := body.group.extent
  let left := min bounds.minX 0 - padX
  let right := max bounds.maxX 0 + padX
  let holder := { holder with reach := max holder.reach body.reach, lanes := body.lanes }
  let holder := (holder.absorb body 0).draw (.frame ⟨left, top, right - left, bottom - top⟩)
  { holder, bottom, right, ends }

def closeTry (tap : α) (framed : Framed α) (f : Fan α) (c : Strand α) : Strand α :=
  let bus := (Path.start framed.right framed.bottom).vertical (tap - framed.bottom)
  let holder := f.finish.draw (.path (bus.horizontal (f.lastDx - framed.right)))
  let ends := framed.ends ++ f.ends.map fun e => (e.dx, e.tip)
  let holder := if ends.isEmpty then { holder with alive := false } else joinEnds ends holder
  adopt holder c

end Context
end Flowchart
