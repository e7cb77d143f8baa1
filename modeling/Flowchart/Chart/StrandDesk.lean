import Flowchart.Chart.Strand
import Flowchart.Lane.Pool
/-!
Strands that reserve side by side. Each strand on the desk has handles for its two lanes in a common
pool, so branches of one another see each other's bands in whatever order they are used.
-/
namespace Flowchart

/-- A strand and the handles of its lanes; the lanes in the strand itself are not looked at. -/
structure Seat (α : Type) where
  strand : Strand α
  west : Handle
  east : Handle
deriving Repr

inductive StrandInput (α : Type) where
  | root (name : String) (pad : α) (debug : Bool)
  | fork (name source : String)
  | loopBody (name source : String) (kind : JumpTarget)
  | switchHolder (name source : String)
  | reclaim (name body : String)
  | absorb (name child : String) (dx : α)
  | takeBand (name : String) (start size : α)
  | takeExit (name : String) (start size : α) (east : Bool)
  | startBelow (name : String) (gap : α)
  | trunkTo (name : String) (y : α) (arrow : Bool)
  | headingOf (name : String) (kind : NodeKind)
  | noteJump (name : String) (kind : NodeKind) (x y : α)
  | draw (name : String) (s : Shape α)
  | setTargets (name : String) (breakTarget continueTarget : Option JumpTarget)
  | setAlive (name : String) (alive : Bool)
deriving Repr

inductive StrandAnswer (α : Type) where
  | done
  | position (y : α)
  | heading (d : Direction)
deriving Repr

structure StrandDesk (α : Type) where
  pool : Pool α
  seats : List (String × Seat α)
deriving Repr

namespace StrandDesk
variable {α : Type} [Scalar α]

def empty : StrandDesk α := ⟨.empty, []⟩

def seat? (d : StrandDesk α) (name : String) : Option (Seat α) :=
  (d.seats.find? (·.1 == name)).map Prod.snd

def put (d : StrandDesk α) (name : String) (s : Seat α) : StrandDesk α :=
  { d with seats := (name, s) :: d.seats.filter (·.1 != name) }

def remove (d : StrandDesk α) (name : String) : StrandDesk α :=
  { d with seats := d.seats.filter (·.1 != name) }

/-- A strand with the present state of its lanes. -/
def load (d : StrandDesk α) (s : Seat α) : Strand α :=
  { s.strand with lanes := ⟨d.pool.get s.west, d.pool.get s.east⟩ }

def strand? (d : StrandDesk α) (name : String) : Option (Strand α) := (d.seat? name).map d.load

def save (d : StrandDesk α) (name : String) (s : Seat α) (c : Strand α) : StrandDesk α :=
  { d with pool := (d.pool.set s.west c.lanes.west).set s.east c.lanes.east }.put name
    { s with strand := c }

def seatNew (d : StrandDesk α) (name : String) (c : Strand α) : StrandDesk α :=
  let (west, pool) := d.pool.add c.lanes.west
  let (east, pool) := pool.add c.lanes.east
  { d with pool }.put name ⟨c, west, east⟩

def seatBeside (d : StrandDesk α) (name : String) (s : Seat α) (c : Strand α) : StrandDesk α :=
  d.put name { s with strand := c }

/-- Applies a change to the strand of a name. A name without a strand changes nothing. -/
def modify (d : StrandDesk α) (name : String) (f : Strand α → StrandAnswer α × Strand α) :
    StrandAnswer α × StrandDesk α :=
  match d.seat? name with
  | some s =>
    let (answer, c) := f (d.load s)
    (answer, d.save name s c)
  | none => (.done, d)

def jumpOf (kind : NodeKind) : Except LayoutFault Jump :=
  match Jump.ofKind? kind with
  | some j => .ok j
  | none => .error (.notJump kind)

def update (d : StrandDesk α) :
    StrandInput α → Except LayoutFault (StrandAnswer α × StrandDesk α)
  | .root name pad debug => .ok (.done, d.seatNew name (.root pad debug))
  | .fork name source =>
    .ok (.done, match d.seat? source with
      | some s => d.seatBeside name s (d.load s).fork
      | none => d)
  | .loopBody name source kind =>
    .ok (.done, match d.strand? source with
      | some c => d.seatNew name (c.loopBody kind)
      | none => d)
  | .switchHolder name source =>
    .ok (.done, match d.seat? source with
      | some s => d.seatBeside name s (d.load s).switchHolder
      | none => d)
  | .reclaim name body =>
    .ok (match d.strand? body with
      | some inner => d.modify name fun c => (.done, c.reclaim inner)
      | none => (.done, d))
  | .absorb name child dx =>
    .ok (match d.strand? child with
      | some arm => (d.remove child).modify name fun c => (.done, c.absorb arm dx)
      | none => (.done, d))
  | .takeBand name start size =>
    .ok (d.modify name fun c =>
      let (y, c) := c.takeBand start size
      (.position y, c))
  | .takeExit name start size east =>
    match d.seat? name with
    | some s => do
      let (y, c) ← (d.load s).takeExit start size east
      .ok (.position y, d.save name s c)
    | none => .ok (.done, d)
  | .startBelow name gap => .ok (d.modify name fun c => (.position (c.startBelow gap), c))
  | .trunkTo name y arrow => .ok (d.modify name fun c => (.done, c.trunkTo y arrow))
  | .headingOf name kind => do
    let j ← jumpOf kind
    match d.strand? name with
    | some c => do
      let heading ← c.headingOf j
      .ok (.heading heading, d)
    | none => .ok (.done, d)
  | .noteJump name kind x y => do
    let j ← jumpOf kind
    .ok (d.modify name fun c => (.done, c.noteJump j (x, y)))
  | .draw name s => .ok (d.modify name fun c => (.done, c.draw s))
  | .setTargets name breakTarget continueTarget =>
    .ok (d.modify name fun c => (.done, { c with breakTarget, continueTarget }))
  | .setAlive name alive => .ok (d.modify name fun c => (.done, { c with alive }))

/-- Replays a history; inputs that fail leave the desk as it is. -/
def replay : StrandDesk α → List (StrandInput α) → StrandDesk α
  | d, [] => d
  | d, input :: rest =>
    match d.update input with
    | .ok (_, next) => replay next rest
    | .error _ => replay d rest

end StrandDesk
end Flowchart
