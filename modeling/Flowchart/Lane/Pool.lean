import Flowchart.Lane.RangeSet
/-!
Shared range sets. A pool stores sets under handles, so two owners of one handle see each other's
reservations; a detached copy is a set of its own. A desk gives names to handles and replays what
was asked of them.
-/
namespace Flowchart

abbrev Handle := Nat

/-- Stored sets; the handle of a set is its place. -/
structure Pool (α : Type) where
  sets : List (RangeSet α)
deriving BEq, Repr

namespace Pool
variable {α : Type} [Scalar α]

def empty : Pool α := ⟨[]⟩

def get (p : Pool α) (h : Handle) : RangeSet α := p.sets.getD h .empty

def set (p : Pool α) (h : Handle) (r : RangeSet α) : Pool α := ⟨p.sets.set h r⟩

def add (p : Pool α) (r : RangeSet α) : Handle × Pool α := (p.sets.length, ⟨p.sets ++ [r]⟩)

@[simp]
theorem get_add_self (p : Pool α) (r : RangeSet α) : (p.add r).2.get (p.add r).1 = r := by
  simp [add, get]

theorem get_add_of_lt (p : Pool α) (r : RangeSet α) {h : Handle} (lt : h < p.sets.length) :
    (p.add r).2.get h = p.get h := by
  simp [add, get, lt, List.getElem?_append_left]

theorem get_set_self (p : Pool α) (r : RangeSet α) {h : Handle} (lt : h < p.sets.length) :
    (p.set h r).get h = r := by
  simp [set, get, lt]

theorem get_set_of_ne (p : Pool α) (r : RangeSet α) {h k : Handle} (ne : h ≠ k) :
    (p.set h r).get k = p.get k := by
  simp [set, get, ne]

end Pool

/-- A request to a desk, by the names it is about. Only `detach` copies. -/
inductive RangeInput (α : Type) where
  | create (name : String) (floor : Option α)
  | share (name source : String)
  | detach (name source : String)
  | reserve (name : String) (start size : α)
  | fold (name other : String)
deriving Repr

/-- Names for handles of a pool, latest first. -/
structure RangeDesk (α : Type) where
  pool : Pool α
  names : List (String × Handle)
deriving Repr

namespace RangeDesk
variable {α : Type} [Scalar α]

def empty : RangeDesk α := ⟨.empty, []⟩

def handle? (d : RangeDesk α) (name : String) : Option Handle :=
  (d.names.find? (·.1 == name)).map Prod.snd

/-- The set behind a name; a name that was never given stands for an empty set. -/
def ranges (d : RangeDesk α) (name : String) : RangeSet α :=
  match d.handle? name with
  | some h => d.pool.get h
  | none => .empty

def bind (d : RangeDesk α) (name : String) (h : Handle) : RangeDesk α :=
  { d with names := (name, h) :: d.names.filter (·.1 != name) }

def store (d : RangeDesk α) (name : String) (r : RangeSet α) : RangeDesk α :=
  let (h, pool) := d.pool.add r
  { d with pool }.bind name h

def modify (d : RangeDesk α) (name : String) (f : RangeSet α → RangeSet α) : RangeDesk α :=
  match d.handle? name with
  | some h => { d with pool := d.pool.set h (f (d.pool.get h)) }
  | none => d

def update (d : RangeDesk α) : RangeInput α → RangeDesk α
  | .create name floor => d.store name (match floor with | some f => .above f | none => .empty)
  | .share name source =>
    match d.handle? source with
    | some h => d.bind name h
    | none => d
  | .detach name source => d.store name (d.ranges source)
  | .reserve name start size => d.modify name (·.reserve start size)
  | .fold name other => d.modify name (·.fold (d.ranges other))

def replay : RangeDesk α → List (RangeInput α) → RangeDesk α
  | d, [] => d
  | d, input :: rest => replay (d.update input) rest

/-- Whether two names stand for one stored set. -/
def shares (d : RangeDesk α) (name other : String) : Bool :=
  match d.handle? name, d.handle? other with
  | some h, some k => h == k
  | _, _ => false

end RangeDesk
end Flowchart
