/-!
The numbers a chart is measured in. Every part that computes with coordinates is written over
`Scalar`, so that one definition serves two readings: single-precision coordinates, which the
program draws with, and exact rational coordinates, in which its geometry is stated.
-/
namespace Flowchart

/-- An arithmetic to draw with. `least` and `greatest` are its unbounded ends, where it has any. -/
class Scalar (α : Type) extends Zero α, Add α, Sub α, Neg α, Mul α, Div α, LT α, LE α, BEq α,
    Max α, Min α, OfScientific α where
  decLt : DecidableLT α
  decLe : DecidableLE α
  isFinite : α → Bool
  least : Option α
  greatest : Option α

namespace Scalar
variable {α : Type} [Scalar α]

instance : DecidableLT α := decLt
instance : DecidableLE α := decLe

/-- A scalar that equals nothing, itself included, stands for no number. -/
def isNumber (x : α) : Bool := x == x

/-- Total order of distances: what is no number counts as farther than every number. -/
def notFarther (a b : α) : Bool := !isNumber b || decide (a ≤ b)

def magnitude (x : α) : α := if x < 0 then -x else x

def atLeast (bound x : α) : α := max x bound

end Scalar

/-- Exact arithmetic. -/
instance : Scalar Rat where
  zero := 0
  max a b := if a ≤ b then b else a
  min a b := if a ≤ b then a else b
  decLt := inferInstance
  decLe := inferInstance
  isFinite _ := true
  least := none
  greatest := none

/-- Single precision. A greatest or least of two passes over an operand that is no number, and of
two equal operands keeps the first. -/
instance : Scalar Float32 where
  zero := 0
  max a b := if a != a then b else if a < b then b else a
  min a b := if a != a then b else if b < a then b else a
  decLt := inferInstance
  decLe := inferInstance
  isFinite := Float32.isFinite
  least := some (Float32.ofBits 0xFF800000)
  greatest := some (Float32.ofBits 0x7F800000)

end Flowchart
