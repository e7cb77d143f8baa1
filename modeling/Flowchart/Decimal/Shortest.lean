import Flowchart.Decimal.Binary
/-!
The fewest decimal digits that read back as a binary number, and of those the nearest ones. A
value and the ends of the interval that rounds to it are whole multiples of one power of ten, so
the search compares natural numbers only.
-/
namespace Flowchart.Decimal

/-- The reals that round to a value, all in units of ten to the minus `places`. The ends belong to
it exactly if `closed`. -/
structure Interval where
  places : Nat
  low : Nat
  value : Nat
  high : Nat
  closed : Bool
deriving Repr

/-- Ends lie half a unit away, but only a quarter below a power of two. -/
def BinaryFormat.interval (f : BinaryFormat) (significand : Nat) (exponent : Int) : Interval :=
  let quarter := exponent - 2
  let places := (-quarter).toNat
  let unit := Nat.pow 5 places <<< quarter.toNat
  let below := if significand = f.lead ∧ f.least < exponent then 1 else 2
  { places
    low := (4 * significand - below) * unit
    value := 4 * significand * unit
    high := (4 * significand + 2) * unit
    closed := significand % 2 == 0 }

namespace Interval

def holds (i : Interval) (x : Nat) : Bool :=
  if i.closed then decide (i.low ≤ x ∧ x ≤ i.high) else decide (i.low < x ∧ x < i.high)

/-- The multiple of a grid that reads back, if one of the value's two neighbours does: the nearer
one if both do. -/
def onGrid? (i : Interval) (tie : Tie) (grid : Nat) : Option Nat :=
  let under := i.value / grid
  match i.holds (under * grid), i.holds ((under + 1) * grid) with
  | true, true => some (roundDiv i.value grid tie)
  | true, false => some under
  | false, true => some (under + 1)
  | false, false => none

/-- Tries grids from coarse to fine; on the finest one the value itself reads back. -/
def search (i : Interval) (tie : Tie) : Nat → Nat × Nat
  | 0 => (i.value, 0)
  | drop + 1 =>
    match i.onGrid? tie (Nat.pow 10 (drop + 1)) with
    | some n => (n, drop + 1)
    | none => i.search tie drop

end Interval

/-- Digits times a power of ten. -/
structure Numeral where
  digits : Nat
  exponent : Int
deriving DecidableEq, Repr

/-- The shortest decimal of a positive binary number. -/
def BinaryFormat.shortest (f : BinaryFormat) (tie : Tie) (significand : Nat) (exponent : Int) :
    Numeral :=
  let i := f.interval significand exponent
  let (digits, drop) := i.search tie (Nat.toDigits 10 i.value).length
  { digits, exponent := drop - i.places }

end Flowchart.Decimal
