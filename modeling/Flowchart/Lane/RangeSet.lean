import Flowchart.Scalar
import Flowchart.Decimal.Written
/-!
Sets of reserved ranges on one axis. The ranges of a set are sorted and do not touch each other;
what is reserved is joined with every range it touches. Positions below the floor of a set belong
to someone else: they are neither looked at nor reserved.
-/
namespace Flowchart

/-- The positions from `start` up to but not including `stop`. -/
structure Span (α : Type) where
  start : α
  stop : α
deriving BEq, DecidableEq, Repr

structure RangeSet (α : Type) where
  floor : Option α
  spans : List (Span α)
deriving BEq, DecidableEq, Repr

namespace RangeSet
variable {α : Type} [Scalar α]

/-- Nothing is reserved, and everything may be. -/
def empty : RangeSet α := ⟨Scalar.least, []⟩

def above (floor : α) : RangeSet α := ⟨some floor, []⟩

def raise (r : RangeSet α) (start : α) : α :=
  match r.floor with
  | none => start
  | some floor => max start floor

/-- The spans between the unbounded ends of the axis, which stand as spans of no length. -/
def bracketed (r : RangeSet α) : List (Span α) :=
  (Scalar.least.map fun x => ⟨x, x⟩).toList ++ r.spans
    ++ (Scalar.greatest.map fun x => ⟨x, x⟩).toList

/-- Moves a position behind each span that leaves less than `size` before it. -/
def advance (size : α) : α → List (Span α) → α
  | pos, [] => pos
  | pos, span :: rest =>
    if span.stop ≤ pos then advance size pos rest
    else if pos + size ≤ span.start then pos
    else advance size span.stop rest

/-- The first position from `start` on with room for `size` before the next span. -/
def firstFit (r : RangeSet α) (start size : α) : α :=
  advance (max size 0) (r.raise start) r.bracketed

/-- Puts a span among sorted ones and joins it with those that it touches. -/
def join (span : Span α) (spans : List (Span α)) : List (Span α) :=
  let before := spans.takeWhile fun s => !decide (span.start ≤ s.stop)
  let others := spans.drop before.length
  let touched := others.takeWhile fun s => decide (s.start ≤ span.stop)
  let after := others.drop touched.length
  let joined : Span α := match touched.head?, touched.getLast? with
    | some first, some last => ⟨min first.start span.start, max last.stop span.stop⟩
    | _, _ => span
  before ++ joined :: after

/-- Reserves `size` from `start` on, as far as it lies above the floor. Requests that are empty or
not finite change nothing. -/
def reserve (r : RangeSet α) (start size : α) : RangeSet α :=
  let stop := start + size
  let start := r.raise start
  if stop ≤ start ∨ ¬ Scalar.isFinite stop then r
  else { r with spans := join ⟨start, stop⟩ r.spans }

def fold (r other : RangeSet α) : RangeSet α :=
  other.spans.foldl (fun r span => r.reserve span.start (span.stop - span.start)) r

def fits (r : RangeSet α) (start size : α) : Bool := r.firstFit start size == start

/-- Looks in both sets in turn until they agree; none if that takes more rounds than allowed. -/
def agree? (a b : RangeSet α) (size : α) : Nat → α → Option α
  | 0, _ => none
  | rounds + 1, pos =>
    let inA := a.firstFit pos size
    let inB := b.firstFit inA size
    if inB == inA then some inA else agree? a b size rounds inB

/-- The first position from `start` on with room for `size` in both sets. Each round but the last
moves past a span or an end of the second set or up to its floor, so a search that ends at all ends
within these rounds. -/
def commonFit? (a b : RangeSet α) (start size : α) : Option α :=
  agree? a b size (b.spans.length + 4) start

/-- The answer of a search that is known to end. -/
def firstCommonFit (a b : RangeSet α) (start size : α) : α :=
  (a.commonFit? b start size).getD start

def listing (r : RangeSet Float32) : String :=
  let number := Decimal.NumberStyle.listing.single
  "[" ++ ", ".intercalate (r.spans.map fun s =>
    "(" ++ number s.start ++ ", " ++ number s.stop ++ ")") ++ "]"

end RangeSet
end Flowchart
