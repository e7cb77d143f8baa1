import Flowchart.Decimal.Shortest
/-!
Written numbers. A `NumberStyle` holds the decisions of one format: where the notation with an
exponent begins, how whole numbers, exponents and the values that are no numbers look.
-/
namespace Flowchart.Decimal

structure NumberStyle where
  tie : Tie
  /-- Decades of the leading digit that are written without an exponent; all of them if absent. -/
  plain : Option (Int × Int)
  /-- Whether a whole number without exponent ends in a point and a zero. -/
  wholePoint : Bool
  /-- The sign of a positive exponent. -/
  positiveExponent : String
  infinite : String
  undefined : String

def digitsText (n : Nat) : List Char := Nat.toDigits 10 n

def zeros (n : Nat) : List Char := List.replicate n '0'

/-- Digits with a point so that `places` of them follow it. -/
def pointed (digits : List Char) (places : Nat) : List Char :=
  let padded := zeros (places + 1 - digits.length) ++ digits
  let whole := padded.length - places
  padded.take whole ++ '.' :: padded.drop whole

def plainText (wholePoint : Bool) (d : Numeral) : List Char :=
  if 0 ≤ d.exponent then
    digitsText d.digits ++ zeros d.exponent.toNat ++ (if wholePoint then ['.', '0'] else [])
  else pointed (digitsText d.digits) (-d.exponent).toNat

def exponentText (positive : String) (d : Numeral) : List Char :=
  let decade := d.exponent + (digitsText d.digits).length - 1
  let lead := match digitsText d.digits with
    | first :: second :: rest => first :: '.' :: second :: rest
    | short => short
  lead ++ 'e' :: (if decade < 0 then ['-'] else positive.toList) ++ digitsText decade.natAbs

def Numeral.trimmed (d : Numeral) : Numeral :=
  go (digitsText d.digits).length d
where
  go : Nat → Numeral → Numeral
    | 0, d => d
    | n + 1, d => if d.digits % 10 = 0 then go n ⟨d.digits / 10, d.exponent + 1⟩ else d

namespace NumberStyle

def unsigned (s : NumberStyle) (d : Numeral) : List Char :=
  let decade := d.exponent + (digitsText d.digits).length - 1
  match s.plain with
  | none => plainText s.wholePoint d
  | some (first, last) =>
    if first ≤ decade ∧ decade < last then plainText s.wholePoint d
    else exponentText s.positiveExponent d

def write (s : NumberStyle) (f : BinaryFormat) : Pattern → String
  | .finite negative significand exponent =>
    let size :=
      if significand = 0 then plainText s.wholePoint ⟨0, 0⟩
      else s.unsigned (f.shortest s.tie significand exponent).trimmed
    .ofList (if negative then '-' :: size else size)
  | .infinite negative => if negative then "-" ++ s.infinite else s.infinite
  | .undefined => s.undefined

def single (s : NumberStyle) (x : Float32) : String :=
  s.write .single (patternSingle x)

def double (s : NumberStyle) (x : Float) : String :=
  s.write .double (patternDouble x)

/-- Numbers inside a text: never an exponent, and no point after a whole number. -/
def bare : NumberStyle := ⟨.awayFromZero, none, false, "", "inf", "NaN"⟩

/-- Numbers of a listing: a point in every number that has no exponent. -/
def listing : NumberStyle := ⟨.awayFromZero, some (-4, 16), true, "", "inf", "NaN"⟩

/-- Single-precision numbers of a JSON document. -/
def document : NumberStyle := ⟨.toEven, some (-6, 13), true, "+", "null", "null"⟩

/-- Double-precision numbers of a JSON document. -/
def documentDouble : NumberStyle := ⟨.toEven, some (-5, 16), true, "+", "null", "null"⟩

end NumberStyle

/-- The exact value rounded to two places, an exact half to the even neighbour. -/
def twoPlaces (x : Float32) : String :=
  match patternSingle x with
  | .finite negative significand exponent =>
    let hundredths :=
      roundDiv ((100 * significand) <<< exponent.toNat) (1 <<< (-exponent).toNat) .toEven
    let size := pointed (digitsText hundredths) 2
    .ofList (if negative then '-' :: size else size)
  | .infinite negative => if negative then "-inf" else "inf"
  | .undefined => "NaN"

end Flowchart.Decimal
