/-!
Binary floating formats: what a bit pattern stands for, and the pattern that is nearest to an
exact ratio. Rounding is done on whole numbers, to nearest and at a tie to the even neighbour.
-/
namespace Flowchart.Decimal

inductive Tie where
  | toEven
  | awayFromZero
deriving DecidableEq, Repr

def roundDiv (num den : Nat) (tie : Tie) : Nat :=
  let whole := num / den
  let twice := 2 * (num % den)
  if twice < den then whole
  else if den < twice then whole + 1
  else match tie with
    | .toEven => whole + whole % 2
    | .awayFromZero => whole + 1

theorem roundDiv_mul (n : Nat) {den : Nat} (pos : 0 < den) (tie : Tie) :
    roundDiv (n * den) den tie = n := by
  simp [roundDiv, Nat.mul_div_cancel _ pos, pos]

/-- A format, by the bits of its significand (the leading one included) and of its exponent. -/
structure BinaryFormat where
  precision : Nat
  exponentBits : Nat
deriving DecidableEq, Repr

namespace BinaryFormat

def single : BinaryFormat := ⟨24, 8⟩

def double : BinaryFormat := ⟨53, 11⟩

/-- The leading bit of a full significand. -/
def lead (f : BinaryFormat) : Nat := 1 <<< (f.precision - 1)

/-- The exponent of two of the smallest positive number. -/
def least (f : BinaryFormat) : Int := 3 - f.precision - (1 <<< (f.exponentBits - 1) : Nat)

/-- One more than the greatest pattern of a finite number without its sign: that of infinity. -/
def infinity (f : BinaryFormat) : Nat := ((1 <<< f.exponentBits) - 1) * f.lead

def signBit (f : BinaryFormat) : Nat := 1 <<< (f.precision - 1 + f.exponentBits)

end BinaryFormat

/-- What a pattern stands for; a finite number is its significand times a power of two. -/
inductive Pattern where
  | finite (negative : Bool) (significand : Nat) (exponent : Int)
  | infinite (negative : Bool)
  | undefined
deriving DecidableEq, Repr

namespace BinaryFormat

def read (f : BinaryFormat) (bits : Nat) : Pattern :=
  let negative := bits / f.signBit % 2 == 1
  let unsigned := bits % f.signBit
  let field := unsigned / f.lead
  if f.infinity < unsigned then .undefined
  else if f.infinity = unsigned then .infinite negative
  else if field = 0 then .finite negative unsigned f.least
  else .finite negative (unsigned % f.lead + f.lead) (f.least + field - 1)

def exponentOf (f : BinaryFormat) (num den : Nat) : Int :=
  let rough : Int := num.log2 - den.log2 - f.precision
  let full :=
    if num <<< (-rough).toNat < den <<< (f.precision + rough.toNat) then rough else rough + 1
  max f.least full

/-- The unsigned pattern nearest to a ratio; a ratio beyond the format gives infinity. -/
def nearest (f : BinaryFormat) (num den : Nat) : Nat :=
  if num = 0 then 0
  else
    let e := f.exponentOf num den
    let significand := roundDiv (num <<< (-e).toNat) (den <<< e.toNat) .toEven
    min f.infinity ((e - f.least).toNat * f.lead + significand)

/-- The pattern of a number of this format's reach, given as a pattern of another one. -/
def ofPattern (f : BinaryFormat) : Pattern → Nat
  | .finite negative significand exponent =>
    (if negative then f.signBit else 0)
      + f.nearest (significand <<< exponent.toNat) (1 <<< (-exponent).toNat)
  | .infinite negative => (if negative then f.signBit else 0) + f.infinity
  | .undefined => f.infinity + f.lead / 2

/-- The unsigned pattern nearest to `digits` times ten to the `exponent`. A value far beyond the
format is settled by its number of digits alone. -/
def nearestDecimal (f : BinaryFormat) (digits : Nat) (exponent : Int) : Nat :=
  let decade := exponent + (Nat.toDigits 10 digits).length
  if digits = 0 ∨ decade < -400 then 0
  else if 400 < decade then f.infinity
  else f.nearest (digits * Nat.pow 10 exponent.toNat) (Nat.pow 10 (-exponent).toNat)

end BinaryFormat

def patternSingle (x : Float32) : Pattern := BinaryFormat.single.read x.toBits.toNat

def patternDouble (x : Float) : Pattern := BinaryFormat.double.read x.toBits.toNat

def singleOfPattern (p : Pattern) : Float32 :=
  Float32.ofBits (UInt32.ofNat (BinaryFormat.single.ofPattern p))

def doubleOfPattern (p : Pattern) : Float :=
  Float.ofBits (UInt64.ofNat (BinaryFormat.double.ofPattern p))

def narrow (x : Float) : Float32 := singleOfPattern (patternDouble x)

def widen (x : Float32) : Float := doubleOfPattern (patternSingle x)

def singleOfInt (n : Int) : Float32 := singleOfPattern (.finite (n < 0) n.natAbs 0)

def singleOfDecimal (negative : Bool) (digits : Nat) (exponent : Int) : Float32 :=
  let size := Float32.ofBits (UInt32.ofNat (BinaryFormat.single.nearestDecimal digits exponent))
  if negative then -size else size

def doubleOfDecimal (negative : Bool) (digits : Nat) (exponent : Int) : Float :=
  let size := Float.ofBits (UInt64.ofNat (BinaryFormat.double.nearestDecimal digits exponent))
  if negative then -size else size

end Flowchart.Decimal
