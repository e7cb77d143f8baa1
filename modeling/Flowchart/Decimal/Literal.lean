import Flowchart.Decimal.Binary
/-!
Decimal literals as people write them: an optional sign, digits with an optional point, an
optional exponent, or one of the words for infinity and for no number.
-/
namespace Flowchart.Decimal

def takeDigits (s : List Char) : List Char × List Char :=
  (s.takeWhile Char.isDigit, s.dropWhile Char.isDigit)

def digitsValue (s : List Char) : Nat :=
  s.foldl (fun n c => 10 * n + (c.toNat - '0'.toNat)) 0

def takeSign : List Char → Bool × List Char
  | '-' :: rest => (true, rest)
  | '+' :: rest => (false, rest)
  | s => (false, s)

/-- What may follow the digits: nothing, or an exponent up to the end. -/
def exponent? : List Char → Option Int
  | [] => some 0
  | e :: rest =>
    let (negative, digits) := takeSign rest
    if (e == 'e' || e == 'E') && !digits.isEmpty && digits.all Char.isDigit then
      some (if negative then -digitsValue digits else digitsValue digits)
    else none

def unsignedLiteral? (s : List Char) : Option (Nat × Int) :=
  let (whole, rest) := takeDigits s
  let (fraction, rest) := match rest with
    | '.' :: after => takeDigits after
    | _ => ([], rest)
  if whole.isEmpty && fraction.isEmpty then none
  else (exponent? rest).map fun e => (digitsValue (whole ++ fraction), e - fraction.length)

def single? (s : List Char) : Option Float32 :=
  let (negative, size) := takeSign s
  let word := String.ofList (size.map Char.toLower)
  if word == "inf" || word == "infinity" then some (singleOfPattern (.infinite negative))
  else if word == "nan" then some (singleOfPattern .undefined)
  else (unsignedLiteral? size).map fun (digits, e) => singleOfDecimal negative digits e

end Flowchart.Decimal
