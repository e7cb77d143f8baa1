import Flowchart.Json.Value
import Flowchart.Decimal.Literal
/-!
Reading JSON text. `parse?` accepts standard JSON only: quoted keys, no comments, no comma after
the last item, and fewer than 128 levels of nesting.

A number without point and exponent that fits into 64 bits is whole. Any other number collects its
digits in a 64-bit word, leaves out the digits that no longer fit, and is scaled by one power of
ten, or by several when the exponent is far below the range of doubles.
-/
namespace Flowchart.Json

/-- A step of a reader takes its part off the front of the text, or refuses it. -/
abbrev Reads (α : Type) := List Char → Option (α × List Char)

/-- How a value is treated: `kept` values are checked in full; of `skipped` ones only the form
matters, so their numbers may be out of range and their escapes unpaired, at any depth. -/
inductive Care where
  | kept
  | skipped
deriving DecidableEq, Repr

def isSpace (c : Char) : Bool := c == ' ' || c == '\n' || c == '\t' || c == '\r'

def dropSpace (s : List Char) : List Char := s.dropWhile isSpace

def wordMax : Nat := 0xFFFFFFFFFFFFFFFF

def collectDigits (significand taken : Nat) : List Char → Nat × Nat × List Char
  | [] => (significand, taken, [])
  | c :: rest =>
    if c.isDigit then
      let next := 10 * significand + (c.toNat - '0'.toNat)
      if next ≤ wordMax then collectDigits next (taken + 1) rest
      else (significand, taken, c :: rest)
    else (significand, taken, c :: rest)

def tenPower (n : Nat) : Float := Decimal.doubleOfDecimal false 1 n

def scaleDown (x : Float) : Nat → Nat → Float
  | 0, n => x / tenPower n
  | steps + 1, n =>
    if n ≤ 308 || x == 0 then x / tenPower n else scaleDown (x / tenPower 308) steps (n - 308)

def scaled? (care : Care) (negative : Bool) (significand : Nat) (exponent : Int) : Option Float :=
  let whole := Decimal.doubleOfDecimal false significand 0
  let size? : Option Float :=
    if whole == 0 then some whole
    else if exponent < 0 then
      -- Past some thousand decades every word has become zero.
      some (scaleDown whole 6 (min exponent.natAbs 1500))
    else if 308 < exponent then none
    else
      let x := whole * tenPower exponent.toNat
      if x.isInf then none else some x
  match size?, care with
  | some x, _ => some (if negative then -x else x)
  | none, .skipped => some whole
  | none, .kept => none

def exponentPart? : Reads Int
  | e :: rest =>
    if e == 'e' || e == 'E' then
      let (negative, digits) := Decimal.takeSign rest
      let (digits, rest) := Decimal.takeDigits digits
      if digits.isEmpty then none
      else some (if negative then -Decimal.digitsValue digits else Decimal.digitsValue digits, rest)
    else some (0, e :: rest)
  | [] => some (0, [])

def unsignedNumber? (care : Care) (negative : Bool) (s : List Char) :
    Option (JsonNumber × List Char) := do
  let (whole, rest) := Decimal.takeDigits s
  if whole.isEmpty || (whole.length > 1 && whole.head? == some '0') then none
  let (significand, taken, _) := collectDigits 0 0 whole
  let dropped := whole.length - taken
  let (significand, places, isReal, rest) ← match rest with
    | '.' :: after =>
      let (fraction, rest) := Decimal.takeDigits after
      if fraction.isEmpty then none
      else
        let (significand, taken, _) := collectDigits significand 0 fraction
        some (significand, taken, true, rest)
    | _ => some (significand, 0, false, rest)
  let hasExponent := rest.head? == some 'e' || rest.head? == some 'E'
  let (exponent, rest) ← exponentPart? rest
  if isReal || hasExponent || dropped > 0 then
    let x ← scaled? care negative significand (exponent + dropped - places)
    some (.real x, rest)
  else if !negative then some (.natural significand, rest)
  else if significand = 0 || 0x8000000000000000 < significand then
    some (.real (-(Decimal.doubleOfDecimal false significand 0)), rest)
  else some (.negative (-significand), rest)

def number? (care : Care) : Reads JsonNumber
  | '-' :: rest => unsignedNumber? care true rest
  | s => unsignedNumber? care false s

def hexValue? (c : Char) : Option Nat :=
  if c.isDigit then some (c.toNat - '0'.toNat)
  else if 'a' ≤ c && c ≤ 'f' then some (c.toNat - 'a'.toNat + 10)
  else if 'A' ≤ c && c ≤ 'F' then some (c.toNat - 'A'.toNat + 10)
  else none

/-- A given number of hexadecimal digits. -/
def hexDigits? : Nat → Reads Nat
  | 0, s => some (0, s)
  | n + 1, c :: rest => do
    let d ← hexValue? c
    let (low, rest) ← hexDigits? n rest
    some ((d <<< (4 * n)) + low, rest)
  | _ + 1, [] => none

def isHighHalf (n : Nat) : Bool := 0xD800 ≤ n && n ≤ 0xDBFF

def isLowHalf (n : Nat) : Bool := 0xDC00 ≤ n && n ≤ 0xDFFF

def numberedEscape? : Reads Char := fun s => do
  let (n, rest) ← hexDigits? 4 s
  if isLowHalf n then none
  else if isHighHalf n then
    match rest with
    | '\\' :: 'u' :: rest => do
      let (low, rest) ← hexDigits? 4 rest
      if isLowHalf low then
        some (Char.ofNat (0x10000 + (n - 0xD800) * 0x400 + (low - 0xDC00)), rest)
      else none
    | _ => none
  else some (Char.ofNat n, rest)

def shortEscape? : Char → Option Char
  | '"' => some '"'
  | '\\' => some '\\'
  | '/' => some '/'
  | 'b' => some '\x08'
  | 'f' => some '\x0c'
  | 'n' => some '\n'
  | 'r' => some '\r'
  | 't' => some '\t'
  | _ => none

def stringBody? (care : Care) : Nat → List Char → Reads String
  | 0, _, _ => none
  | _ + 1, _, [] => none
  | n + 1, done, c :: rest =>
    if c == '"' then some (.ofList done.reverse, rest)
    else if c.toNat < 0x20 then none
    else if c == '\\' then
      match rest with
      | 'u' :: rest =>
        match care with
        | .kept => do
          let (c, rest) ← numberedEscape? rest
          stringBody? care n (c :: done) rest
        | .skipped => do
          let (_, rest) ← hexDigits? 4 rest
          stringBody? care n done rest
      | e :: rest => do
        let c ← shortEscape? e
        stringBody? care n (c :: done) rest
      | [] => none
    else stringBody? care n (c :: done) rest

def string? (care : Care) (s : List Char) : Option (String × List Char) :=
  stringBody? care s.length [] s

def word? (word : String) (value : Json) (s : List Char) : Option (Json × List Char) :=
  let letters := word.toList
  if letters.isPrefixOf s then some (value, s.drop letters.length) else none

mutual

/-- A value without the blanks around it. The first argument bounds the steps left, `depth` the
levels that may still be opened. -/
def value? (care : Care) : Nat → Nat → Reads Json
  | 0, _, _ => none
  | n + 1, depth, s =>
    match s with
    | '"' :: rest => (string? care rest).map fun (content, rest) => (.text content, rest)
    | '[' :: rest =>
      if depth ≤ 1 && care == .kept then none
      else match dropSpace rest with
        | ']' :: rest => some (.list [], rest)
        | rest => do
          let (items, rest) ← items? care n (depth - 1) rest
          some (.list items, rest)
    | '{' :: rest =>
      if depth ≤ 1 && care == .kept then none
      else match dropSpace rest with
        | '}' :: rest => some (.object [], rest)
        | rest => do
          let (fields, rest) ← fields? care n (depth - 1) rest
          some (ofFields fields, rest)
    | 't' :: _ => word? "true" (.bool true) s
    | 'f' :: _ => word? "false" (.bool false) s
    | 'n' :: _ => word? "null" .null s
    | _ => (number? care s).map fun (n, rest) => (.number n, rest)

def items? (care : Care) : Nat → Nat → Reads (List Json)
  | 0, _, _ => none
  | n + 1, depth, s => do
    let (item, rest) ← value? care n depth (dropSpace s)
    match dropSpace rest with
    | ',' :: rest => do
      let (items, rest) ← items? care n depth (dropSpace rest)
      some (item :: items, rest)
    | ']' :: rest => some ([item], rest)
    | _ => none

def fields? (care : Care) : Nat → Nat → Reads (List (String × Json))
  | 0, _, _ => none
  | n + 1, depth, s =>
    match dropSpace s with
    | '"' :: rest => do
      let (key, rest) ← string? care rest
      match dropSpace rest with
      | ':' :: rest => do
        let (value, rest) ← value? care n depth (dropSpace rest)
        match dropSpace rest with
        | ',' :: rest => do
          let (fields, rest) ← fields? care n depth rest
          some ((key, value) :: fields, rest)
        | '}' :: rest => some ([(key, value)], rest)
        | _ => none
      | _ => none
    | _ => none

end

/-- Levels of nesting that a document may not reach. -/
def depthLimit : Nat := 128

/-- Steps enough for any text: every second step takes a character. -/
def stepsFor (s : List Char) : Nat := 2 * s.length + 2

def parse? (text : String) : Option Json :=
  let s := text.toList
  match value? .kept (stepsFor s) depthLimit (dropSpace s) with
  | some (value, rest) => if (dropSpace rest).isEmpty then some value else none
  | none => none

end Flowchart.Json
