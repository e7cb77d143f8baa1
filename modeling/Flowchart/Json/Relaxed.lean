import Flowchart.Json.Reader
import Flowchart.Text.Category
/-!
Reading relaxed JSON, as people write it by hand: comments, single quotes, keys without quotes, a
comma after the last item, a sign or a bare point in numbers, hexadecimal numbers, and strings that
go on after a backslash at the end of a line. Numbers without point and exponent are whole and have
to fit into 64 bits with a sign; infinity and no number are read as null.
-/
namespace Flowchart.Json.Relaxed

def isLineEnd (c : Char) : Bool :=
  c == '\n' || c == '\r' || c == '\u2028' || c == '\u2029'

def isSpace (c : Char) : Bool :=
  let n := c.toNat
  isLineEnd c || n == 0x09 || n == 0x0B || n == 0x0C || n == 0x20 || n == 0xA0 || n == 0x1680
    || (0x2000 ≤ n && n ≤ 0x200A) || n == 0x202F || n == 0x205F || n == 0x3000 || n == 0xFEFF

inductive Trivia where
  | space
  | lineComment
  | blockComment
deriving DecidableEq, Repr

/-- Passes over blanks and comments; none if a block comment does not end. -/
def skip? : Trivia → List Char → Option (List Char)
  | .blockComment, [] => none
  | _, [] => some []
  | .blockComment, '*' :: '/' :: rest => skip? .space rest
  | .blockComment, _ :: rest => skip? .blockComment rest
  | .lineComment, c :: rest => skip? (if isLineEnd c then .space else .lineComment) rest
  | .space, '/' :: '/' :: rest => skip? .lineComment rest
  | .space, '/' :: '*' :: rest => skip? .blockComment rest
  | .space, c :: rest => if isSpace c then skip? .space rest else some (c :: rest)

def shortEscape (c : Char) : Char :=
  match c with
  | 'b' => '\x08'
  | 'f' => '\x0c'
  | 'n' => '\n'
  | 'r' => '\r'
  | 't' => '\t'
  | 'v' => '\x0b'
  | '0' => '\x00'
  | c => c

/-- Passes over backslashes at line ends. -/
def skipJoints : List Char → List Char
  | '\\' :: '\r' :: '\n' :: rest => skipJoints rest
  | '\\' :: c :: rest => if isLineEnd c then skipJoints rest else '\\' :: c :: rest
  | s => s

/-- The character of two halves: the ten bits of each, and the bit above the lowest sixteen, which
is set and not added. -/
def joinHalves (high low : Nat) : Char :=
  Char.ofNat (((high - 0xD800) <<< 10) ||| (0x10000 + (low - 0xDC00)))

/-- The character behind an escape by number. A high half needs the escape of a low half after what
`joint` passes over. -/
def numberedEscape? (joint : List Char → List Char) : Reads Char := fun s => do
  let (n, rest) ← hexDigits? 4 s
  if isLowHalf n then none
  else if isHighHalf n then
    match joint rest with
    | '\\' :: 'u' :: rest => do
      let (low, rest) ← hexDigits? 4 rest
      if isLowHalf low then some (joinHalves n low, rest) else none
    | _ => none
  else some (Char.ofNat n, rest)

/-- The characters up to the closing quote, latest first in `done`. The first argument bounds the
characters left. -/
def stringBody? (quote : Char) : Nat → List Char → Reads String
  | 0, _, _ => none
  | _ + 1, _, [] => none
  | n + 1, done, c :: rest =>
    if c == quote then some (.ofList done.reverse, rest)
    else if isLineEnd c then none
    else if c == '\\' then
      match rest with
      | '\r' :: '\n' :: rest => stringBody? quote n done rest
      | 'u' :: rest => do
        let (c, rest) ← numberedEscape? skipJoints rest
        stringBody? quote n (c :: done) rest
      | 'x' :: rest => do
        let (code, rest) ← hexDigits? 2 rest
        stringBody? quote n (Char.ofNat code :: done) rest
      | e :: rest =>
        if isLineEnd e then stringBody? quote n done rest
        else if e.isDigit && e != '0' then none
        else stringBody? quote n (shortEscape e :: done) rest
      | [] => none
    else stringBody? quote n (c :: done) rest

def isNameStart (c : Char) : Bool := Text.isLetter c || c == '$' || c == '_'

def nameBody? : Nat → List Char → Reads String
  | 0, _, _ => none
  | _ + 1, done, [] => some (.ofList done.reverse, [])
  | n + 1, done, c :: rest =>
    if isNameStart c || Text.isNamePart c then nameBody? n (c :: done) rest
    else match c, rest with
      | '\\', 'u' :: rest => do
        let (c, rest) ← numberedEscape? id rest
        nameBody? n (c :: done) rest
      | _, _ => some (.ofList done.reverse, c :: rest)

def key? (s : List Char) : Option (String × List Char) :=
  match s with
  | '"' :: rest => stringBody? '"' s.length [] rest
  | '\'' :: rest => stringBody? '\'' s.length [] rest
  | '\\' :: 'u' :: _ => nameBody? (s.length + 1) [] s
  | c :: _ => if isNameStart c then nameBody? (s.length + 1) [] s else none
  | [] => none

def whole? (negative : Bool) (n : Nat) : Option Json :=
  if negative && 0 < n then
    if n ≤ 0x8000000000000000 then some (.number (.negative (-n))) else none
  else if n < 0x8000000000000000 then some (.number (.natural n))
  else none

def real? (negative : Bool) (digits : Nat) (exponent : Int) : Option Json :=
  let x := Decimal.doubleOfDecimal negative digits exponent
  if x.isFinite then some (.number (.real x)) else none

def exponent : List Char → Option Int × List Char
  | e :: rest =>
    let (negative, digits) := Decimal.takeSign rest
    let (digits, after) := Decimal.takeDigits digits
    if (e == 'e' || e == 'E') && !digits.isEmpty then
      (some (if negative then -Decimal.digitsValue digits else Decimal.digitsValue digits), after)
    else (none, e :: rest)
  | [] => (none, [])

def decimal? (negative : Bool) (s : List Char) : Option (Json × List Char) :=
  let (whole, rest) := match s with
    | '0' :: rest => (['0'], rest)
    | s => Decimal.takeDigits s
  match rest with
  | '.' :: after =>
    let (fraction, rest) := Decimal.takeDigits after
    if whole.isEmpty && fraction.isEmpty then none
    else
      let (e, rest) := exponent rest
      (real? negative (Decimal.digitsValue (whole ++ fraction)) (e.getD 0 - fraction.length)).map
        (·, rest)
  | _ =>
    if whole.isEmpty then none
    else match exponent rest with
      | (some e, rest) => (real? negative (Decimal.digitsValue whole) e).map (·, rest)
      | (none, rest) => (whole? negative (Decimal.digitsValue whole)).map (·, rest)

def hexadecimal? (s : List Char) : Option (Json × List Char) :=
  let digits := s.takeWhile fun c => (hexValue? c).isSome
  let value := digits.foldl (fun n c => 16 * n + (hexValue? c).getD 0) 0
  if digits.isEmpty || 0xFFFFFFFF < value then none
  else some (.number (.natural value), s.drop digits.length)

/-- A number; a hexadecimal one has no sign, and infinity and no number have no plus. -/
def number? (s : List Char) : Option (Json × List Char) :=
  let (negative, size) := Decimal.takeSign s
  let signed := size.length < s.length
  match size with
  | '0' :: 'x' :: digits | '0' :: 'X' :: digits => if signed then none else hexadecimal? digits
  | 'I' :: _ => if signed && !negative then none else word? "Infinity" .null size
  | 'N' :: _ => if signed && !negative then none else word? "NaN" .null size
  | size => decimal? negative size

mutual

/-- A value without what surrounds it. The first argument bounds the steps left. -/
def value? : Nat → Reads Json
  | 0, _ => none
  | n + 1, s =>
    match s with
    | '"' :: rest => (stringBody? '"' s.length [] rest).map fun (t, rest) => (.text t, rest)
    | '\'' :: rest => (stringBody? '\'' s.length [] rest).map fun (t, rest) => (.text t, rest)
    | '[' :: rest => do
      let (items, rest) ← items? n rest
      some (.list items, rest)
    | '{' :: rest => do
      let (fields, rest) ← fields? n rest
      some (ofFields fields, rest)
    | 't' :: _ => word? "true" (.bool true) s
    | 'f' :: _ => word? "false" (.bool false) s
    | 'n' :: _ => word? "null" .null s
    | _ => number? s

/-- The items of a list, from its start or from a comma up to its closing bracket. -/
def items? : Nat → Reads (List Json)
  | 0, _ => none
  | n + 1, s => do
    match ← skip? .space s with
    | ']' :: rest => some ([], rest)
    | s =>
      let (item, rest) ← value? n s
      match ← skip? .space rest with
      | ',' :: rest => do
        let (items, rest) ← items? n rest
        some (item :: items, rest)
      | ']' :: rest => some ([item], rest)
      | _ => none

/-- The fields of an object, from its start or from a comma up to its closing brace. -/
def fields? : Nat → Reads (List (String × Json))
  | 0, _ => none
  | n + 1, s => do
    match ← skip? .space s with
    | '}' :: rest => some ([], rest)
    | s =>
      let (key, rest) ← key? s
      match ← skip? .space rest with
      | ':' :: rest =>
        let (value, rest) ← value? n (← skip? .space rest)
        match ← skip? .space rest with
        | ',' :: rest => do
          let (fields, rest) ← fields? n rest
          some ((key, value) :: fields, rest)
        | '}' :: rest => some ([(key, value)], rest)
        | _ => none
      | _ => none

end

def parse? (text : String) : Option Json := do
  let s := text.toList
  let (value, rest) ← value? (stepsFor s) (← skip? .space s)
  let rest ← skip? .space rest
  if rest.isEmpty then some value else none

end Flowchart.Json.Relaxed
