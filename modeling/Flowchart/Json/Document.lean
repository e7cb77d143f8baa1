import Flowchart.Json.Value
import Flowchart.Decimal.Written
/-!
JSON documents as they are written. A document keeps its fields in the order in which they were
given and its numbers as texts, so each writer decides how its numbers look.
-/
namespace Flowchart

inductive Document where
  | null
  | bool (b : Bool)
  | number (text : String)
  | text (s : String)
  | list (items : List Document)
  | object (fields : List (String × Document))
deriving BEq, Repr, Inhabited

namespace Document

def natural (n : Nat) : Document := .number (toString n)

/-- A single-precision number; what is no finite number is written as null. -/
def single (x : Float32) : Document :=
  if x.isFinite then .number (Decimal.NumberStyle.document.single x) else .null

def ofNumber : JsonNumber → Document
  | .natural n => .number (toString n)
  | .negative n => .number (toString n)
  | .real x => .number (Decimal.NumberStyle.documentDouble.double x)

mutual

def ofJson : Json → Document
  | .null => .null
  | .bool b => .bool b
  | .number n => ofNumber n
  | .text s => .text s
  | .list items => .list (ofItems items)
  | .object fields => .object (ofFields fields)

def ofItems : List Json → List Document
  | [] => []
  | item :: rest => ofJson item :: ofItems rest

def ofFields : List (String × Json) → List (String × Document)
  | [] => []
  | (key, value) :: rest => (key, ofJson value) :: ofFields rest

end

def hexDigit (n : Nat) : Char := (Nat.toDigits 16 n).getD 0 '0'

/-- Quotes, backslashes and control characters are escaped; everything else stands for itself. -/
def escapeChar (c : Char) : List Char :=
  if c == '"' then ['\\', '"']
  else if c == '\\' then ['\\', '\\']
  else if c == '\n' then ['\\', 'n']
  else if c == '\r' then ['\\', 'r']
  else if c == '\t' then ['\\', 't']
  else if c == '\x08' then ['\\', 'b']
  else if c == '\x0c' then ['\\', 'f']
  else if c.toNat < 0x20 then
    ['\\', 'u', '0', '0', hexDigit (c.toNat / 16), hexDigit (c.toNat % 16)]
  else [c]

def quoted (s : String) : String :=
  "\"" ++ .ofList (s.toList.flatMap escapeChar) ++ "\""

mutual

def compact : Document → String
  | .null => "null"
  | .bool b => if b then "true" else "false"
  | .number n => n
  | .text s => quoted s
  | .list items => "[" ++ ",".intercalate (compactItems items) ++ "]"
  | .object fields => "\x7b" ++ ",".intercalate (compactFields fields) ++ "\x7d"

def compactItems : List Document → List String
  | [] => []
  | item :: rest => compact item :: compactItems rest

def compactFields : List (String × Document) → List String
  | [] => []
  | (key, value) :: rest => (quoted key ++ ":" ++ compact value) :: compactFields rest

end

def lineBreak (depth : Nat) : String := .ofList ('\n' :: List.replicate (2 * depth) ' ')

/-- A bracketed run of parts, one to a line, or nothing between the brackets. -/
def bracketed (first last : String) (depth : Nat) (parts : List String) : String :=
  if parts.isEmpty then first ++ last
  else
    first ++ lineBreak (depth + 1) ++ ("," ++ lineBreak (depth + 1)).intercalate parts
      ++ lineBreak depth ++ last

mutual

/-- The document with one item or field to a line, two blanks deeper at each level. -/
def pretty (depth : Nat) : Document → String
  | .null => "null"
  | .bool b => if b then "true" else "false"
  | .number n => n
  | .text s => quoted s
  | .list items => bracketed "[" "]" depth (prettyItems (depth + 1) items)
  | .object fields => bracketed "\x7b" "\x7d" depth (prettyFields (depth + 1) fields)

def prettyItems (depth : Nat) : List Document → List String
  | [] => []
  | item :: rest => pretty depth item :: prettyItems depth rest

def prettyFields (depth : Nat) : List (String × Document) → List String
  | [] => []
  | (key, value) :: rest =>
    (quoted key ++ ": " ++ pretty depth value) :: prettyFields depth rest

end

end Document
end Flowchart
