import Flowchart.Json.Document
import Flowchart.Text.Quoted
/-!
What can be wrong with the shape of configuration data.
-/
namespace Flowchart

inductive Expected where
  | single
  | text
  | flag
  | attrs
  | config
  | box
  | diamond
  | plain
  | arrowHead
  | render
deriving DecidableEq, Repr

namespace Expected

def describe : Expected → String
  | .single => "f32"
  | .text => "a string"
  | .flag => "a boolean"
  | .attrs => "a map"
  | .config => "struct Config"
  | .box => "struct BoxStyle"
  | .diamond => "struct DiamondStyle"
  | .plain => "struct PlainStyle"
  | .arrowHead => "struct ArrowHeadStyle"
  | .render => "struct RenderConfig"

/-- How many items a list that stands for the record has. -/
def arity : Expected → Nat
  | .config => 19
  | .box => 3
  | .diamond | .arrowHead | .render => 2
  | .plain => 1
  | _ => 0

end Expected

inductive DataError where
  | wrongType (found : Json) (expected : Expected)
  | tooShort (length : Nat) (expected : Expected)
  | tooLong (length : Nat)
  | missing (field : String)
deriving BEq, Repr

namespace DataError

/-- How a value is named that stands where it should not. -/
def describe : Json → String
  | .null => "null"
  | .bool b => s!"boolean `{b}`"
  | .number (.natural n) => s!"integer `{n}`"
  | .number (.negative n) => s!"integer `{n}`"
  | .number (.real x) => "floating point `" ++ Decimal.NumberStyle.documentDouble.double x ++ "`"
  | .text s => "string " ++ Text.quote s
  | .list _ => "sequence"
  | .object _ => "map"

def message : DataError → String
  | .wrongType found expected =>
    "invalid type: " ++ describe found ++ ", expected " ++ expected.describe
  | .tooShort length expected =>
    s!"invalid length {length}, expected " ++ expected.describe ++ s!" with {expected.arity} "
      ++ (if expected.arity = 1 then "element" else "elements")
  | .missing field => "missing field `" ++ field ++ "`"
  | .tooLong length => s!"invalid length {length}, expected fewer elements in array"

end DataError
end Flowchart
