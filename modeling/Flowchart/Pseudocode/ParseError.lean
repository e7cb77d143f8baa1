import Flowchart.Text.Blank
/-!
What can be wrong with a program, at which line, and the part of the source that shows it.
-/
namespace Flowchart

inductive ParseFault where
  | unfinishedContinuation
  | unmatchedIndent
  | unexpectedIndent
  | forLoop
  | emptySwitch
  | strayInSwitch
  | breakOutside
  | continueOutside
  | doWithoutWhile
  | tryWithoutExcept
  | exceptWithoutTry
  | danglingElif
  | danglingElse
  | caseOutsideSwitch
deriving DecidableEq, Repr

def ParseFault.message : ParseFault → String
  | .unfinishedContinuation => "unexpected EOF after line continuation"
  | .unmatchedIndent => "unexpected indent: indentation does not match any enclosing block"
  | .unexpectedIndent => "unexpected indent"
  | .forLoop => "`for` loops are not implemented yet"
  | .emptySwitch => "`switch` must contain at least one `case`"
  | .strayInSwitch => "`switch` may only contain `case` blocks"
  | .breakOutside => "`break` outside of a loop or switch"
  | .continueOutside => "`continue` outside of a loop"
  | .doWithoutWhile => "`do` block must be followed by a matching `while`"
  | .tryWithoutExcept => "`try` block must be followed by at least one `except`"
  | .exceptWithoutTry => "`except` without a preceding `try`"
  | .danglingElif => "dangling `elif` without a preceding `if`"
  | .danglingElse => "dangling `else` without a preceding `if`"
  | .caseOutsideSwitch => "`case` outside of a `switch`"

/-- A fault and the physical line it is blamed on, counted from one. -/
structure ParseError where
  line : Nat
  fault : ParseFault
deriving DecidableEq, Repr

namespace ParseError

def message (e : ParseError) : String := s!"line {e.line}: " ++ e.fault.message

end ParseError

namespace Excerpt

/-- Lines shown on each side of the marked one. -/
def radius : Nat := 5

def padLeft (width : Nat) (s : List Char) : List Char :=
  List.replicate (width - s.length) ' ' ++ s

def row (width target number : Nat) (line : List Char) : List Char :=
  (if number = target then '>' else ' ') :: ' ' :: padLeft width (Nat.toDigits 10 number)
    ++ " | ".toList ++ line ++ ['\n']

def rows (width target : Nat) : Nat → List (List Char) → List Char
  | _, [] => []
  | number, line :: rest => row width target number line ++ rows width target (number + 1) rest

/-- The lines around a marked one; a number outside the source marks its first or last line. -/
def around (source : String) (line : Nat) : String :=
  let lines := Text.lines source.toList
  if lines.isEmpty then ""
  else
    let target := min (max line 1) lines.length
    let first := max (target - radius) 1
    let last := min (target + radius) lines.length
    let shown := (lines.drop (first - 1)).take (last + 1 - first)
    .ofList (rows (Nat.toDigits 10 last).length target first shown)

end Excerpt
end Flowchart
