import Flowchart.Pseudocode.ParseError
/-!
From source text to lines. Physical lines that end in a backslash are joined with the next one,
blank and comment lines are dropped, and the indentation of each remaining line is taken apart
into the levels that it shares with the line before it and at most one new level.
-/
namespace Flowchart

/-- The characters that indent, and the beginning of a comment; an empty one begins none. -/
structure Lexis where
  indent : List Char
  comment : List Char
deriving DecidableEq, Repr

/-- A program line: where it begins in the source, its indentation by levels, and the rest. -/
structure Line where
  number : Nat
  nesting : List String
  content : String
deriving DecidableEq, Repr

namespace Line

def depth (l : Line) : Nat := l.nesting.length

end Line

/-- A line with its continuations joined on, under the number of its first physical line. -/
structure LogicalLine where
  number : Nat
  text : List Char
deriving DecidableEq, Repr

namespace Lexis
variable (x : Lexis)

def indents (c : Char) : Bool := x.indent.contains c

/-- Joins continued lines. `number` counts the physical lines; `pending` is a line that ended in a
backslash, which the second result names if no line follows it. -/
def logicalLines (number : Nat) (pending : Option (Nat × List Char)) :
    List (List Char) → List LogicalLine × Option Nat
  | [] => ([], pending.map Prod.fst)
  | raw :: rest =>
    let (start, text) := match pending with
      | none => (number, Text.trimEnd raw)
      | some (start, stub) => (start, stub ++ Text.trimEnd (raw.dropWhile x.indents))
    if text.getLast? = some '\\' then logicalLines (number + 1) (some (start, text.dropLast)) rest
    else
      let (lines, unfinished) := logicalLines (number + 1) none rest
      (⟨start, text⟩ :: lines, unfinished)

def content (l : LogicalLine) : List Char := l.text.dropWhile x.indents

def indentation (l : LogicalLine) : List Char := l.text.takeWhile x.indents

def isBlankLine (l : LogicalLine) : Bool := (x.content l).all Text.isBlank

def isComment (l : LogicalLine) : Bool :=
  !x.comment.isEmpty && x.comment.isPrefixOf (x.content l)

def isKept (l : LogicalLine) : Bool := !x.isBlankLine l && !x.isComment l

/-- Takes levels off the front of an indentation while they fit: the levels found, and the rest. -/
def matchLevels : List String → List Char → List String × List Char
  | [], rest => ([], rest)
  | level :: levels, rest =>
    match Text.dropStart? level.toList rest with
    | some rest =>
      let (found, left) := matchLevels levels rest
      (level :: found, left)
    | none => ([], rest)

/-- The levels found and the rest make up the indentation. -/
theorem flatten_matchLevels (levels : List String) (s : List Char) :
    (matchLevels levels s).1.flatMap String.toList ++ (matchLevels levels s).2 = s := by
  fun_induction matchLevels levels s with
  | case1 => rfl
  | case2 level levels s rest taken found left eq ih =>
    rw [eq] at ih
    simpa [ih] using (Text.dropStart?_eq_some_iff.1 taken).symm
  | case3 => rfl

theorem matchLevels_prefix (levels : List String) (s : List Char) :
    (matchLevels levels s).1 <+: levels := by
  fun_induction matchLevels levels s <;> simp_all

/-- The levels of an indentation below a line with the levels `previous`. A rest opens a new level,
but only below all of these. -/
def nest? (previous : List String) (indentation : List Char) : Option (List String) :=
  let (found, rest) := matchLevels previous indentation
  if rest.isEmpty then some found
  else if found.length < previous.length then none
  else some (found ++ [.ofList rest])

def nestLines (previous : List String) : List LogicalLine → Except ParseError (List Line)
  | [] => .ok []
  | l :: rest =>
    match nest? previous (x.indentation l) with
    | none => .error ⟨l.number, .unmatchedIndent⟩
    | some nesting => do
      let lines ← nestLines nesting rest
      .ok (⟨l.number, nesting, .ofList (Text.trimEnd (x.content l))⟩ :: lines)

/-- Removes the first level when every line has the same one. -/
def dropCommonLevel (lines : List Line) : List Line :=
  match lines with
  | [] => []
  | first :: _ =>
    match first.nesting.head? with
    | none => lines
    | some level =>
      if lines.all (·.nesting.head? == some level) then
        lines.map fun l => { l with nesting := l.nesting.tail }
      else lines

def lines (source : String) : Except ParseError (List Line) := do
  let (logical, unfinished) := x.logicalLines 1 none (Text.lines source.toList)
  let nested ← x.nestLines [] (logical.filter x.isKept)
  match unfinished with
  | some number => .error ⟨number, .unfinishedContinuation⟩
  | none => .ok (dropCommonLevel nested)

end Lexis
end Flowchart
