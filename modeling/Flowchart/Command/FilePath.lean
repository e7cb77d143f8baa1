import Flowchart.Text.Blank
/-!
Slash-separated paths: their last name, its stem and extension, their parent, and joining. Empty
parts and dots inside a path say nothing; a leading dot does.
-/
namespace Flowchart.FilePath

/-- The parts between slashes; an absolute path begins with an empty one. -/
def parts (path : String) : List (List Char) := Text.split '/' path.toList

def isAbsolute (path : String) : Bool := path.toList.head? == some '/'

def saysNothing (part : List Char) : Bool := part.isEmpty || part == ['.']

/-- Drops parts that say nothing from the end of reversed parts; the first part of a path stays,
unless the whole path is empty. -/
def dropSilent : List (List Char) → List (List Char)
  | [] => []
  | [first] => [first]
  | last :: before => if saysNothing last then dropSilent before else last :: before

def spine (path : String) : List (List Char) := dropSilent (parts path).reverse

def fileName? (path : String) : Option (List Char) :=
  match spine path with
  | [] => none
  | last :: _ => if saysNothing last || last == ['.', '.'] then none else some last

/-- A name around its last point. A name without a point, or with none but a leading one, has no
extension. -/
def splitName (name : List Char) : List Char × Option (List Char) :=
  let tail := (name.reverse.takeWhile (· != '.')).reverse
  let stem := name.take (name.length - tail.length - 1)
  if tail.length = name.length || stem.isEmpty then (name, none) else (stem, some tail)

def stem? (path : String) : Option String :=
  (fileName? path).map fun name => .ofList (splitName name).1

def extension? (path : String) : Option String :=
  ((fileName? path).bind fun name => (splitName name).2).map String.ofList

def ofParts (parts : List (List Char)) : String := .ofList (['/'].intercalate parts)

def parent? (path : String) : Option String :=
  match spine path with
  | [] => none
  | [only] => if only.isEmpty then none else some ""
  | _ :: before =>
    match dropSilent before with
    | [[]] => some "/"
    | kept => some (ofParts kept.reverse)

def join (directory name : String) : String :=
  if directory.isEmpty then name
  else if directory.toList.getLast? = some '/' then directory ++ name
  else directory ++ "/" ++ name

def isName (name path : String) : Bool := spine path == [name.toList]

/-- The numbered paths for several outputs: in an existing directory under a fixed stem, otherwise
beside the path as given, under its stem. -/
def numbered (isDirectory : Bool) (base extension : String) (count : Nat) : List String :=
  let stem := if isDirectory then "flow" else (stem? base).getD "flow"
  let parent := if isDirectory then base else (parent? base).getD "."
  (List.range count).map fun i => join parent (stem ++ s!"-{i + 1}." ++ extension)

end Flowchart.FilePath
