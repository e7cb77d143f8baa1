import Flowchart.Command.FilePath
/-!
Files and directories from a root on. Paths are followed name by name, from the root or from a working
directory; all directories on the way to that exist.
-/
namespace Flowchart

inductive FileError where
  | notFound
  | notDirectory
  | isDirectory
  | nameTooLong
deriving DecidableEq, Repr

def FileError.message : FileError → String
  | .notFound => "No such file or directory (os error 2)"
  | .notDirectory => "Not a directory (os error 20)"
  | .isDirectory => "Is a directory (os error 21)"
  | .nameTooLong => "File name too long (os error 36)"

/-- The names on the way from the root. -/
abbrev Location := List (List Char)

structure Disk where
  files : List (Location × String)
  directories : List Location
  working : Location := []
deriving Repr

inductive Found where
  | file (place : Location) (text : String)
  | directory (place : Location)
  /-- Nothing yet, in a directory that exists. -/
  | vacant (place : Location)
deriving Repr

namespace Disk

def text? (d : Disk) (place : Location) : Option String :=
  (d.files.find? (·.1 == place)).map Prod.snd

def hasDirectory (d : Disk) (place : Location) : Bool :=
  place.isPrefixOf d.working || d.directories.any place.isPrefixOf
    || d.files.any fun (file, _) => place.isPrefixOf file && place.length < file.length

def look (d : Disk) (place : Location) : Found :=
  match d.text? place with
  | some text => .file place text
  | none => if d.hasDirectory place then .directory place else .vacant place

def isTooLong (name : List Char) : Bool := 255 < (String.ofList name).utf8ByteSize

/-- Follows names from a place. The root is its own parent. -/
def follow (d : Disk) : Found → List (List Char) → Except FileError Found
  | found, [] => .ok found
  | .directory place, name :: rest =>
    if FilePath.saysNothing name then follow d (.directory place) rest
    else if name == ['.', '.'] then follow d (.directory place.dropLast) rest
    else if isTooLong name then .error .nameTooLong
    else follow d (d.look (place ++ [name])) rest
  | .file .., _ :: _ => .error .notDirectory
  | .vacant _, _ :: _ => .error .notFound

def start (d : Disk) (path : String) : Location :=
  if FilePath.isAbsolute path then [] else d.working

def walk (d : Disk) (path : String) (names : List (List Char)) : Except FileError Found :=
  if path.isEmpty then .error .notFound
  else if 4095 < path.utf8ByteSize then .error .nameTooLong
  else d.follow (.directory (d.start path)) names

def find (d : Disk) (path : String) : Except FileError Found := d.walk path (FilePath.parts path)

def isDirectory (d : Disk) (path : String) : Bool :=
  match d.find path with
  | .ok (.directory _) => true
  | _ => false

def read (d : Disk) (path : String) : Except FileError String :=
  match d.find path with
  | .ok (.file _ text) => .ok text
  | .ok (.directory _) => .error .isDirectory
  | .ok (.vacant _) => .error .notFound
  | .error e => .error e

/-- The names followed to write to a path. A slash after the last name asks for a directory, which
is refused without a look at that name, so only the directory above it is followed. -/
def namesToWrite (path : String) : List (List Char) :=
  let names := FilePath.parts path
  match names.reverse with
  | [] :: before =>
    match before.dropWhile List.isEmpty with
    | last :: above => if last == ['.'] || last == ['.', '.'] then names else above.reverse ++ [[]]
    | [] => names
  | _ => names

def write (d : Disk) (path text : String) : Except FileError Disk :=
  match d.walk path (namesToWrite path) with
  | .ok (.file place _) | .ok (.vacant place) =>
    .ok { d with files := (place, text) :: d.files.filter (·.1 != place) }
  | .ok (.directory _) => .error .isDirectory
  | .error e => .error e

end Disk
end Flowchart
