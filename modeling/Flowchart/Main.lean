import Flowchart.Command.Run
/-!
The command line program: reads what a run may ask for, plans the run, and carries the plan out.
-/
namespace Flowchart.Program

def failureText : IO.Error → String
  | .noFileOrDirectory .. => FileError.notFound.message
  | e => e.toString

/-- A file's text, or the error that stands for any reason why it cannot be read. -/
def tryRead (path : Option String) : IO (Except FileError String) := do
  match path with
  | none => pure (.error .notFound)
  | some path =>
    try
      let text ← IO.FS.readFile path
      pure (.ok text)
    catch
      | .noFileOrDirectory .. => pure (.error .notFound)
      | _ => pure (.error .isDirectory)

def isDirectory (path : Option String) : IO Bool := do
  match path with
  | none => pure false
  | some path =>
    try
      let real ← IO.FS.realPath path
      real.isDir
    catch _ => pure false

def readsStdin (a : Arguments) : Bool :=
  match a.input with
  | none => true
  | some path => FilePath.isName "-" path

def survey (a : Arguments) : IO Surroundings := do
  let config ← tryRead a.configFile
  let fromStdin := readsStdin a
  let input ← if fromStdin then pure (.error .notFound) else tryRead a.input
  let output ← isDirectory a.output
  let stdin ← if fromStdin then (← IO.getStdin).readToEnd else pure ""
  pure ⟨fun path => if a.configFile == some path then config else input, fun _ => output, stdin⟩

def perform : List Deed → IO Unit
  | [] => pure ()
  | .print text :: rest => do
    IO.print text
    perform rest
  | .write path text :: rest => do
    IO.FS.writeFile path text
    perform rest

def fail (message : String) (code : UInt32) : IO UInt32 := do
  IO.eprintln ("error: " ++ message)
  pure code

def carryOut (plan : Plan) : IO UInt32 := do
  try
    perform plan.deeds
    match plan.failure with
    | none => pure 0
    | some e => fail e.message 1
  catch e => fail (failureText e) 1

end Flowchart.Program

open Flowchart in
def main (words : List String) : IO UInt32 := do
  match Arguments.ofWords words with
  | .error .version => do
    IO.print Command.versionText
    pure 0
  | .error .help => do
    IO.print Command.helpText
    pure 0
  | .error .usage => Program.fail "invalid arguments" 2
  | .ok a => do
    let surroundings ← Program.survey a
    Program.carryOut (Command.plan surroundings a)
