import Flowchart.Style.Data
import Flowchart.Json.Reader
import Flowchart.Json.Relaxed
import Flowchart.Command.Disk
/-!
Configuration files: overrides as JSON, or as relaxed JSON if the extension says so.
-/
namespace Flowchart

inductive ConfigFileError where
  | file (error : FileError)
  | syntaxError
  | overrides (error : OverrideError)
deriving BEq, Repr

namespace ConfigFile

def isRelaxed (path : String) : Bool :=
  match FilePath.extension? path with
  | some extension => extension.toList.map Char.toLower == "json5".toList
  | none => false

def parse (path text : String) : Except ConfigFileError (Config Float32) :=
  match if isRelaxed path then Json.Relaxed.parse? text else Json.parse? text with
  | none => .error .syntaxError
  | some overrides => (Config.ofOverrides overrides).mapError .overrides

def load (read : String → Except FileError String) :
    Option String → Except ConfigFileError (Config Float32)
  | none => .ok .classic
  | some path => do
    let text ← (read path).mapError .file
    parse path text

end ConfigFile
end Flowchart
