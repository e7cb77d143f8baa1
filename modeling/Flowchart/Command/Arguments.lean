import Flowchart.Decimal.Literal
/-!
The command line. An option takes its value from the same word or from the next one; a word that
begins with a dash is no value, a single dash apart. An option may be given once.
-/
namespace Flowchart

inductive OutputFormat where
  | svg
  | png
  | json
  | ast
deriving DecidableEq, Repr

namespace OutputFormat

def ofName? : String → Option OutputFormat
  | "svg" => some .svg
  | "png" => some .png
  | "json" => some .json
  | "ast" => some .ast
  | _ => none

def fileExtension : OutputFormat → String
  | .svg => "svg"
  | .png => "png"
  | .json | .ast => "json"

end OutputFormat

structure Arguments where
  input : Option String
  output : Option String
  format : Option OutputFormat
  configFile : Option String
  theme : Option String
  scale : Option Float32
  fontMetrics : Bool
  debug : Bool
  verbosity : Nat
deriving Repr

inductive ArgumentsStop where
  | help
  | version
  | usage
deriving DecidableEq, Repr

inductive ValueOption where
  | input
  | output
  | format
  | configFile
  | theme
  | scale
deriving DecidableEq, Repr

inductive FlagOption where
  | fontMetrics
  | debug
  | verbose
  | help
  | version
deriving DecidableEq, Repr

namespace Arguments

def empty : Arguments := ⟨none, none, none, none, none, none, false, false, 0⟩

def longValue? : String → Option ValueOption
  | "input" => some .input
  | "output" => some .output
  | "outputFormat" => some .format
  | "configFile" => some .configFile
  | "theme" => some .theme
  | "scale" => some .scale
  | _ => none

def longFlag? : String → Option FlagOption
  | "fontMetrics" => some .fontMetrics
  | "debug" => some .debug
  | "verbose" => some .verbose
  | "help" => some .help
  | "version" => some .version
  | _ => none

def shortValue? : Char → Option ValueOption
  | 'i' => some .input
  | 'o' => some .output
  | 'e' => some .format
  | 'c' => some .configFile
  | 't' => some .theme
  | 's' => some .scale
  | _ => none

def shortFlag? : Char → Option FlagOption
  | 'v' => some .verbose
  | 'h' => some .help
  | 'V' => some .version
  | _ => none

/-- A path, which is never empty. -/
def path? (value : String) : Option String := if value.isEmpty then none else some value

/-- Gives an option its value, unless it has one or the value is not of its kind. -/
def set (a : Arguments) (option : ValueOption) (value : String) : Except ArgumentsStop Arguments :=
  let changed : Option Arguments := match option with
    | .input => if a.input.isSome then none else (path? value).map ({ a with input := some · })
    | .output => if a.output.isSome then none else (path? value).map ({ a with output := some · })
    | .format =>
      if a.format.isSome then none
      else (OutputFormat.ofName? value).map ({ a with format := some · })
    | .configFile =>
      if a.configFile.isSome then none else (path? value).map ({ a with configFile := some · })
    | .theme => if a.theme.isSome then none else some { a with theme := some value }
    | .scale =>
      if a.scale.isSome then none
      else (Decimal.single? value.toList).map ({ a with scale := some · })
  match changed with
  | some a => .ok a
  | none => .error .usage

def raise (a : Arguments) : FlagOption → Except ArgumentsStop Arguments
  | .fontMetrics => if a.fontMetrics then .error .usage else .ok { a with fontMetrics := true }
  | .debug => if a.debug then .error .usage else .ok { a with debug := true }
  | .verbose => .ok { a with verbosity := a.verbosity + 1 }
  | .help => .error .help
  | .version => .error .version

/-- What a word asks for: nothing more, or a value for an option that it ends in. -/
abbrev Wanted := Option ValueOption

/-- Reads the letters after a single dash. The letters after one that takes a value are that value,
with or without an equals sign between. -/
def readLetters (a : Arguments) : List Char → Except ArgumentsStop (Arguments × Wanted)
  | [] => .ok (a, none)
  | letter :: rest =>
    match shortValue? letter, shortFlag? letter with
    | some option, _ =>
      match rest with
      | [] => .ok (a, some option)
      | '=' :: value => (a.set option (.ofList value)).map (·, none)
      | value => (a.set option (.ofList value)).map (·, none)
    | none, some flag => do
      let a ← a.raise flag
      readLetters a rest
    | none, none => .error .usage

def readLong (a : Arguments) (word : List Char) : Except ArgumentsStop (Arguments × Wanted) :=
  let name := String.ofList (word.takeWhile (· != '='))
  let value := (word.dropWhile (· != '=')).tail?.map String.ofList
  match longValue? name, longFlag? name, value with
  | some option, _, some value => (a.set option value).map (·, none)
  | some option, _, none => .ok (a, some option)
  | none, some flag, none => (a.raise flag).map (·, none)
  | _, _, _ => .error .usage

/-- Whether a word can be the value of the option before it. -/
def isValue (word : List Char) : Bool := word.head? != some '-' || word == ['-']

/-- Reads words, the first of which may be the value that is wanted. After two dashes only words
that no option takes could follow, and there are none such. -/
def readWords (a : Arguments) (wanted : Wanted) : List String → Except ArgumentsStop Arguments
  | [] => if wanted.isSome then .error .usage else .ok a
  | word :: rest =>
    match wanted with
    | some option =>
      if isValue word.toList then do
        let a ← a.set option word
        readWords a none rest
      else .error .usage
    | none =>
      match word.toList with
      | '-' :: '-' :: [] => if rest.isEmpty then .ok a else .error .usage
      | '-' :: '-' :: long => do
        let (a, wanted) ← a.readLong long
        readWords a wanted rest
      | '-' :: letter :: letters => do
        let (a, wanted) ← a.readLetters (letter :: letters)
        readWords a wanted rest
      | _ => .error .usage

def ofWords (words : List String) : Except ArgumentsStop Arguments := readWords .empty none words

end Arguments
end Flowchart
