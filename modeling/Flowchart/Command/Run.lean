import Flowchart.Command.Arguments
import Flowchart.Command.ConfigFile
import Flowchart.Output.Dump
import Flowchart.Output.Markdown
import Flowchart.Output.Render
/-!
What a command line does. A plan is made from what the surroundings show: files to write in order,
a text to print, and possibly a failure after them. Carrying a plan out stops at the first file that
cannot be written.
-/
namespace Flowchart

/-- What the program may ask of its surroundings. -/
structure Surroundings where
  read : String → Except FileError String
  isDirectory : String → Bool
  stdin : String

inductive CommandError where
  | file (error : FileError)
  | config (error : ConfigFileError)
  | overrides (error : OverrideError)
  | noBlocks
  | noOutput (what : String)
  | parse (source : String) (error : ParseError)
  | layout (fault : LayoutFault)
  | noPng
deriving BEq, Repr

def ConfigFileError.message : ConfigFileError → String
  | .file e => e.message
  | .syntaxError => "configuration file is not valid JSON"
  | .overrides e => e.message

def CommandError.message : CommandError → String
  | .file e => e.message
  | .config e => e.message
  | .overrides e => e.message
  | .noBlocks => "No pseudocode blocks found in input"
  | .noOutput what => "Output path required for " ++ what
  | .parse source e => e.message ++ "\n" ++ Excerpt.around source e.line
  | .layout fault => fault.message
  | .noPng => "PNG output requires the `png` feature"

inductive Deed where
  | write (path text : String)
  | print (text : String)
deriving DecidableEq, Repr

structure Plan where
  deeds : List Deed
  failure : Option CommandError
deriving BEq, Repr

namespace Command

mutual

def treeDocument : Node → Document
  | ⟨kind, line, content, children⟩ =>
    .object [("kind", .text kind.word), ("lineNumber", .natural line), ("content", .text content),
      ("children", .list (treeDocuments children))]

def treeDocuments : List Node → List Document
  | [] => []
  | node :: rest => treeDocument node :: treeDocuments rest

end

def deliver (text lineEnd : String) : Option String → Deed
  | some path => .write path text
  | none => .print (text ++ lineEnd)

def deedFor (config : Config Float32) (measure : Measure Float32) (format : OutputFormat)
    (source : String) (output : Option String) : Except CommandError Deed := do
  let program ← (config.lexis.parse source).mapError (.parse source)
  match format with
  | .ast => .ok (deliver ((treeDocument program).pretty 0) "\n" output)
  | _ => do
    let layout ← (Layout.ofProgram config measure program).mapError .layout
    match format with
    | .svg => .ok (deliver (Svg.render layout config) "" output)
    | .png => match output with
      | none => .error (.noOutput "png output")
      | some _ => .error .noPng
    | .json | .ast =>
      .ok (deliver ((layout.dump.document Document.single).pretty 0) "\n" output)

def deedsFor (config : Config Float32) (measure : Measure Float32) (format : OutputFormat) :
    List (String × String) → Plan
  | [] => ⟨[], none⟩
  | (source, path) :: rest =>
    match deedFor config measure format source (some path) with
    | .error e => ⟨[], some e⟩
    | .ok deed =>
      let plan := deedsFor config measure format rest
      { plan with deeds := deed :: plan.deeds }

/-- The configuration: that of the file, under the theme and the settings of the command line. -/
def configure (s : Surroundings) (a : Arguments) : Except CommandError (Config Float32) := do
  let config ← (ConfigFile.load s.read a.configFile).mapError .config
  let config ← match a.theme with
    | some name => (config.themed name).mapError .overrides
    | none => .ok config
  let render := match a.scale with
    | some scale => { config.render with scale }
    | none => config.render
  .ok { config with render, debug := config.debug || a.debug }

def isMarkdown (path : String) : Bool :=
  match FilePath.extension? path with
  | some extension => extension == "md" || extension == "markdown"
  | none => false

/-- The programs of the input: one, or all blocks of a Markdown file. -/
def sources (s : Surroundings) (a : Arguments) : Except CommandError (List String) :=
  match a.input with
  | none => .ok [s.stdin]
  | some path =>
    if FilePath.isName "-" path then .ok [s.stdin]
    else do
      let text ← (s.read path).mapError .file
      if isMarkdown path then
        let blocks := Markdown.blocks text
        if blocks.isEmpty then .error .noBlocks else .ok blocks
      else .ok [text]

def outputs (isDirectory : String → Bool) (output : Option String) (format : OutputFormat)
    (count : Nat) : Except CommandError (List String) :=
  match output with
  | none => .error (.noOutput "markdown input")
  | some base => .ok (FilePath.numbered (isDirectory base) base format.fileExtension count)

def measureFor (a : Arguments) (config : Config Float32) : Measure Float32 :=
  RenderOptions.measure ⟨config, a.fontMetrics⟩

def planFor (s : Surroundings) (a : Arguments) : Except CommandError Plan := do
  let config ← configure s a
  let programs ← sources s a
  let measure := measureFor a config
  let format := a.format.getD .svg
  match programs with
  | [source] => do
    let deed ← deedFor config measure format source a.output
    .ok ⟨[deed], none⟩
  | programs => do
    let paths ← outputs s.isDirectory a.output format programs.length
    .ok (deedsFor config measure format (programs.zip paths))

def plan (s : Surroundings) (a : Arguments) : Plan :=
  match planFor s a with
  | .ok plan => plan
  | .error e => ⟨[], some e⟩

def versionText : String := "pflow 0.1.0\n"

def helpText : String :=
  "Render indented pseudocode as a flowchart\n\nUsage: pflow [OPTIONS]\n\nOptions:\n"
    ++ "  -i, --input <INPUT>                 Input file (.pseudo, .md) or '-' for stdin\n"
    ++ "  -o, --output <OUTPUT>               "
    ++ "Output file. Defaults to stdout for SVG, JSON and AST output\n"
    ++ "  -e, --outputFormat <OUTPUT_FORMAT>  "
    ++ "Output format [default: svg] [possible values: svg, png, json, ast]\n"
    ++ "  -c, --configFile <CONFIG>           "
    ++ "Config file (JSON, or JSON5 with a .json5 extension)\n"
    ++ "  -t, --theme <THEME>                 "
    ++ "Theme preset (classic, modern); applied over the config file\n"
    ++ "  -s, --scale <SCALE>                 Output scale factor\n"
    ++ "      --fontMetrics                   "
    ++ "Measure text with system fonts instead of the built-in width table\n"
    ++ "      --debug                         Draw branch frames and jump markers\n"
    ++ "  -v, --verbose...                    "
    ++ "Increase log verbosity (-v info, -vv debug, -vvv trace)\n"
    ++ "  -h, --help                          Print help\n"
    ++ "  -V, --version                       Print version\n"

end Command

structure Outcome where
  exitCode : Nat
  stdout : String
  stderr : String
  disk : Disk
deriving Repr

namespace Outcome

def perform (failure : Option CommandError) (disk : Disk) (printed : String) :
    List Deed → Outcome
  | [] =>
    match failure with
    | none => ⟨0, printed, "", disk⟩
    | some e => ⟨1, printed, "error: " ++ e.message ++ "\n", disk⟩
  | .print text :: rest => perform failure disk (printed ++ text) rest
  | .write path text :: rest =>
    match disk.write path text with
    | .ok disk => perform failure disk printed rest
    | .error e => ⟨1, printed, "error: " ++ e.message ++ "\n", disk⟩

end Outcome

def Command.run (disk : Disk) (stdin : String) (words : List String) : Outcome :=
  match Arguments.ofWords words with
  | .error .version => ⟨0, versionText, "", disk⟩
  | .error .help => ⟨0, helpText, "", disk⟩
  | .error .usage => ⟨2, "", "error: invalid arguments\n", disk⟩
  | .ok a =>
    let plan := Command.plan ⟨disk.read, disk.isDirectory, stdin⟩ a
    .perform plan.failure disk "" plan.deeds

end Flowchart
