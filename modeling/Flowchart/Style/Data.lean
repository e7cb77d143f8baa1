import Flowchart.Style.Theme
import Flowchart.Style.DataError
import Flowchart.Json.Overlay
/-!
Configurations as JSON data, and the overrides that refine them. Every record may also be given as
the list of its fields in the order of their declaration. The fields of an object are read in the
order of their keys, and the first value of a wrong shape is reported; keys that name no field are
passed over.
-/
namespace Flowchart.Config

abbrev Settings := Config Float32

def numberJson (x : Float32) : Json :=
  if x.isFinite then .number (.real (Decimal.widen x)) else .null

def attrsJson (a : Attrs) : Json := .object (a.entries.map fun (name, value) => (name, .text value))

def boxJson (s : BoxStyle Float32) : Json :=
  .ofFields [("attrs", attrsJson s.attrs), ("padX", numberJson s.padX), ("padY", numberJson s.padY)]

def diamondJson (s : DiamondStyle Float32) : Json :=
  .ofFields [("attrs", attrsJson s.attrs), ("aspectRatio", numberJson s.aspectRatio)]

def plainJson (s : PlainStyle) : Json := .ofFields [("attrs", attrsJson s.attrs)]

def arrowHeadJson (s : ArrowHeadStyle Float32) : Json :=
  .ofFields [("attrs", attrsJson s.attrs), ("size", numberJson s.size)]

def renderJson (s : RenderStyle Float32) : Json :=
  .ofFields [("scale", numberJson s.scale), ("background", .text s.background)]

def toJson (c : Settings) : Json :=
  .ofFields [
    ("marginX", numberJson c.marginX), ("marginY", numberJson c.marginY),
    ("stepX", numberJson c.stepX), ("stepY", numberJson c.stepY),
    ("hlineMargin", numberJson c.hlineMargin), ("theme", .text c.theme),
    ("rect", boxJson c.rect), ("diamond", diamondJson c.diamond), ("path", plainJson c.path),
    ("text", plainJson c.text), ("label", plainJson c.label), ("frame", boxJson c.frame),
    ("arrowHead", arrowHeadJson c.arrowHead), ("yesText", .text c.yesText),
    ("noText", .text c.noText), ("commentMarker", .text c.commentMarker),
    ("indentChars", .text c.indentChars), ("debug", .bool c.debug),
    ("render", renderJson c.render)]

def toSingle : JsonNumber → Float32
  | .natural n => Decimal.singleOfInt n
  | .negative n => Decimal.singleOfInt n
  | .real x => Decimal.narrow x

def readNumber : Json → Except DataError Float32
  | .number n => .ok (toSingle n)
  | found => .error (.wrongType found .single)

def readText : Json → Except DataError String
  | .text s => .ok s
  | found => .error (.wrongType found .text)

def readFlag : Json → Except DataError Bool
  | .bool b => .ok b
  | found => .error (.wrongType found .flag)

def readEntries : List (String × Json) → Except DataError (List (String × String))
  | [] => .ok []
  | (name, value) :: rest => do
    let text ← readText value
    let entries ← readEntries rest
    .ok ((name, text) :: entries)

def readAttrs : Json → Except DataError Attrs
  | .object fields => do
    let entries ← readEntries fields
    .ok ⟨entries⟩
  | found => .error (.wrongType found .attrs)

structure RecordForm (ρ : Type) where
  expected : Expected
  keys : List String
  /-- Whether fields may be left out, by an object or at the end of a list. -/
  lenient : Bool
  set : ρ → String → Json → Except DataError ρ

namespace RecordForm
variable {ρ : Type}

def setAll (s : RecordForm ρ) (start : ρ) (fields : List (String × Json)) : Except DataError ρ :=
  fields.foldlM (fun r (key, value) => s.set r key value) start

/-- The first field that the data has to name and does not. -/
def missing? (s : RecordForm ρ) (fields : List (String × Json)) : Option String :=
  if s.lenient then none else s.keys.find? fun key => (Json.lookup key fields).isNone

/-- Sets the fields of `start` that the data names. A value of a wrong shape is reported before a
field that is left out or too much. -/
def read (s : RecordForm ρ) (start : ρ) : Json → Except DataError ρ
  | .object fields => do
    let r ← s.setAll start fields
    match s.missing? fields with
    | some key => .error (.missing key)
    | none => .ok r
  | .list items => do
    let r ← s.setAll start (s.keys.zip items)
    if items.length < s.keys.length ∧ !s.lenient then .error (.tooShort items.length s.expected)
    else if s.keys.length < items.length then .error (.tooLong items.length)
    else .ok r
  | found => .error (.wrongType found s.expected)

end RecordForm

def boxForm : RecordForm (BoxStyle Float32) where
  expected := .box
  keys := ["attrs", "padX", "padY"]
  lenient := false
  set s key value :=
    match key with
    | "attrs" => do .ok { s with attrs := ← readAttrs value }
    | "padX" => do .ok { s with padX := ← readNumber value }
    | "padY" => do .ok { s with padY := ← readNumber value }
    | _ => .ok s

def diamondForm : RecordForm (DiamondStyle Float32) where
  expected := .diamond
  keys := ["attrs", "aspectRatio"]
  lenient := false
  set s key value :=
    match key with
    | "attrs" => do .ok { s with attrs := ← readAttrs value }
    | "aspectRatio" => do .ok { s with aspectRatio := ← readNumber value }
    | _ => .ok s

def plainForm : RecordForm PlainStyle where
  expected := .plain
  keys := ["attrs"]
  lenient := false
  set s key value :=
    match key with
    | "attrs" => do .ok { s with attrs := ← readAttrs value }
    | _ => .ok s

def arrowHeadForm : RecordForm (ArrowHeadStyle Float32) where
  expected := .arrowHead
  keys := ["attrs", "size"]
  lenient := false
  set s key value :=
    match key with
    | "attrs" => do .ok { s with attrs := ← readAttrs value }
    | "size" => do .ok { s with size := ← readNumber value }
    | _ => .ok s

def renderForm : RecordForm (RenderStyle Float32) where
  expected := .render
  keys := ["scale", "background"]
  lenient := false
  set s key value :=
    match key with
    | "scale" => do .ok { s with scale := ← readNumber value }
    | "background" => do .ok { s with background := ← readText value }
    | _ => .ok s

def form : RecordForm Settings where
  expected := .config
  keys := [
    "marginX", "marginY", "stepX", "stepY", "hlineMargin", "theme", "rect", "diamond", "path",
    "text", "label", "frame", "arrowHead", "yesText", "noText", "commentMarker", "indentChars",
    "debug", "render"]
  lenient := true
  set c key value :=
    match key with
    | "marginX" => do .ok { c with marginX := ← readNumber value }
    | "marginY" => do .ok { c with marginY := ← readNumber value }
    | "stepX" => do .ok { c with stepX := ← readNumber value }
    | "stepY" => do .ok { c with stepY := ← readNumber value }
    | "hlineMargin" => do .ok { c with hlineMargin := ← readNumber value }
    | "theme" => do .ok { c with theme := ← readText value }
    | "rect" => do .ok { c with rect := ← boxForm.read c.rect value }
    | "diamond" => do .ok { c with diamond := ← diamondForm.read c.diamond value }
    | "path" => do .ok { c with path := ← plainForm.read c.path value }
    | "text" => do .ok { c with text := ← plainForm.read c.text value }
    | "label" => do .ok { c with label := ← plainForm.read c.label value }
    | "frame" => do .ok { c with frame := ← boxForm.read c.frame value }
    | "arrowHead" => do .ok { c with arrowHead := ← arrowHeadForm.read c.arrowHead value }
    | "yesText" => do .ok { c with yesText := ← readText value }
    | "noText" => do .ok { c with noText := ← readText value }
    | "commentMarker" => do .ok { c with commentMarker := ← readText value }
    | "indentChars" => do .ok { c with indentChars := ← readText value }
    | "debug" => do .ok { c with debug := ← readFlag value }
    | "render" => do .ok { c with render := ← renderForm.read c.render value }
    | _ => .ok c

/-- The configuration that the data describes; what it does not name has its default. -/
def ofJson? (data : Json) : Except DataError Settings := form.read Config.classic data

/-- Lays overrides over a configuration. Objects, the attributes among them, are merged key by key;
any other value replaces what it is laid over. -/
def overlaid (c : Settings) (overrides : Json) : Except DataError Settings :=
  ofJson? (c.toJson.overlay overrides)

end Flowchart.Config

namespace Flowchart

inductive OverrideError where
  | unknownTheme (name : String)
  | data (error : DataError)
deriving BEq, Repr

namespace OverrideError

def message : OverrideError → String
  | .unknownTheme name => "Unknown theme '" ++ name ++ "'"
  | .data error => error.message

end OverrideError

def Config.themed (c : Config Float32) (name : String) : Except OverrideError (Config Float32) :=
  match Theme.named? name with
  | some theme => .ok (theme.apply c)
  | none => .error (.unknownTheme name)

def Config.ofOverrides (overrides : Json) : Except OverrideError (Config Float32) := do
  let start ← match (overrides.field? "theme").bind Json.text? with
    | some name => Config.classic.themed name
    | none => .ok Config.classic
  (start.overlaid overrides).mapError .data

end Flowchart
