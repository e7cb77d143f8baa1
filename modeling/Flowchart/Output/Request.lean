import Flowchart.Output.Render
import Flowchart.Json.Reader
/-!
Rendering requests from a host page: a program, and options as JSON text. The options may also be
given as the list of their fields; a field that occurs twice is refused, and one that is not known
is passed over.
-/
namespace Flowchart

structure RequestOptions where
  theme : Option String
  fontFamily : Option String
  fontSize : Option Float32
  debug : Option Bool
  config : Option Json

inductive RequestError where
  | unreadable
  | options (error : OverrideError)
  | render (error : RenderError)

namespace RequestOptions

def none : RequestOptions := ⟨.none, .none, .none, .none, .none⟩

def keys : List String := ["theme", "fontFamily", "fontSize", "debug", "config"]

def optional {β : Type} (read : Json → Except DataError β) : Json → Option (Option β)
  | .null => some .none
  | value => (read value).toOption.map some

def set? (o : RequestOptions) (key : String) (value : Json) : Option RequestOptions :=
  match key with
  | "theme" => (optional Config.readText value).map fun v => { o with theme := v }
  | "fontFamily" => (optional Config.readText value).map fun v => { o with fontFamily := v }
  | "fontSize" => (optional Config.readNumber value).map fun v => { o with fontSize := v }
  | "debug" => (optional Config.readFlag value).map fun v => { o with debug := v }
  | "config" => (optional .ok value).map fun v => { o with config := v }
  | _ => some o

def setAll? (fields : List (String × Json)) : Option RequestOptions :=
  fields.foldlM (fun o (key, value) => o.set? key value) none

open Json in
/-- The known fields of an object of options up to its closing brace, each at most once. -/
def fields? : Nat → List String → Reads (List (String × Json))
  | 0, _, _ => .none
  | n + 1, seen, s =>
    match dropSpace s with
    | '"' :: rest => do
      let (key, rest) ← string? .kept rest
      let known := keys.contains key
      if known && seen.contains key then .none
      else match dropSpace rest with
        | ':' :: rest => do
          let care : Care := if known then .kept else .skipped
          let (value, rest) ← value? care (stepsFor rest) (depthLimit - 1) (dropSpace rest)
          let field := if known then [(key, value)] else []
          match dropSpace rest with
          | ',' :: rest => do
            let (fields, rest) ← fields? n (key :: seen) rest
            some (field ++ fields, rest)
          | '}' :: rest => some (field, rest)
          | _ => .none
        | _ => .none
    | _ => .none

open Json in
def parse? (text : String) : Option RequestOptions := do
  let s := dropSpace text.toList
  let (fields, rest) ← match s with
    | '{' :: rest =>
      match dropSpace rest with
      | '}' :: rest => some ([], rest)
      | rest => fields? (stepsFor rest) [] rest
    | '[' :: _ =>
      match value? .kept (stepsFor s) depthLimit s with
      | some (.list items, rest) =>
        if items.length = keys.length then some (keys.zip items, rest) else .none
      | _ => .none
    | _ => .none
  if (dropSpace rest).isEmpty then setAll? fields else .none

/-- Label type relative to caption type. -/
def labelScale : Float32 := 0.8

def typed (attrs : Attrs) (family : Option String) (size : Option Float32) : Attrs :=
  let attrs := match family with
    | some family => attrs.put "font-family" family
    | .none => attrs
  match size with
  | some size => attrs.put "font-size" (Decimal.NumberStyle.bare.single size)
  | .none => attrs

/-- The theme, the configuration laid over it, and the type and debug settings over that. -/
def resolve (o : RequestOptions) : Except OverrideError RenderOptions := do
  let themed ← match o.theme with
    | some name => Config.classic.themed name
    | .none => .ok .classic
  let merged ← match o.config with
    | some overrides => (themed.overlaid overrides).mapError .data
    | .none => .ok themed
  let config := { merged with
    text := ⟨typed merged.text.attrs o.fontFamily o.fontSize⟩
    label := ⟨typed merged.label.attrs o.fontFamily (o.fontSize.map (· * labelScale))⟩
    debug := o.debug.getD merged.debug }
  .ok ⟨config, false⟩

end RequestOptions

def renderRequest (code : String) (options : Option String) : Except RequestError String := do
  let read ← match options with
    | none => .ok .none
    | some text => match RequestOptions.parse? text with
      | some read => .ok read
      | none => .error .unreadable
  let resolved ← read.resolve.mapError .options
  (render code resolved).mapError .render

end Flowchart
