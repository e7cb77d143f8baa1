import Flowchart.Output.Request
import Flowchart.Proofs.Command.Single
import Flowchart.Proofs.Json.Nesting
import Flowchart.Proofs.Style.Themed
/-! One theme and one set of overrides, given in three ways: by the options of a request, by a
configuration that is made from overrides that name the theme, and by a configuration file. All three
draw the same, or are stopped by the same fault. -/
namespace Flowchart

namespace Config
variable {t : String} {c : List (String × Json)}

theorem ofOverrides_put_theme {theme : Theme} (known : Theme.named? t = some theme)
    (unnamed : Json.lookup "theme" c = none) :
    ofOverrides (.object (Json.put "theme" (.text t) c)) =
      (((theme.apply classic).overlaid (.object c)).map (titled · t)).mapError .data := by
  have named : ((Json.object (Json.put "theme" (.text t) c)).field? "theme").bind Json.text? =
      some t := by
    rw [Json.field?, Json.lookup_put, if_pos rfl]
    rfl
  rw [ofOverrides, named, ← overlaid_put_theme _ unnamed]
  change Config.themed classic t >>= _ = _
  rw [Config.themed, known]
  rfl

end Config

/-- Options that name a known theme and overrides, and nothing else, lay the overrides over the
theme. -/
theorem RequestOptions.resolve_theme_config {t : String} {theme : Theme}
    (known : Theme.named? t = some theme) (overrides : Json) :
    (⟨some t, .none, .none, .none, some overrides⟩ : RequestOptions).resolve =
      (((theme.apply .classic).overlaid overrides).map (⟨·, false⟩)).mapError .data := by
  have themed : (Config.classic : Config Float32).themed t = .ok (theme.apply .classic) := by
    rw [Config.themed, known]
  rw [resolve]
  dsimp only
  rw [themed]
  change ((theme.apply .classic).overlaid overrides).mapError OverrideError.data >>= _ = _
  cases (theme.apply .classic).overlaid overrides <;> rfl

namespace Arguments

/-- Arguments that draw the standard input with a configuration file: they name the file, and leave
everything else as it is. -/
structure DrawsWith (a : Arguments) (path : String) : Prop where
  configFile : a.configFile = some path
  input : ∀ name, a.input = some name → FilePath.isName "-" name = true
  output : a.output = none
  format : a.format.getD .svg = .svg
  theme : a.theme = none
  scale : a.scale = none
  fontMetrics : a.fontMetrics = false
  debug : a.debug = false

variable {a : Arguments} {path : String} {s : Surroundings}

theorem DrawsWith.sources (h : a.DrawsWith path) : Command.sources s a = .ok [s.stdin] := by
  unfold Command.sources
  cases given : a.input with
  | none => rfl
  | some name =>
      dsimp only
      rw [if_pos (h.input name given)]

theorem DrawsWith.configure (h : a.DrawsWith path) :
    Command.configure s a = (ConfigFile.load s.read (some path)).mapError .config := by
  unfold Command.configure
  rw [h.configFile, h.theme, h.scale, h.debug]
  cases ConfigFile.load s.read (some path) with
  | error e => rfl
  | ok config =>
      change Except.ok { config with debug := config.debug || false } = Except.ok config
      rw [Bool.or_false]

theorem DrawsWith.planFor (h : a.DrawsWith path) :
    Command.planFor s a = (do
      let config ← (ConfigFile.load s.read (some path)).mapError .config
      let svg ← (render s.stdin ⟨config, false⟩).mapError (Command.errorOfRender s.stdin)
      .ok ⟨[.print svg], none⟩) := by
  unfold Command.planFor
  rw [h.configure]
  cases ConfigFile.load s.read (some path) with
  | error e => rfl
  | ok config =>
      change (Command.sources s a >>= _) = _
      rw [h.sources]
      change (Command.deedFor config (Command.measureFor a config) (a.format.getD .svg) s.stdin
        a.output >>= _) = _
      rw [Command.measureFor, h.format, h.output, h.fontMetrics, Command.deedFor_svg]
      change _ = ((render s.stdin ⟨config, false⟩).mapError _ >>= _)
      cases render s.stdin ⟨config, false⟩ with
      | error e => rfl
      | ok svg =>
          change Except.ok (Plan.mk [.print (svg ++ "")] none) = _
          rw [String.append_empty]
          rfl

end Arguments

/-- A request, a drawing under overrides and a command answer alike: with the same drawing, or with
the same fault of the overrides or of the source. -/
inductive SameAnswer (source options : String) (overrides : Json) (disk : Disk)
    (words : List String) : Prop where
  | drawn (svg : String) (config : Config Float32)
      (request : renderRequest source (some options) = .ok svg)
      (overridden : Config.ofOverrides overrides = .ok config)
      (drawing : render source ⟨config, false⟩ = .ok svg)
      (command : Command.run disk source words = ⟨0, svg, "", disk⟩)
  | misfit (e : DataError)
      (request : renderRequest source (some options) = .error (.options (.data e)))
      (overridden : Config.ofOverrides overrides = .error (.data e))
      (command : Command.run disk source words = ⟨1, "", "error: " ++ e.message ++ "\n", disk⟩)
  | misread (e : ParseError) (config : Config Float32)
      (request : renderRequest source (some options) = .error (.render (.parse e)))
      (overridden : Config.ofOverrides overrides = .ok config)
      (drawing : render source ⟨config, false⟩ = .error (.parse e))
      (command : Command.run disk source words =
        ⟨1, "", "error: " ++ (e.message ++ "\n" ++ Excerpt.around source e.line) ++ "\n", disk⟩)

theorem renderRequest_of_resolve (source : String) {options : String} {o : RequestOptions}
    (asked : RequestOptions.parse? options = some o) :
    renderRequest source (some options) =
      (o.resolve.mapError .options >>= fun resolved => (render source resolved).mapError .render) := by
  unfold renderRequest
  dsimp only
  rw [asked]
  rfl

theorem Arguments.DrawsWith.run {a : Arguments} {path text : String} (source : String)
    {overrides : Json} {disk : Disk} {words : List String} (h : a.DrawsWith path)
    (understood : Arguments.ofWords words = .ok a) (file : disk.read path = .ok text)
    (strict : ConfigFile.isRelaxed path = false) (read : Json.parse? text = some overrides) :
    Command.run disk source words =
      match Config.ofOverrides overrides with
      | .error e => ⟨1, "", "error: " ++ e.message ++ "\n", disk⟩
      | .ok config =>
        match render source ⟨config, false⟩ with
        | .error e => ⟨1, "", "error: " ++ (Command.errorOfRender source e).message ++ "\n", disk⟩
        | .ok svg => ⟨0, svg, "", disk⟩ := by
  have loaded : ConfigFile.load disk.read (some path) =
      (Config.ofOverrides overrides).mapError .overrides := by
    rw [ConfigFile.load, file]
    change ConfigFile.parse path text = _
    rw [ConfigFile.parse, strict, if_neg Bool.false_ne_true, read]
  rw [Command.run_of_words understood]
  have planned := h.planFor (s := ⟨disk.read, disk.isDirectory, source⟩)
  rw [loaded] at planned
  cases overridden : Config.ofOverrides overrides with
  | error e =>
      rw [overridden] at planned
      exact Command.carryOut_of_error planned
  | ok config =>
      rw [overridden] at planned
      change _ = ((render source ⟨config, false⟩).mapError _ >>= _) at planned
      dsimp only
      cases drawn : render source ⟨config, false⟩ with
      | error e =>
          rw [drawn] at planned
          exact Command.carryOut_of_error planned
      | ok svg =>
          rw [drawn] at planned
          exact (Command.carryOut_of_plan planned).trans
            (congrArg (Outcome.mk 0 · "" disk) String.empty_append)

/-- A request with options that are read as a known theme and overrides, a drawing under the overrides
with the theme named among them, and a command that draws its standard input with a configuration
file that is read as those overrides, answer alike. -/
theorem fronts_agree {source options path text t : String} {c : List (String × Json)} {disk : Disk}
    {words : List String} {a : Arguments} (known : (Theme.named? t).isSome = true)
    (unnamed : Json.lookup "theme" c = none)
    (asked : RequestOptions.parse? options = some ⟨some t, none, none, none, some (.object c)⟩)
    (understood : Arguments.ofWords words = .ok a) (draws : a.DrawsWith path)
    (file : disk.read path = .ok text)
    (strict : ConfigFile.isRelaxed path = false)
    (read : Json.parse? text = some (.object (Json.put "theme" (.text t) c))) :
    SameAnswer source options (.object (Json.put "theme" (.text t) c)) disk words := by
  obtain ⟨theme, known⟩ := Option.isSome_iff_exists.mp known
  have request := renderRequest_of_resolve source asked
  rw [RequestOptions.resolve_theme_config known] at request
  have overridden := Config.ofOverrides_put_theme known unnamed
  have command := draws.run source understood file strict read
  rw [overridden] at command
  cases laid : (theme.apply Config.classic).overlaid (.object c) with
  | error e =>
      rw [laid] at request overridden command
      exact .misfit e request overridden command
  | ok config =>
      rw [laid] at request overridden command
      change Command.run disk source words =
        (match render source ⟨config.titled t, false⟩ with
        | .error e => ⟨1, "", "error: " ++ (Command.errorOfRender source e).message ++ "\n", disk⟩
        | .ok svg => ⟨0, svg, "", disk⟩) at command
      change renderRequest source (some options) =
        (render source ⟨config, false⟩).mapError .render at request
      obtain ⟨svg, drawn⟩ | ⟨e, misread⟩ := render_ok_or_parse source ⟨config, false⟩
      · have again := (render_titled source config t false).trans drawn
        rw [drawn] at request
        rw [again] at command
        exact .drawn svg _ request overridden again command
      · have again := (render_titled source config t false).trans misread
        rw [misread] at request
        rw [again] at command
        exact .misread e _ request overridden again command

/-- The default theme and another word for yes, given in three ways. -/
theorem fronts_agree_default :
    SameAnswer "if a\n  b" "\x7b\"theme\":\"default\",\"config\":\x7b\"yesText\":\"J\"\x7d\x7d"
      (.object (Json.put "theme" (.text "default") [("yesText", .text "J")]))
      { files := [(["c.json".toList], "\x7b\"yesText\":\"J\",\"theme\":\"default\"\x7d")]
        directories := [] }
      ["-c", "c.json"] :=
  fronts_agree (by decide) (by decide) (by cbv) (by cbv)
    (a := { Arguments.empty with configFile := some "c.json" })
    ⟨rfl, nofun, rfl, rfl, rfl, rfl, rfl, rfl⟩ (by cbv) (by cbv) (by cbv)

/-- Options whose first field is an object of one field that holds lists in lists. -/
def RequestOptions.nestedText (levels : Nat) (rest : List Char) : List Char :=
  '{' :: '"' :: 'c' :: 'o' :: 'n' :: 'f' :: 'i' :: 'g' :: '"' :: ':' ::
    Json.keyed (Json.bracketed (levels + 1) ('}' :: rest))

/-- Overrides lie one level deeper in options than in a document of their own. -/
theorem RequestOptions.parse?_nested {levels : Nat} (deep : Json.depthLimit ≤ levels + 3)
    (rest : List Char) : parse? (.ofList (nestedText levels rest)) = .none := by
  have refused :=
    Json.value?_keyed (Json.depthLimit - 1) rest (Json.enough_keyed levels ('}' :: rest))
  rw [if_neg (by omega)] at refused
  unfold parse? nestedText
  rw [String.toList_ofList]
  change ((Json.value? .kept _ _ (Json.keyed _) >>= _) >>= _) = _
  rw [refused]
  rfl

/-- Overrides of 127 levels are a document of their own, and a drawing under them succeeds; but as part
of options they are refused. -/
theorem fronts_part_nested :
    Json.parse? (.ofList (Json.keyed (Json.bracketed 126 ['}']))) =
      some (.object [("x", Json.nested 125)]) ∧
    Json.lookup "theme" [("x", Json.nested 125)] = none ∧
    renderRequest "a" (some (.ofList
      (RequestOptions.nestedText 125 ",\"theme\":\"classic\"\x7d".toList))) = .error .unreadable ∧
    ∃ config svg,
      Config.ofOverrides (.object (Json.put "theme" (.text "classic") [("x", Json.nested 125)])) =
        .ok config ∧
      render "a" ⟨config, false⟩ = .ok svg := by
  refine ⟨Json.parse?_keyed (by decide), rfl, ?_, ?_⟩
  · rw [renderRequest, RequestOptions.parse?_nested (by decide)]
    rfl
  · have checked : ((Config.ofOverrides (.object (Json.put "theme" (.text "classic")
        [("x", Json.nested 125)]))).toOption.any fun config =>
          (config.lexis.parse "a").toOption.any fun _ => true) = true := by
      decide +kernel
    obtain ⟨config, overridden, read⟩ := exists_of_any_toOption checked
    obtain ⟨program, parsed, -⟩ := exists_of_any_toOption read
    obtain ⟨svg, drawn⟩ := render_ok_of_parse ⟨config, false⟩ parsed
    exact ⟨config, svg, overridden, drawn⟩

end Flowchart
