import Flowchart.Proofs.Json.Paths
import Flowchart.Proofs.Style.Refined
/-! Configurations as trees. Names lead from a configuration to its records, and from these to texts,
numbers and attributes; what stands at a place is read by the reader of that place. -/
namespace Flowchart

namespace Expected

/-- The fields of a record in the order of their declaration, and what each has to hold. -/
def fields : Expected → List (String × Expected)
  | .single | .text | .flag | .attrs => []
  | .box => [("attrs", .attrs), ("padX", .single), ("padY", .single)]
  | .diamond => [("attrs", .attrs), ("aspectRatio", .single)]
  | .plain => [("attrs", .attrs)]
  | .arrowHead => [("attrs", .attrs), ("size", .single)]
  | .render => [("scale", .single), ("background", .text)]
  | .config => [
    ("marginX", .single), ("marginY", .single), ("stepX", .single), ("stepY", .single),
    ("hlineMargin", .single), ("theme", .text), ("rect", .box), ("diamond", .diamond),
    ("path", .plain), ("text", .plain), ("label", .plain), ("frame", .box),
    ("arrowHead", .arrowHead), ("yesText", .text), ("noText", .text), ("commentMarker", .text),
    ("indentChars", .text), ("debug", .flag), ("render", .render)]

def keys (e : Expected) : List String := e.fields.map Prod.fst

def isRecord (e : Expected) : Bool := !e.fields.isEmpty

def field? (key : String) : Expected → Option Expected
  | .attrs => some .text
  | e => e.fields.lookup key

def at? : List String → Expected → Option Expected
  | [], e => some e
  | key :: path, e => (e.field? key).bind (at? path)

theorem keys_nodup (e : Expected) : e.keys.Nodup := by
  cases e <;> decide

variable {e f : Expected} {key : String} {path : List String}

theorem field?_of_isRecord (record : e.isRecord = true) (key : String) :
    e.field? key = e.fields.lookup key := by
  cases e <;> first | rfl | cases record

theorem mem_fields (record : e.isRecord = true) (named : e.field? key = some f) :
    (key, f) ∈ e.fields := by
  rw [field?_of_isRecord record] at named
  obtain ⟨before, after, same, -⟩ := List.lookup_eq_some_iff.mp named
  rw [same]
  exact List.mem_append_right _ List.mem_cons_self

theorem isRecord_of_field? (record : e.isRecord = true) (inner : e ≠ .config)
    (named : e.field? key = some f) : f.isRecord = false := by
  have all : ∀ field ∈ e.fields, field.2.isRecord = false := by
    cases e with
    | config => exact absurd rfl inner
    | _ => decide
  exact all _ (mem_fields record named)

theorem field?_ne_config (named : e.field? key = some f) : f ≠ .config := by
  by_cases record : e.isRecord = true
  · have all : ∀ field ∈ e.fields, field.2 ≠ .config := by
      cases e <;> decide
    exact all _ (mem_fields record named)
  · cases e with
    | single | text | flag => cases named
    | attrs =>
        cases named
        decide
    | box | diamond | plain | arrowHead | render | config => exact absurd rfl record

theorem at?_ne_config (inner : e ≠ .config) (named : e.at? path = some f) : f ≠ .config := by
  induction path generalizing e with
  | nil =>
      cases named
      exact inner
  | cons key path ih =>
      obtain ⟨next, first, later⟩ := Option.bind_eq_some_iff.mp named
      exact ih (field?_ne_config first) later

end Expected

namespace Config
inductive Part where
  | number (x : Float32)
  | text (s : String)
  | flag (b : Bool)
  | attrs (a : Attrs)
  | box (s : BoxStyle Float32)
  | diamond (s : DiamondStyle Float32)
  | plain (s : PlainStyle)
  | arrowHead (s : ArrowHeadStyle Float32)
  | render (s : RenderStyle Float32)
  | config (c : Settings)

namespace Part

def kind : Part → Expected
  | .number _ => .single
  | .text _ => .text
  | .flag _ => .flag
  | .attrs _ => .attrs
  | .box _ => .box
  | .diamond _ => .diamond
  | .plain _ => .plain
  | .arrowHead _ => .arrowHead
  | .render _ => .render
  | .config _ => .config

def fields : Part → List (String × Part)
  | .number _ | .text _ | .flag _ => []
  | .attrs a => a.entries.map fun (name, value) => (name, .text value)
  | .box s => [("attrs", .attrs s.attrs), ("padX", .number s.padX), ("padY", .number s.padY)]
  | .diamond s => [("attrs", .attrs s.attrs), ("aspectRatio", .number s.aspectRatio)]
  | .plain s => [("attrs", .attrs s.attrs)]
  | .arrowHead s => [("attrs", .attrs s.attrs), ("size", .number s.size)]
  | .render s => [("scale", .number s.scale), ("background", .text s.background)]
  | .config c => [
    ("marginX", .number c.marginX), ("marginY", .number c.marginY), ("stepX", .number c.stepX),
    ("stepY", .number c.stepY), ("hlineMargin", .number c.hlineMargin), ("theme", .text c.theme),
    ("rect", .box c.rect), ("diamond", .diamond c.diamond), ("path", .plain c.path),
    ("text", .plain c.text), ("label", .plain c.label), ("frame", .box c.frame),
    ("arrowHead", .arrowHead c.arrowHead), ("yesText", .text c.yesText),
    ("noText", .text c.noText), ("commentMarker", .text c.commentMarker),
    ("indentChars", .text c.indentChars), ("debug", .flag c.debug), ("render", .render c.render)]

def field? (key : String) (p : Part) : Option Part := p.fields.lookup key

def at? : List String → Part → Option Part
  | [], p => some p
  | key :: path, p => (p.field? key).bind (at? path)

def toJson : Part → Json
  | .number x => numberJson x
  | .text s => .text s
  | .flag b => .bool b
  | .attrs a => attrsJson a
  | .box s => boxJson s
  | .diamond s => diamondJson s
  | .plain s => plainJson s
  | .arrowHead s => arrowHeadJson s
  | .render s => renderJson s
  | .config c => c.toJson

def read : Part → Json → Except DataError Part
  | .number _, v => .number <$> readNumber v
  | .text _, v => .text <$> readText v
  | .flag _, v => .flag <$> readFlag v
  | .attrs _, v => .attrs <$> readAttrs v
  | .box s, v => .box <$> boxForm.read s v
  | .diamond s, v => .diamond <$> diamondForm.read s v
  | .plain s, v => .plain <$> plainForm.read s v
  | .arrowHead s, v => .arrowHead <$> arrowHeadForm.read s v
  | .render s, v => .render <$> renderForm.read s v
  | .config c, v => .config <$> form.read c v

variable {p q r : Part} {key : String} {path : List String}

theorem lookup_map_snd {α β : Type} (f : α → β) (entries : List (String × α)) (key : String) :
    (entries.map fun entry => (entry.1, f entry.2)).lookup key = (entries.lookup key).map f := by
  induction entries with
  | nil => rfl
  | cons entry rest ih =>
      rw [List.map_cons, List.lookup_cons, List.lookup_cons, ih]
      split <;> rfl

theorem fields_kind (record : p.kind.isRecord = true) :
    p.fields.map (fun field => (field.1, field.2.kind)) = p.kind.fields := by
  cases p <;> first | rfl | cases record

theorem field?_kind (record : p.kind.isRecord = true) (key : String) :
    (p.field? key).map kind = p.kind.field? key := by
  rw [Expected.field?_of_isRecord record, ← fields_kind record, lookup_map_snd, field?]

theorem field?_attrs (a : Attrs) (key : String) :
    (attrs a).field? key = (a.entries.lookup key).map text :=
  lookup_map_snd text a.entries key

theorem kind_field? (found : p.field? key = some q) : p.kind.field? key = some q.kind := by
  by_cases record : p.kind.isRecord = true
  · rw [← field?_kind record, found]
    rfl
  · cases p with
    | number | text | flag => cases found
    | attrs a =>
        rw [field?_attrs] at found
        obtain ⟨value, -, rfl⟩ := Option.map_eq_some_iff.mp found
        rfl
    | box | diamond | plain | arrowHead | render | config => exact absurd rfl record

theorem exists_field? (record : p.kind.isRecord = true) {e : Expected}
    (named : p.kind.field? key = some e) : ∃ q, p.field? key = some q ∧ q.kind = e := by
  rw [← field?_kind record] at named
  exact Option.map_eq_some_iff.mp named

theorem lookup_of_new {α : Type} {entries : List (String × α)}
    (new : key ∉ entries.map Prod.fst) : entries.lookup key = none := by
  refine List.lookup_eq_none_iff.mpr fun entry mem => bne_iff_ne.mpr ?_
  rintro rfl
  exact new (List.mem_map_of_mem mem)

theorem ext_lookup {α : Type} {entries others : List (String × α)}
    (distinct : (entries.map Prod.fst).Nodup) (keys : entries.map Prod.fst = others.map Prod.fst)
    (same : ∀ key, entries.lookup key = others.lookup key) : entries = others := by
  induction entries generalizing others with
  | nil => exact (List.map_eq_nil_iff.mp keys.symm).symm
  | cons entry rest ih =>
      cases others with
      | nil => cases keys
      | cons other tail =>
          obtain ⟨key, x⟩ := entry
          obtain ⟨k, y⟩ := other
          obtain ⟨first, others⟩ := List.cons.inj keys
          cases first
          obtain ⟨new, distinct⟩ := List.nodup_cons.mp distinct
          have head := same key
          rw [List.lookup_cons_self, List.lookup_cons_self] at head
          cases head
          refine congrArg _ (ih distinct others fun asked => ?_)
          by_cases eq : asked = key
          · subst eq
            rw [lookup_of_new new, lookup_of_new (others ▸ new)]
          · have later := same asked
            rwa [List.lookup_cons, List.lookup_cons, beq_false_of_ne eq] at later

theorem fields_injective (record : p.kind.isRecord = true) (kinds : p.kind = q.kind)
    (same : p.fields = q.fields) : p = q := by
  cases p <;> cases q <;> first | (cases record; done) | (cases kinds; done) | skip
  all_goals
    rename_i s t
    cases s
    cases t
    simpa [fields] using same

theorem keys_fields (record : p.kind.isRecord = true) :
    p.fields.map Prod.fst = p.kind.keys := by
  rw [Expected.keys, ← fields_kind record, List.map_map]
  rfl

theorem mem_keys (record : p.kind.isRecord = true) (found : p.field? key = some q) :
    key ∈ p.kind.keys := by
  rw [← keys_fields record]
  by_contra new
  rw [field?, lookup_of_new new] at found
  cases found

theorem field?_of_mem_keys (record : p.kind.isRecord = true) (mem : key ∈ p.kind.keys) :
    ∃ q, p.field? key = some q := by
  rw [← keys_fields record] at mem
  obtain ⟨field, there, rfl⟩ := List.mem_map.mp mem
  cases found : p.field? field.1 with
  | some q => exact ⟨q, rfl⟩
  | none => simpa using List.lookup_eq_none_iff.mp found field there

theorem kind_at? (found : p.at? path = some q) : p.kind.at? path = some q.kind := by
  induction path generalizing p with
  | nil =>
      cases found
      rfl
  | cons key path ih =>
      obtain ⟨next, first, later⟩ := Option.bind_eq_some_iff.mp found
      rw [Expected.at?, kind_field? first]
      exact ih later

theorem ext_fields (record : p.kind.isRecord = true) (kinds : p.kind = q.kind)
    (same : ∀ key, p.field? key = q.field? key) : p = q := by
  have keys := keys_fields record
  refine fields_injective record kinds (ext_lookup (keys ▸ p.kind.keys_nodup) ?_ same)
  rw [keys, keys_fields (kinds ▸ record), kinds]

theorem toJson_record (record : p.kind.isRecord = true) :
    p.toJson = .ofFields (p.fields.map fun field => (field.1, field.2.toJson)) := by
  cases p <;> first | (cases record; done) | rfl

theorem field?_toJson (p : Part) (key : String) :
    p.toJson.field? key = (p.field? key).map toJson := by
  by_cases record : p.kind.isRecord = true
  · have keys : (p.fields.map fun field => (field.1, field.2.toJson)).map Prod.fst = p.kind.keys := by
      rw [← keys_fields record, List.map_map]
      rfl
    rw [toJson_record record, Json.field?_ofFields (keys ▸ p.kind.keys_nodup), Json.lookup_eq,
      lookup_map_snd]
    rfl
  · cases p with
    | number x =>
        rw [toJson, numberJson]
        split <;> rfl
    | text | flag => rfl
    | attrs a =>
        rw [field?_attrs, Option.map_map]
        exact (Json.lookup_eq _ _).trans (lookup_map_snd Json.text a.entries key)
    | box | diamond | plain | arrowHead | render | config => exact absurd rfl record

theorem at?_toJson (p : Part) (path : List String) :
    p.toJson.at? path = (p.at? path).map toJson := by
  induction path generalizing p with
  | nil => rfl
  | cons key path ih =>
      rw [Json.at?_cons, field?_toJson, at?]
      cases p.field? key with
      | none => rfl
      | some q => exact ih q

theorem isObject_toJson {e : Expected} (named : p.kind.field? key = some e) :
    p.toJson.isObject = true := by
  cases p with
  | number | text | flag => cases named
  | attrs | box | diamond | plain | arrowHead | render | config => rfl

/-- Where a written part is reached and no part stands, none can stand. -/
theorem at?_kind_of_reaches (reached : p.toJson.Reaches path) (absent : p.at? path = none) :
    p.kind.at? path = none := by
  induction path generalizing p with
  | nil => cases absent
  | cons key path ih =>
      rw [Expected.at?]
      cases named : p.kind.field? key with
      | none => rfl
      | some e =>
          obtain ⟨w, held, later⟩ := Json.reaches_field reached (isObject_toJson named)
          rw [field?_toJson] at held
          obtain ⟨q, found, rfl⟩ := Option.map_eq_some_iff.mp held
          rw [at?, found] at absent
          have kinds := kind_field? found
          rw [named] at kinds
          cases kinds
          exact ih later absent

theorem exists_toJson_record (record : p.kind.isRecord = true) :
    ∃ fields, p.toJson = .object fields ∧ Json.Increasing fields :=
  ⟨_, toJson_record record, Json.increasing_foldl_put List.Pairwise.nil⟩

end Part
end Config
end Flowchart
