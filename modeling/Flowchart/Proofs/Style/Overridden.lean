import Flowchart.Proofs.Style.Described
/-! Overrides laid over a configuration. What they do not reach stays as it was, what they hold is read
in its place, and keys that name no field change nothing. -/
namespace Flowchart

namespace Expected

mutual

/-- The data without the keys that name no field, in the record and in the records within it. -/
def known (e : Expected) : Json → Json
  | .object fields => if e.isRecord then .object (knownFields e fields) else .object fields
  | leaf => leaf

def knownFields (e : Expected) : List (String × Json) → List (String × Json)
  | [] => []
  | (key, v) :: rest =>
    match e.field? key with
    | some inner => (key, inner.known v) :: knownFields e rest
    | none => knownFields e rest

end

variable {e f : Expected} {key : String} {v : Json} {fields : List (String × Json)}

theorem known_leaf (leaf : v.isObject = false) (e : Expected) : e.known v = v := by
  cases v with
  | object fields => cases leaf
  | null | bool | number | text | list => simp [known]

theorem lookup_knownFields_of_none (unnamed : Json.lookup key fields = none) :
    Json.lookup key (e.knownFields fields) = none := by
  induction fields with
  | nil => rfl
  | cons field rest ih =>
      obtain ⟨k, w⟩ := field
      obtain ⟨ne, unnamed⟩ := Json.lookup_cons_eq_none.mp unnamed
      rw [knownFields]
      cases e.field? k with
      | none => exact ih unnamed
      | some inner => exact Json.lookup_cons_eq_none.mpr ⟨ne, ih unnamed⟩

theorem lookup_knownFields (names : e.field? key = some f)
    (named : Json.lookup key fields = some v) :
    Json.lookup key (e.knownFields fields) = some (f.known v) := by
  induction fields with
  | nil => cases named
  | cons field rest ih =>
      obtain ⟨k, w⟩ := field
      rw [Json.lookup] at named
      rw [knownFields]
      split at named
      · next same =>
          subst same
          cases named
          rw [names]
          exact if_pos rfl
      · next ne =>
          cases e.field? k with
          | none => exact ih named
          | some inner => exact (if_neg ne).trans (ih named)

theorem keys_knownFields (e : Expected) (fields : List (String × Json)) :
    ((e.knownFields fields).map Prod.fst).Sublist (fields.map Prod.fst) := by
  induction fields with
  | nil => exact .slnil
  | cons field rest ih =>
      obtain ⟨k, w⟩ := field
      rw [knownFields]
      cases e.field? k with
      | none => exact ih.cons k
      | some inner => exact ih.cons_cons k

theorem increasing_knownFields (sorted : Json.Increasing fields) (e : Expected) :
    Json.Increasing (e.knownFields fields) :=
  List.Pairwise.sublist (e.keys_knownFields fields) sorted

theorem mem_knownFields (mem : (key, v) ∈ e.knownFields fields) :
    ∃ (f : Expected) (w : Json), (key, w) ∈ fields ∧ v = f.known w := by
  induction fields with
  | nil => cases mem
  | cons field rest ih =>
      obtain ⟨k, w⟩ := field
      have later : (key, v) ∈ e.knownFields rest →
          ∃ (f : Expected) (u : Json), (key, u) ∈ (k, w) :: rest ∧ v = f.known u := by
        intro mem
        obtain ⟨f, u, there, same⟩ := ih mem
        exact ⟨f, u, List.mem_cons_of_mem _ there, same⟩
      rw [knownFields] at mem
      cases names : e.field? k with
      | none =>
          rw [names] at mem
          exact later mem
      | some inner =>
          rw [names] at mem
          obtain same | mem := List.mem_cons.mp mem
          · cases same
            exact ⟨inner, w, List.mem_cons_self, rfl⟩
          · exact later mem

theorem ordered_known (sorted : v.Ordered) (e : Expected) : (e.known v).Ordered := by
  induction sorted generalizing e with
  | null | bool | number | text =>
      rw [known_leaf rfl]
      constructor
  | list h =>
      rw [known_leaf rfl]
      exact .list h
  | object keys values ih =>
      rw [known]
      split
      · refine .object (increasing_knownFields keys e) ?_
        rintro ⟨key, v⟩ mem
        obtain ⟨f, w, there, rfl⟩ := mem_knownFields mem
        exact ih _ there f
      · exact .object keys values

end Expected

namespace Config
open Json (lookup)
variable {c d : Settings} {p q : Part} {key : String} {path : List String} {v w : Json}
  {fields changes : List (String × Json)}

theorem isObject_toJson_of_leaf (leaf : p.kind.isRecord = false) (plain : p.kind ≠ .attrs) :
    p.toJson.isObject = false := by
  cases p with
  | number x =>
      rw [Part.toJson, numberJson]
      split <;> rfl
  | text | flag => rfl
  | attrs => exact absurd rfl plain
  | box | diamond | plain | arrowHead | render | config => cases leaf

/-- Only attributes may have been given names that are not distinct. -/
theorem distinct_toJson (plain : p.kind ≠ .attrs) : p.toJson.Distinct := by
  cases record : p.kind.isRecord with
  | true =>
      rw [Part.toJson_record record]
      exact Json.distinct_ofFields _
  | false =>
      intro fields same
      have leaf := isObject_toJson_of_leaf record plain
      rw [same] at leaf
      cases leaf

theorem distinct_overlay_toJson (plain : p.kind ≠ .attrs) (sorted : v.Ordered) :
    (p.toJson.overlay v).Distinct := by
  cases record : p.kind.isRecord with
  | true =>
      obtain ⟨fields, written, increasing⟩ := Part.exists_toJson_record record
      rw [written]
      exact Json.distinct_overlay increasing sorted
  | false =>
      rw [Json.overlay_of_not_object (isObject_toJson_of_leaf record plain)]
      exact sorted.distinct

theorem field?_toJson_of_some (found : p.field? key = some q) :
    p.toJson.field? key = some q.toJson := by
  rw [Part.field?_toJson, found]
  rfl

theorem exists_field?_overlay (record : p.kind.isRecord = true) (sorted : Json.Increasing changes)
    (mem : key ∈ p.kind.keys) : ∃ v, (p.toJson.overlay (.object changes)).field? key = some v := by
  obtain ⟨q, found⟩ := Part.field?_of_mem_keys record mem
  exact Json.exists_field?_overlay sorted (field?_toJson_of_some found)

theorem distinct_field?_overlay (sorted : (Json.object changes).Ordered)
    (held : (c.toJson.overlay (.object changes)).field? key = some v) : v.Distinct := by
  have plain : ∀ {q}, (Part.config c).field? key = some q → q.kind ≠ .attrs := by
    intro q found
    have all : ∀ field ∈ Expected.config.fields, field.2 ≠ .attrs := by decide
    exact all _ (Expected.mem_fields rfl (Part.kind_field? found))
  have written : c.toJson.field? key = _ := Part.field?_toJson (.config c) key
  cases named : lookup key changes with
  | none =>
      rw [Json.field?_overlay_of_unnamed named, written] at held
      obtain ⟨q, found, rfl⟩ := Option.map_eq_some_iff.mp held
      exact distinct_toJson (plain found)
  | some w =>
      cases found : (Part.config c).field? key with
      | none =>
          rw [found] at written
          rw [Json.field?_overlay_of_new sorted.increasing named written] at held
          cases held
          exact (sorted.lookup named).distinct
      | some q =>
          rw [found] at written
          rw [Json.field?_overlay_of_old sorted.increasing named written] at held
          cases held
          exact distinct_overlay_toJson (plain found) (sorted.lookup named)

/-- Overrides laid over a configuration give what the merged data describes. -/
theorem overlaid_iff (sorted : (Json.object changes).Ordered) :
    c.overlaid (.object changes) = .ok d ↔
      Describes (c.toJson.overlay (.object changes)) (.config d) := by
  have record : (Part.config c).kind.isRecord = true := rfl
  obtain ⟨fields, written, increasing⟩ := Part.exists_toJson_record record
  have merged : c.toJson.overlay (.object changes) = .object (Json.overlayFields fields changes) :=
    (congrArg (Json.overlay · _) written).trans (Json.overlay_object _ _)
  have complete : ∀ key ∈ Expected.config.keys,
      ∃ v, (c.toJson.overlay (.object changes)).field? key = some v :=
    fun key mem => exists_field?_overlay record sorted.increasing mem
  have values : ∀ key v, (c.toJson.overlay (.object changes)).field? key = some v → v.Distinct :=
    fun key v held => distinct_field?_overlay sorted held
  rw [merged] at complete values
  rw [overlaid, merged]
  exact ofJson?_iff (Json.increasing_overlayFields increasing).nodup complete values

namespace Describes

theorem exists_field? {e : Expected} (h : Describes (.object fields) p)
    (names : p.kind.field? key = some e) (named : lookup key fields = some v) :
    ∃ q, p.field? key = some q ∧ q.kind = e := by
  cases h with
  | attrs texts =>
      rw [texts, Json.lookup_eq, Part.lookup_map_snd Json.text] at named
      obtain ⟨s, there, rfl⟩ := Option.map_eq_some_iff.mp named
      cases names
      exact ⟨.text s, by rw [Part.field?_attrs, there]; rfl, rfl⟩
  | record record => exact Part.exists_field? record names

theorem exists_lookup (h : Describes (.object fields) p) (found : p.field? key = some q) :
    ∃ v, lookup key fields = some v := by
  cases h with
  | attrs texts =>
      rw [Part.field?_attrs] at found
      obtain ⟨s, there, -⟩ := Option.map_eq_some_iff.mp found
      refine ⟨.text s, ?_⟩
      rw [texts, Json.lookup_eq, Part.lookup_map_snd Json.text, there]
      rfl
  | record record complete => exact complete key (Part.mem_keys record found)

/-- What data holds at a path describes the part at the end of the path. -/
theorem at? {e : Expected} (h : Describes v p) (held : v.at? path = some w)
    (names : p.kind.at? path = some e) :
    ∃ q, p.at? path = some q ∧ q.kind = e ∧ Describes w q := by
  induction path generalizing v p with
  | nil =>
      cases held
      cases names
      exact ⟨p, rfl, rfl, h⟩
  | cons key path ih =>
      obtain ⟨u, named, later⟩ := Option.bind_eq_some_iff.mp held
      obtain ⟨f, first, rest⟩ := Option.bind_eq_some_iff.mp names
      cases v with
      | object fields =>
          obtain ⟨q, found, rfl⟩ := h.exists_field? first named
          rw [Part.at?, found]
          exact ih (h.field found named) later rest
      | null | bool | number | text | list => cases named

theorem reaches (h : Describes v p) (found : p.at? path = some q) : v.Reaches path := by
  induction path generalizing v p with
  | nil => trivial
  | cons key path ih =>
      obtain ⟨r, first, later⟩ := Option.bind_eq_some_iff.mp found
      cases v with
      | object fields =>
          obtain ⟨u, named⟩ := h.exists_lookup first
          exact ⟨u, named, ih (h.field first named) later⟩
      | null | bool | number | text | list => trivial

end Describes

/-- Every part that the overrides do not reach stays. -/
theorem at?_of_not_reaches (written : Describes c.toJson (.config c)) (sorted : v.Ordered)
    (h : Describes (c.toJson.overlay v) (.config d)) (free : ¬ v.Reaches path) :
    (Part.config d).at? path = (Part.config c).at? path := by
  have before : c.toJson.at? path = ((Part.config c).at? path).map Part.toJson :=
    Part.at?_toJson (.config c) path
  have after := (Json.at?_overlay_of_not_reaches sorted free).trans before
  cases found : (Part.config c).at? path with
  | none =>
      -- A new part would be reached in the merged data, so its name would lead on from a leaf.
      refine Option.eq_none_iff_forall_ne_some.mpr fun q there => ?_
      have reached : (Part.config c).toJson.Reaches path :=
        Json.reaches_of_overlay sorted free (h.reaches there)
      have none : Expected.config.at? path = none := Part.at?_kind_of_reaches reached found
      have some : Expected.config.at? path = some q.kind := Part.kind_at? there
      rw [none] at some
      cases some
  | some p =>
      have kind := Part.kind_at? found
      -- Both parts are described by the same data.
      rw [found] at before after
      obtain ⟨q, there, same, now⟩ := h.at? after kind
      obtain ⟨o, here, -, old⟩ := written.at? before kind
      rw [found] at here
      cases here
      rw [there, old.unique now same.symm ?_ ?_]
      · cases path with
        | nil => exact absurd trivial free
        | cons key path =>
            obtain ⟨f, first, later⟩ := Option.bind_eq_some_iff.mp kind
            exact Expected.at?_ne_config (Expected.field?_ne_config first) later
      · intro record
        rw [Part.toJson_record record]
        exact Json.distinct_ofFields _

theorem describes_record_iff (record : p.kind.isRecord = true) (inner : v.isObject = true) :
    Describes v p ↔ (∀ key ∈ p.kind.keys, ∃ w, v.field? key = some w) ∧
      ∀ key q w, p.field? key = some q → v.field? key = some w → Describes w q := by
  cases v with
  | object fields =>
      exact ⟨fun h => ⟨h.named record, fun key q w found named => h.field found named⟩,
        fun h => .record record h.1 h.2⟩
  | null | bool | number | text | list => cases inner

theorem describes_overlay_known (kinds : p.kind = q.kind) (h : Describes (p.toJson.overlay v) q)
    (sorted : v.Ordered) : Describes (p.toJson.overlay (p.kind.known v)) q := by
  induction sorted generalizing p q with
  | null | bool | number | text | list =>
      rw [Expected.known_leaf rfl]
      exact h
  | @object changes keys values ih =>
      rw [Expected.known]
      split
      · next record =>
          have known := Expected.increasing_knownFields keys p.kind
          rw [describes_record_iff (kinds ▸ record) (Json.isObject_overlay _ _)] at h ⊢
          refine ⟨fun key mem => exists_field?_overlay record known (kinds ▸ mem),
            fun key r u found held => ?_⟩
          obtain ⟨o, old, same⟩ := Part.exists_field? record (kinds ▸ Part.kind_field? found)
          have base := field?_toJson_of_some old
          cases named : lookup key changes with
          | none =>
              rw [Json.field?_overlay_of_unnamed (Expected.lookup_knownFields_of_none named)] at held
              exact h.2 key r u found ((Json.field?_overlay_of_unnamed named).trans held)
          | some w =>
              have laid := h.2 key r _ found (Json.field?_overlay_of_old keys named base)
              rw [Json.field?_overlay_of_old known
                (Expected.lookup_knownFields (Part.kind_field? old) named) base] at held
              cases held
              exact ih (key, w) (Json.mem_of_lookup named) same laid
      · exact h

/-- Overrides change what they name. A part that they do not reach stays, and there are no new ones
but those they hold; what they hold at the path of a part, if it is no object, describes that part
afterwards; and keys that name no field might as well be left out. -/
theorem overlaid_changes (finite : c.Finite) (sorted : (Json.object changes).Ordered)
    (made : c.overlaid (.object changes) = .ok d) :
    (∀ path, ¬ (Json.object changes).Reaches path →
      (Part.config d).at? path = (Part.config c).at? path) ∧
    (∀ path e w, Expected.config.at? path = some e → (Json.object changes).at? path = some w →
      w.isObject = false → ∃ q, (Part.config d).at? path = some q ∧ q.kind = e ∧ Describes w q) ∧
    c.overlaid (Expected.config.known (.object changes)) = .ok d := by
  have merged := (overlaid_iff sorted).mp made
  have written : Describes c.toJson (.config c) := by
    have nothing : (Json.object []).Ordered := .object .nil (List.forall_mem_nil _)
    rw [← toJson_overlay_nothing]
    exact (overlaid_iff nothing).mp ((overlaid_nothing c).1.mpr finite)
  have known : (Json.object (Expected.config.knownFields changes)).Ordered :=
    Expected.ordered_known sorted .config
  refine ⟨fun path free => at?_of_not_reaches written sorted merged free,
    fun path e w names held leaf => merged.at? (Json.at?_overlay_of_at? sorted held leaf) names, ?_⟩
  have kinds : (Part.config c).kind = (Part.config d).kind := rfl
  exact (overlaid_iff known).mpr (describes_overlay_known kinds merged sorted)

theorem overlaid_changes_frame : ∃ d, classic.overlaid (.object [
      ("frame", .list [.object [], .number (.natural 1), .number (.natural 2)]),
      ("rect", .object [("attrs", .object [("rx", .text "8")]), ("size", .null)])]) = .ok d ∧
    (Part.config d).at? ["rect", "attrs", "fill"] =
      (Part.config classic).at? ["rect", "attrs", "fill"] ∧
    (∃ q, (Part.config d).at? ["frame"] = some q ∧ q.kind = .box ∧
      Describes (.list [.object [], .number (.natural 1), .number (.natural 2)]) q) ∧
    classic.overlaid (.object [
      ("frame", .list [.object [], .number (.natural 1), .number (.natural 2)]),
      ("rect", .object [("attrs", .object [("rx", .text "8")])])]) = .ok d := by
  have run : (classic.overlaid (.object [
      ("frame", .list [.object [], .number (.natural 1), .number (.natural 2)]),
      ("rect", .object [("attrs", .object [("rx", .text "8")]), ("size", .null)])])).toOption.any
        (fun _ => true) = true := by
    decide +kernel
  have finite : (classic : Settings).Finite := by
    refine ⟨?_, ?_, ?_, ?_, ?_, ⟨?_, ?_⟩, ?_, ⟨?_, ?_⟩, ?_, ?_⟩ <;> decide +kernel
  have sorted : (Json.object [
      ("frame", .list [.object [], .number (.natural 1), .number (.natural 2)]),
      ("rect", .object [("attrs", .object [("rx", .text "8")]), ("size", .null)])]).Ordered := by
    have empty : (Json.object []).Ordered := .object .nil (List.forall_mem_nil _)
    have rect : (Json.object [("attrs", .object [("rx", .text "8")]), ("size", .null)]).Ordered := by
      refine .object (by decide) (List.forall_mem_cons.mpr ⟨?_, List.forall_mem_singleton.mpr .null⟩)
      exact .object (by decide) (List.forall_mem_singleton.mpr (.text "8"))
    refine .object (by decide)
      (List.forall_mem_cons.mpr ⟨.list ?_, List.forall_mem_singleton.mpr rect⟩)
    exact List.forall_mem_cons.mpr ⟨empty, List.forall_mem_cons.mpr
      ⟨.number _, List.forall_mem_singleton.mpr (.number _)⟩⟩
  obtain ⟨d, made, -⟩ := exists_of_any_toOption run
  obtain ⟨stays, takes, known⟩ := overlaid_changes finite sorted made
  refine ⟨d, made, stays _ ?_, takes _ _ _ rfl rfl rfl, known⟩
  simp [Json.Reaches, Json.lookup]

end Config
end Flowchart
