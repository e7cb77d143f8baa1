import Flowchart.Proofs.Style.Parts
/-! What data describes. An object describes a record if it names every field and describes what the
field holds, and a list if it has these in the order of their declaration; keys that name no field are
passed over. A part is read from data exactly if the data describes it. -/
namespace Flowchart.Config
open Json (lookup)

/-- The data writes the part, in the order of the names or in that of the declaration. -/
inductive Describes : Json → Part → Prop where
  | number (n : JsonNumber) : Describes (.number n) (.number (toSingle n))
  | text (s : String) : Describes (.text s) (.text s)
  | flag (b : Bool) : Describes (.bool b) (.flag b)
  | attrs {fields : List (String × Json)} {a : Attrs}
      (texts : fields = a.entries.map fun (name, value) => (name, .text value)) :
      Describes (.object fields) (.attrs a)
  | record {fields : List (String × Json)} {p : Part} (record : p.kind.isRecord = true)
      (complete : ∀ key ∈ p.kind.keys, ∃ v, lookup key fields = some v)
      (each : ∀ key q v, p.field? key = some q → lookup key fields = some v → Describes v q) :
      Describes (.object fields) p
  | list {items : List Json} {p : Part} (record : p.kind.isRecord = true)
      (length : items.length = p.kind.keys.length)
      (inOrder : Describes (.object (p.kind.keys.zip items)) p) : Describes (.list items) p

variable {ρ : Type} {p q : Part} {key : String} {v w : Json} {fields : List (String × Json)}

namespace Describes

theorem named (h : Describes (.object fields) p) (record : p.kind.isRecord = true) :
    ∀ key ∈ p.kind.keys, ∃ v, lookup key fields = some v := by
  cases h with
  | attrs => cases record
  | record record complete => exact complete

theorem field (h : Describes (.object fields) p) (found : p.field? key = some q)
    (named : lookup key fields = some v) : Describes v q := by
  cases h with
  | attrs texts =>
      rw [texts, Json.lookup_eq, Part.lookup_map_snd Json.text] at named
      rw [Part.field?_attrs] at found
      obtain ⟨s, there, rfl⟩ := Option.map_eq_some_iff.mp named
      rw [there] at found
      cases found
      exact .text s
  | record record complete each => exact each key q v found named

end Describes

theorem entries_of_readEntries {entries : List (String × String)}
    (h : readEntries fields = .ok entries) :
    fields = entries.map fun (name, value) => (name, .text value) := by
  induction fields generalizing entries with
  | nil =>
      cases h
      rfl
  | cons field rest ih =>
      obtain ⟨name, value⟩ := field
      obtain ⟨s, here, h⟩ := exists_of_bind_eq_ok h
      obtain ⟨later, there, h⟩ := exists_of_bind_eq_ok h
      cases h
      cases value with
      | text t =>
          cases here
          rw [ih there]
          rfl
      | null | bool | number | list | object => cases here

theorem describes_of_read_leaf (leaf : p.kind.isRecord = false) (h : p.read v = .ok q) :
    Describes v q := by
  cases p with
  | number x =>
      cases v with
      | number n =>
          cases h
          exact .number n
      | null | bool | text | list | object => cases h
  | text s =>
      cases v with
      | text s =>
          cases h
          exact .text s
      | null | bool | number | list | object => cases h
  | flag b =>
      cases v with
      | bool b =>
          cases h
          exact .flag b
      | null | number | text | list | object => cases h
  | attrs a =>
      cases v with
      | object fields =>
          cases entries : readEntries fields with
          | error e =>
              rw [Part.read, readAttrs, entries] at h
              cases h
          | ok found =>
              rw [Part.read, readAttrs, entries] at h
              cases h
              exact .attrs (entries_of_readEntries entries)
      | null | bool | number | text | list => cases h
  | box | diamond | plain | arrowHead | render | config => cases leaf

theorem read_leaf_of_describes (leaf : p.kind.isRecord = false) (kinds : p.kind = q.kind)
    (h : Describes v q) : p.read v = .ok q := by
  cases h with
  | number n =>
      cases p with
      | number x => rfl
      | _ => cases kinds
  | text s =>
      cases p with
      | text t => rfl
      | _ => cases kinds
  | flag b =>
      cases p with
      | flag b => rfl
      | _ => cases kinds
  | attrs texts =>
      cases p with
      | attrs a =>
          rw [texts, Part.read, readAttrs, readEntries_texts]
          rfl
      | _ => cases kinds
  | record record | list record =>
      rw [← kinds, leaf] at record
      cases record

def Part.replace (key : String) (q : Part) (fields : List (String × Part)) :
    List (String × Part) :=
  fields.map fun field => if field.1 = key then (key, q) else field

theorem Part.lookup_replace_self {fields : List (String × Part)}
    (named : fields.lookup key = some p) : (replace key q fields).lookup key = some q := by
  induction fields with
  | nil => cases named
  | cons field rest ih =>
      obtain ⟨k, old⟩ := field
      rw [replace, List.map_cons]
      split
      · exact List.lookup_cons_self
      · next ne =>
          have ne : (key == k) = false := beq_false_of_ne (Ne.symm ne)
          rw [List.lookup_cons, ne] at named
          rw [List.lookup_cons, ne]
          exact ih named

theorem Part.lookup_replace_of_ne {fields : List (String × Part)} {k : String} (ne : k ≠ key) :
    (replace key q fields).lookup k = fields.lookup k := by
  induction fields with
  | nil => rfl
  | cons field rest ih =>
      obtain ⟨l, old⟩ := field
      rw [replace, List.map_cons]
      split
      · next same =>
          cases (show l = key from same)
          rw [List.lookup_cons, List.lookup_cons, beq_false_of_ne ne]
          exact ih
      · rw [List.lookup_cons, List.lookup_cons]
        split
        · rfl
        · exact ih

inductive Step (part : ρ → Part) (r : ρ) (key : String) (v : Json) : Except DataError ρ → Prop where
  | passed (unnamed : (part r).field? key = none) : Step part r key v (.ok r)
  | set {q q' : Part} {s : ρ} (named : (part r).field? key = some q) (read : q.read v = .ok q')
      (fields : (part s).fields = Part.replace key q' (part r).fields) :
      Step part r key v (.ok s)
  | refused {q : Part} {e : DataError} (named : (part r).field? key = some q)
      (read : q.read v = .error e) : Step part r key v (.error e)

theorem Step.of_bind {σ : Type} {part : ρ → Part} {r : ρ} {q : Part} {found : Except DataError σ}
    {wrap : σ → Part} {set : σ → ρ} (named : (part r).field? key = some q)
    (read : q.read v = wrap <$> found)
    (fields : ∀ x, (part (set x)).fields = Part.replace key (wrap x) (part r).fields) :
    Step part r key v (found >>= fun x => .ok (set x)) := by
  cases found with
  | error e => exact .refused named read
  | ok x => exact .set named read (fields x)

/-- A form reads the records that are the given parts. -/
structure RecordForm.Reads (form : RecordForm ρ) (part : ρ → Part) : Prop where
  injective : Function.Injective part
  kind : ∀ r, (part r).kind = form.expected
  record : form.expected.isRecord = true
  keys : form.keys = form.expected.keys
  step : ∀ r key v, Step part r key v (form.set r key v)

namespace RecordForm.Reads
variable {form : RecordForm ρ} {part : ρ → Part} {start r : ρ}

theorem setAll_cons (run : form.setAll start ((key, v) :: fields) = .ok r) :
    ∃ mid, form.set start key v = .ok mid ∧ form.setAll mid fields = .ok r := by
  rw [setAll, List.foldlM_cons] at run
  exact exists_of_bind_eq_ok run

theorem field?_set_of_ne (reads : form.Reads part) {k : String} (ne : k ≠ key)
    (set : form.set start key v = .ok r) : (part r).field? k = (part start).field? k := by
  have step := reads.step start key v
  rw [set] at step
  cases step with
  | passed => rfl
  | set named read replaced => rw [Part.field?, replaced, Part.lookup_replace_of_ne ne, Part.field?]

theorem field?_set (reads : form.Reads part) (old : (part start).field? key = some q)
    (set : form.set start key v = .ok r) :
    ∃ q', q.read v = .ok q' ∧ (part r).field? key = some q' := by
  have step := reads.step start key v
  rw [set] at step
  cases step with
  | passed unnamed =>
      rw [old] at unnamed
      cases unnamed
  | set named read replaced =>
      rw [old] at named
      cases named
      refine ⟨_, read, ?_⟩
      rw [Part.field?, replaced, Part.lookup_replace_self old]

theorem field?_setAll_of_unnamed (reads : form.Reads part) (unnamed : lookup key fields = none)
    (run : form.setAll start fields = .ok r) : (part r).field? key = (part start).field? key := by
  induction fields generalizing start with
  | nil =>
      cases run
      rfl
  | cons field rest ih =>
      obtain ⟨k, w⟩ := field
      obtain ⟨ne, unnamed⟩ := Json.lookup_cons_eq_none.mp unnamed
      obtain ⟨mid, set, later⟩ := setAll_cons run
      rw [ih unnamed later, reads.field?_set_of_ne ne.symm set]

theorem field?_setAll (reads : form.Reads part) (distinct : (fields.map Prod.fst).Nodup)
    (named : lookup key fields = some v) (old : (part start).field? key = some q)
    (run : form.setAll start fields = .ok r) :
    ∃ q', q.read v = .ok q' ∧ (part r).field? key = some q' := by
  induction fields generalizing start with
  | nil => cases named
  | cons field rest ih =>
      obtain ⟨k, w⟩ := field
      obtain ⟨new, distinct⟩ := List.nodup_cons.mp distinct
      obtain ⟨mid, set, later⟩ := setAll_cons run
      rw [lookup] at named
      split at named
      · next same =>
          subst same
          cases named
          rw [reads.field?_setAll_of_unnamed (Json.lookup_eq_none new) later]
          exact reads.field?_set old set
      · next ne =>
          rw [← reads.field?_set_of_ne (Ne.symm ne) set] at old
          exact ih distinct named old later

theorem exists_setAll (reads : form.Reads part)
    (readable : ∀ key v, (key, v) ∈ fields → ∀ q : Part, form.expected.field? key = some q.kind →
      ∃ q', q.read v = .ok q') (start : ρ) : ∃ r, form.setAll start fields = .ok r := by
  induction fields generalizing start with
  | nil => exact ⟨start, rfl⟩
  | cons field rest ih =>
      obtain ⟨key, v⟩ := field
      have rest := ih fun key v mem => readable key v (List.mem_cons_of_mem _ mem)
      rw [setAll, List.foldlM_cons]
      have step := reads.step start key v
      cases set : form.set start key v with
      | ok mid => exact exists_bind_eq_ok set (rest mid)
      | error e =>
          rw [set] at step
          cases step with
          | refused named read =>
              have kinds := reads.kind start ▸ Part.kind_field? named
              obtain ⟨q', fine⟩ := readable key v List.mem_cons_self _ kinds
              rw [read] at fine
              cases fine

/-- Fields under distinct keys that name the whole record are read as what they describe. -/
theorem setAll_iff (reads : form.Reads part) (distinct : (fields.map Prod.fst).Nodup)
    (complete : ∀ key ∈ form.keys, ∃ v, lookup key fields = some v)
    (inner : ∀ key v, lookup key fields = some v → ∀ p q : Part,
      form.expected.field? key = some p.kind → p.kind = q.kind →
      (p.read v = .ok q ↔ Describes v q)) :
    form.setAll start fields = .ok r ↔ Describes (.object fields) (part r) := by
  have record : ∀ r, (part r).kind.isRecord = true := fun r => reads.kind r ▸ reads.record
  -- What stands under a name before the reading is of the same kind as what stands there later.
  have before : ∀ s key q, (part s).field? key = some q → ∃ old, (part start).field? key = some old ∧
      form.expected.field? key = some old.kind ∧ old.kind = q.kind := by
    intro s key q found
    have kinds := reads.kind s ▸ Part.kind_field? found
    obtain ⟨old, there, same⟩ := Part.exists_field? (record start) (reads.kind start ▸ kinds)
    exact ⟨old, there, same ▸ kinds, same⟩
  constructor
  · intro run
    refine .record (record r) (by rwa [reads.kind, ← reads.keys]) fun key q v found named => ?_
    obtain ⟨old, there, kind, same⟩ := before r key q found
    obtain ⟨q', read, now⟩ := reads.field?_setAll distinct named there run
    rw [found] at now
    cases now
    exact (inner key v named old q kind same).mp read
  · intro h
    have readable : ∀ key v, (key, v) ∈ fields → ∀ old : Part,
        form.expected.field? key = some old.kind → ∃ q, old.read v = .ok q := by
      intro key v mem old kind
      have named := Json.lookup_of_mem distinct mem
      obtain ⟨q, found, same⟩ := Part.exists_field? (record r) (reads.kind r ▸ kind)
      exact ⟨q, (inner key v named old q kind same.symm).mpr (h.field found named)⟩
    obtain ⟨s, run⟩ := reads.exists_setAll readable start
    -- The record that is read has the described fields, and no others.
    suffices s = r from this ▸ run
    refine reads.injective (Part.ext_fields (record s) (by rw [reads.kind, reads.kind]) fun key => ?_)
    cases found : (part r).field? key with
    | none =>
        have none := Part.field?_kind (record s) key
        rw [reads.kind s, ← reads.kind r, ← Part.field?_kind (record r), found] at none
        exact Option.map_eq_none_iff.mp none
    | some q =>
        obtain ⟨old, there, kind, same⟩ := before r key q found
        obtain ⟨v, named⟩ := h.named (record r) key (Part.mem_keys (record r) found)
        obtain ⟨q', read, now⟩ := reads.field?_setAll distinct named there run
        rw [(inner key v named old q kind same).mpr (h.field found named)] at read
        cases read
        exact now

theorem missing?_eq_none (strict : form.lenient = false) :
    form.missing? fields = none ↔ ∀ key ∈ form.keys, ∃ v, lookup key fields = some v := by
  rw [missing?, strict, if_neg (by decide), List.find?_eq_none]
  refine forall₂_congr fun key _ => ?_
  cases lookup key fields <;> simp

/-- What an object has to name to be read, and what it is read as. -/
theorem read_object_eq_ok (strict : form.lenient = false) :
    form.read start (.object fields) = .ok r ↔
      (∀ key ∈ form.keys, ∃ v, lookup key fields = some v) ∧ form.setAll start fields = .ok r := by
  rw [← missing?_eq_none strict, read]
  constructor
  · intro run
    obtain ⟨s, set, last⟩ := exists_of_bind_eq_ok run
    cases missing : form.missing? fields with
    | none =>
        rw [missing] at last
        exact ⟨rfl, set.trans last⟩
    | some key =>
        rw [missing] at last
        cases last
  · rintro ⟨complete, set⟩
    refine bind_eq_ok set ?_
    rw [complete]

theorem read_list_eq_ok (strict : form.lenient = false) {items : List Json} :
    form.read start (.list items) = .ok r ↔
      items.length = form.keys.length ∧ form.setAll start (form.keys.zip items) = .ok r := by
  rw [read, strict]
  constructor
  · intro run
    obtain ⟨s, set, last⟩ := exists_of_bind_eq_ok run
    split at last
    · cases last
    · next enough =>
        split at last
        · cases last
        · next fits =>
            have few : ¬ items.length < form.keys.length := fun lt => enough ⟨lt, rfl⟩
            exact ⟨Nat.le_antisymm (Nat.not_lt.mp fits) (Nat.not_lt.mp few), set.trans last⟩
  · rintro ⟨length, set⟩
    refine bind_eq_ok set ?_
    rw [length, if_neg fun h => Nat.lt_irrefl _ h.1, if_neg (Nat.lt_irrefl _)]

theorem zip_keys (reads : form.Reads part) {items : List Json}
    (length : items.length = form.keys.length) :
    ((form.keys.zip items).map Prod.fst).Nodup ∧
      ∀ key ∈ form.keys, ∃ v, lookup key (form.keys.zip items) = some v := by
  have firsts : (form.keys.zip items).map Prod.fst = form.keys := List.map_fst_zip length.ge
  have distinct : ((form.keys.zip items).map Prod.fst).Nodup := by
    rw [firsts, reads.keys]
    exact form.expected.keys_nodup
  refine ⟨distinct, fun key mem => ?_⟩
  rw [← firsts] at mem
  obtain ⟨⟨k, v⟩, item, rfl⟩ := List.mem_map.mp mem
  exact ⟨v, Json.lookup_of_mem distinct item⟩

theorem read_iff (reads : form.Reads part) (strict : form.lenient = false)
    (within : form.expected ≠ .config) (distinct : v.Distinct) :
    form.read start v = .ok r ↔ Describes v (part r) := by
  have record : (part r).kind.isRecord = true := reads.kind r ▸ reads.record
  have keys : form.keys = (part r).kind.keys := by rw [reads.kind, reads.keys]
  have inner : ∀ fields key v, lookup key fields = some v → ∀ p q : Part,
      form.expected.field? key = some p.kind → p.kind = q.kind →
      (p.read v = .ok q ↔ Describes v q) := by
    intro fields key v _ p q named kinds
    have leaf := Expected.isRecord_of_field? reads.record within named
    exact ⟨describes_of_read_leaf leaf, read_leaf_of_describes leaf kinds⟩
  cases v with
  | object fields =>
      have body (complete : ∀ key ∈ form.keys, ∃ v, lookup key fields = some v) :
          form.setAll start fields = .ok r ↔ Describes (.object fields) (part r) :=
        reads.setAll_iff (distinct fields rfl) complete (inner fields)
      rw [read_object_eq_ok strict]
      constructor
      · rintro ⟨complete, run⟩
        exact (body complete).mp run
      · intro h
        have complete := keys ▸ h.named record
        exact ⟨complete, (body complete).mpr h⟩
  | list items =>
      have body (length : items.length = form.keys.length) :
          form.setAll start (form.keys.zip items) = .ok r ↔
            Describes (.object (form.keys.zip items)) (part r) :=
        reads.setAll_iff (reads.zip_keys length).1 (reads.zip_keys length).2
          (inner (form.keys.zip items))
      rw [read_list_eq_ok strict]
      constructor
      · rintro ⟨length, run⟩
        exact .list record (keys ▸ length) (keys ▸ (body length).mp run)
      · intro h
        cases h with
        | list _ length inOrder =>
            rw [← keys] at length inOrder
            exact ⟨length, (body length).mpr inOrder⟩
  | null | bool | number | text =>
      refine ⟨nofun, fun h => ?_⟩
      generalize part r = p at h record
      cases h <;> cases record

theorem map_eq_ok_iff {α : Type} {f : α → Part} (injective : Function.Injective f)
    {x : Except DataError α} {a : α} : f <$> x = .ok (f a) ↔ x = .ok a := by
  cases x with
  | error e => exact ⟨nofun, nofun⟩
  | ok b =>
      change Except.ok (f b) = .ok (f a) ↔ _
      rw [Except.ok.injEq, Except.ok.injEq, injective.eq_iff]

theorem part_iff (reads : form.Reads part) (strict : form.lenient = false)
    (within : form.expected ≠ .config) (distinct : v.Distinct) :
    part <$> form.read start v = .ok (part r) ↔ Describes v (part r) :=
  (map_eq_ok_iff reads.injective).trans (reads.read_iff strict within distinct)

end RecordForm.Reads

theorem box_reads : boxForm.Reads .box where
  injective _ _ := Part.box.inj
  kind _ := rfl
  record := rfl
  keys := rfl
  step s key v := by
    unfold boxForm
    dsimp only
    split
    case h_4 => exact .passed (Part.lookup_of_new (by simp_all [Part.fields]))
    all_goals exact .of_bind rfl rfl fun _ => rfl

theorem diamond_reads : diamondForm.Reads .diamond where
  injective _ _ := Part.diamond.inj
  kind _ := rfl
  record := rfl
  keys := rfl
  step s key v := by
    unfold diamondForm
    dsimp only
    split
    case h_3 => exact .passed (Part.lookup_of_new (by simp_all [Part.fields]))
    all_goals exact .of_bind rfl rfl fun _ => rfl

theorem plain_reads : plainForm.Reads .plain where
  injective _ _ := Part.plain.inj
  kind _ := rfl
  record := rfl
  keys := rfl
  step s key v := by
    unfold plainForm
    dsimp only
    split
    case h_2 => exact .passed (Part.lookup_of_new (by simp_all [Part.fields]))
    all_goals exact .of_bind rfl rfl fun _ => rfl

theorem arrowHead_reads : arrowHeadForm.Reads .arrowHead where
  injective _ _ := Part.arrowHead.inj
  kind _ := rfl
  record := rfl
  keys := rfl
  step s key v := by
    unfold arrowHeadForm
    dsimp only
    split
    case h_3 => exact .passed (Part.lookup_of_new (by simp_all [Part.fields]))
    all_goals exact .of_bind rfl rfl fun _ => rfl

theorem render_reads : renderForm.Reads .render where
  injective _ _ := Part.render.inj
  kind _ := rfl
  record := rfl
  keys := rfl
  step s key v := by
    unfold renderForm
    dsimp only
    split
    case h_3 => exact .passed (Part.lookup_of_new (by simp_all [Part.fields]))
    all_goals exact .of_bind rfl rfl fun _ => rfl

theorem form_reads : form.Reads .config where
  injective _ _ := Part.config.inj
  kind _ := rfl
  record := rfl
  keys := rfl
  step s key v := by
    unfold form
    dsimp only
    split
    case h_20 => exact .passed (Part.lookup_of_new (by simp_all [Part.fields]))
    all_goals exact .of_bind rfl rfl fun _ => rfl

theorem read_part_iff (inner : p.kind ≠ .config) (kinds : p.kind = q.kind)
    (distinct : p.kind.isRecord = true → v.Distinct) : p.read v = .ok q ↔ Describes v q := by
  cases p with
  | number | text | flag | attrs =>
      exact ⟨describes_of_read_leaf rfl, read_leaf_of_describes rfl kinds⟩
  | box =>
      cases q with
      | box => exact box_reads.part_iff rfl inner (distinct rfl)
      | _ => cases kinds
  | diamond =>
      cases q with
      | diamond => exact diamond_reads.part_iff rfl inner (distinct rfl)
      | _ => cases kinds
  | plain =>
      cases q with
      | plain => exact plain_reads.part_iff rfl inner (distinct rfl)
      | _ => cases kinds
  | arrowHead =>
      cases q with
      | arrowHead => exact arrowHead_reads.part_iff rfl inner (distinct rfl)
      | _ => cases kinds
  | render =>
      cases q with
      | render => exact render_reads.part_iff rfl inner (distinct rfl)
      | _ => cases kinds
  | config => exact absurd rfl inner

theorem Describes.unique (hp : Describes v p) (hq : Describes v q) (kinds : p.kind = q.kind)
    (inner : p.kind ≠ .config) (distinct : p.kind.isRecord = true → v.Distinct) : p = q := by
  have read := (read_part_iff inner rfl distinct).mpr hp
  rw [(read_part_iff inner kinds distinct).mpr hq] at read
  cases read
  rfl

/-- A configuration is read from the fields that describe it. -/
theorem ofJson?_iff {c : Settings} (distinct : (fields.map Prod.fst).Nodup)
    (complete : ∀ key ∈ Expected.config.keys, ∃ v, lookup key fields = some v)
    (values : ∀ key v, lookup key fields = some v → v.Distinct) :
    ofJson? (.object fields) = .ok c ↔ Describes (.object fields) (.config c) := by
  rw [ofJson?, form_read]
  exact form_reads.setAll_iff distinct complete fun key v found p q named kinds =>
    read_part_iff (Expected.field?_ne_config named) kinds fun _ => values key v found

end Flowchart.Config
