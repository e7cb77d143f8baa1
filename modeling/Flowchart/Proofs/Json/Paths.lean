import Flowchart.Proofs.Json.Fields
/-! Paths into values. A value that is laid over another reaches some paths; what stands anywhere else
stays, and where it holds anything but an object, that is what stands there afterwards. -/
namespace Flowchart.Json
variable {key : String} {path : List String} {v w base value : Json}
  {fields changes : List (String × Json)}

/-- The value at the end of a path of keys. -/
def at? : List String → Json → Option Json
  | [], v => some v
  | key :: path, v => (v.field? key).bind (at? path)

def isObject : Json → Bool
  | .object _ => true
  | _ => false

/-- A value reaches a path if it holds something there, or on the way to it something other than an
object. -/
def Reaches : Json → List String → Prop
  | _, [] => True
  | .object fields, key :: path => ∃ v, lookup key fields = some v ∧ v.Reaches path
  | _, _ :: _ => True

/-- No key occurs twice, if the value is an object. -/
def Distinct (v : Json) : Prop := ∀ fields, v = .object fields → (fields.map Prod.fst).Nodup

theorem at?_cons (key : String) (path : List String) (v : Json) :
    at? (key :: path) v = (v.field? key).bind (at? path) := rfl

theorem reaches_of_at? (held : at? path v = some w) : v.Reaches path := by
  induction path generalizing v with
  | nil => trivial
  | cons key path ih =>
      cases v with
      | object fields =>
          obtain ⟨next, found, later⟩ := Option.bind_eq_some_iff.mp held
          exact ⟨next, found, ih later⟩
      | null | bool | number | text | list => trivial

theorem reaches_field (reached : v.Reaches (key :: path)) (inner : v.isObject = true) :
    ∃ w, v.field? key = some w ∧ w.Reaches path := by
  cases v with
  | object fields => exact reached
  | null | bool | number | text | list => cases inner

theorem Ordered.increasing (h : (Json.object fields).Ordered) : Increasing fields := by
  cases h with
  | object keys => exact keys

theorem mem_of_lookup (found : lookup key fields = some v) : (key, v) ∈ fields := by
  induction fields with
  | nil => cases found
  | cons field rest ih =>
      obtain ⟨k, w⟩ := field
      rw [lookup] at found
      split at found
      · next same =>
          cases found
          exact same ▸ List.mem_cons_self
      · exact List.mem_cons_of_mem _ (ih found)

theorem Ordered.lookup (h : (Json.object fields).Ordered) (found : Json.lookup key fields = some v) :
    v.Ordered := by
  cases h with
  | object keys values => exact values _ (mem_of_lookup found)

theorem lookup_of_mem (distinct : (fields.map Prod.fst).Nodup) (mem : (key, v) ∈ fields) :
    lookup key fields = some v := by
  induction fields with
  | nil => cases mem
  | cons field rest ih =>
      obtain ⟨k, w⟩ := field
      obtain ⟨new, others⟩ := List.nodup_cons.mp distinct
      obtain same | mem := List.mem_cons.mp mem
      · cases same
        rw [lookup, if_pos rfl]
      · have ne : k ≠ key := fun eq => new (eq ▸ List.mem_map.mpr ⟨_, mem, rfl⟩)
        rw [lookup, if_neg ne, ih others mem]

theorem Increasing.nodup (h : Increasing fields) : (fields.map Prod.fst).Nodup :=
  List.Pairwise.imp String.ne_of_lt h

theorem Increasing.distinct (h : Increasing fields) : (object fields).Distinct := by
  intro others same
  cases same
  exact h.nodup

theorem Ordered.distinct (h : v.Ordered) : v.Distinct := by
  intro fields same
  exact (same ▸ h).increasing.nodup

theorem lookup_eq (key : String) (fields : List (String × Json)) :
    lookup key fields = fields.lookup key := by
  induction fields with
  | nil => rfl
  | cons field rest ih =>
      obtain ⟨k, v⟩ := field
      rw [lookup, List.lookup_cons, ih]
      split
      · next same => rw [same, beq_self_eq_true]
      · next ne => rw [beq_false_of_ne (Ne.symm ne)]

theorem lookup_foldl_put (distinct : (fields.map Prod.fst).Nodup) (set : List (String × Json)) :
    lookup key (fields.foldl (fun sorted (key, value) => put key value sorted) set) =
      (lookup key fields).or (lookup key set) := by
  induction fields generalizing set with
  | nil => rfl
  | cons field rest ih =>
      obtain ⟨k, v⟩ := field
      obtain ⟨new, others⟩ := List.nodup_cons.mp distinct
      rw [List.foldl_cons, ih others, lookup_put, lookup]
      split
      · next same =>
          subst same
          rw [lookup_eq_none new]
          rfl
      · rfl

theorem increasing_foldl_put {set : List (String × Json)} (h : Increasing set) :
    Increasing (fields.foldl (fun sorted (key, value) => put key value sorted) set) := by
  induction fields generalizing set with
  | nil => exact h
  | cons field rest ih => exact ih (keys_put_increasing h)

theorem field?_ofFields (distinct : (fields.map Prod.fst).Nodup) :
    (ofFields fields).field? key = lookup key fields :=
  (lookup_foldl_put distinct []).trans Option.or_none

theorem distinct_ofFields (fields : List (String × Json)) : (ofFields fields).Distinct :=
  Increasing.distinct (increasing_foldl_put (List.Pairwise.nil : Increasing []))

theorem overlay_leaf (leaf : v.isObject = false) (base : Json) : base.overlay v = v := by
  cases v with
  | object changes => cases leaf
  | null | bool | number | text | list => simp [overlay]

theorem overlay_object (fields changes : List (String × Json)) :
    (object fields).overlay (.object changes) = .object (overlayFields fields changes) := by
  rw [overlay]

theorem overlay_of_not_object (leaf : base.isObject = false) : base.overlay v = v := by
  cases v with
  | object changes =>
      cases base with
      | object fields => cases leaf
      | null | bool | number | text | list => simp [overlay]
  | null | bool | number | text | list => simp [overlay]

theorem lookup_overlayFields_of_some (sorted : Increasing changes)
    (named : lookup key changes = some v) :
    lookup key (overlayFields fields changes) = some (laid key v fields) := by
  induction changes generalizing fields with
  | nil => cases named
  | cons change rest ih =>
      obtain ⟨k, w⟩ := change
      rw [overlayFields_cons]
      rw [lookup] at named
      split at named
      · next same =>
          subst same
          cases named
          rw [lookup_overlayFields sorted.lookup_tail, lookup_put, if_pos rfl]
      · next ne => rw [ih sorted.tail named, laid_put_of_ne (Ne.symm ne)]

theorem field?_overlay_of_unnamed (unnamed : lookup key changes = none) :
    (base.overlay (.object changes)).field? key = base.field? key := by
  cases base with
  | object fields =>
      rw [overlay_object]
      exact lookup_overlayFields unnamed
  | null | bool | number | text | list =>
      rw [overlay_of_not_object rfl]
      exact unnamed

theorem field?_overlay_of_old (sorted : Increasing changes) (named : lookup key changes = some v)
    (old : base.field? key = some w) :
    (base.overlay (.object changes)).field? key = some (w.overlay v) := by
  cases base with
  | object fields =>
      have found : lookup key fields = some w := old
      rw [overlay_object, field?, lookup_overlayFields_of_some sorted named, laid, found]
  | null | bool | number | text | list => cases old

theorem field?_overlay_of_new (sorted : Increasing changes) (named : lookup key changes = some v)
    (new : base.field? key = none) :
    (base.overlay (.object changes)).field? key = some v := by
  cases base with
  | object fields =>
      have missing : lookup key fields = none := new
      rw [overlay_object, field?, lookup_overlayFields_of_some sorted named, laid, missing]
  | null | bool | number | text | list =>
      rw [overlay_of_not_object rfl]
      exact named

theorem exists_field?_overlay (sorted : Increasing changes) (old : base.field? key = some w) :
    ∃ v, (base.overlay (.object changes)).field? key = some v := by
  cases named : lookup key changes with
  | none => exact ⟨w, (field?_overlay_of_unnamed named).trans old⟩
  | some v => exact ⟨_, field?_overlay_of_old sorted named old⟩

theorem isObject_overlay (base : Json) (changes : List (String × Json)) :
    (base.overlay (.object changes)).isObject = true := by
  cases base with
  | object fields => rw [overlay_object]; rfl
  | null | bool | number | text | list => rw [overlay_of_not_object rfl]; rfl

theorem distinct_overlay (h : Increasing fields) (sorted : v.Ordered) :
    ((object fields).overlay v).Distinct := by
  cases v with
  | object changes =>
      rw [overlay_object]
      exact (increasing_overlayFields h).distinct
  | null | bool | number | text | list =>
      rw [overlay_leaf rfl]
      exact sorted.distinct

/-- What the changes hold at a path takes its place there, unless it is an object. -/
theorem at?_overlay_of_at? (sorted : v.Ordered) (held : at? path v = some w)
    (leaf : w.isObject = false) : at? path (base.overlay v) = some w := by
  induction path generalizing base v with
  | nil =>
      cases held
      rw [overlay_leaf leaf]
      rfl
  | cons key path ih =>
      obtain ⟨change, named, later⟩ := Option.bind_eq_some_iff.mp held
      cases v with
      | object changes =>
          rw [at?_cons]
          cases found : base.field? key with
          | none => rwa [field?_overlay_of_new sorted.increasing named found]
          | some slot =>
              rw [field?_overlay_of_old sorted.increasing named found]
              exact ih (sorted.lookup named) later
      | null | bool | number | text | list => cases named

/-- What the changes do not reach stays. -/
theorem at?_overlay_of_not_reaches (sorted : v.Ordered) (free : ¬ v.Reaches path) :
    at? path (base.overlay v) = at? path base := by
  induction path generalizing base v with
  | nil => exact absurd trivial free
  | cons key path ih =>
      cases v with
      | object changes =>
          rw [at?_cons, at?_cons]
          cases named : Json.lookup key changes with
          | none => rw [field?_overlay_of_unnamed named]
          | some change =>
              have later : ¬ change.Reaches path := fun reached => free ⟨change, named, reached⟩
              cases found : base.field? key with
              | none =>
                  rw [field?_overlay_of_new sorted.increasing named found]
                  exact Option.eq_none_iff_forall_ne_some.mpr fun w held =>
                    later (reaches_of_at? held)
              | some slot =>
                  rw [field?_overlay_of_old sorted.increasing named found]
                  exact ih (sorted.lookup named) later
      | null | bool | number | text | list => exact absurd trivial free

theorem reaches_of_overlay (sorted : v.Ordered) (free : ¬ v.Reaches path)
    (reached : (base.overlay v).Reaches path) : base.Reaches path := by
  induction path generalizing base v with
  | nil => trivial
  | cons key path ih =>
      cases v with
      | object changes =>
          cases base with
          | object fields =>
              obtain ⟨w, held, here⟩ := reaches_field reached (overlay_object _ _ ▸ rfl)
              cases named : Json.lookup key changes with
              | none => exact ⟨w, (field?_overlay_of_unnamed named).symm.trans held, here⟩
              | some change =>
                  have later : ¬ change.Reaches path := fun there => free ⟨change, named, there⟩
                  cases found : (object fields).field? key with
                  | none =>
                      rw [field?_overlay_of_new sorted.increasing named found] at held
                      cases held
                      exact absurd here later
                  | some slot =>
                      rw [field?_overlay_of_old sorted.increasing named found] at held
                      cases held
                      exact ⟨slot, found, ih (sorted.lookup named) later here⟩
          | null | bool | number | text | list => trivial
      | null | bool | number | text | list => exact absurd trivial free

end Flowchart.Json
