import Mathlib.Tactic.ByContra
import Flowchart.Json.Overlay
/-! Fields in increasing order. Such fields are known by what is looked up in them, so two ways to
set the same keys give the same fields; and laying one more field over an object sets one more
field. -/
namespace Flowchart.Json
variable {key k l : String} {value v w : Json} {fields others changes : List (String × Json)}

def Increasing (fields : List (String × Json)) : Prop := (fields.map Prod.fst).Pairwise (· < ·)

theorem Increasing.tail {field : String × Json} (h : Increasing (field :: fields)) :
    Increasing fields :=
  (List.pairwise_cons.mp h).2

theorem lookup_eq_none (h : key ∉ fields.map Prod.fst) : lookup key fields = none := by
  induction fields with
  | nil => rfl
  | cons field rest ih =>
      rw [List.map_cons, List.mem_cons, not_or] at h
      rw [lookup, if_neg (Ne.symm h.1), ih h.2]

theorem mem_keys_of_lookup (h : lookup key fields = some value) : key ∈ fields.map Prod.fst := by
  by_contra missing
  rw [lookup_eq_none missing] at h
  cases h

theorem Increasing.lookup_tail {field : String × Json} (h : Increasing (field :: fields)) :
    lookup field.1 fields = none :=
  lookup_eq_none fun mem => String.lt_irrefl _ ((List.pairwise_cons.mp h).1 field.1 mem)

theorem Increasing.ext (hf : Increasing fields) (ho : Increasing others)
    (same : ∀ key, lookup key fields = lookup key others) : fields = others := by
  induction fields generalizing others with
  | nil =>
      cases others with
      | nil => rfl
      | cons field rest => simpa [lookup] using same field.1
  | cons field rest ih =>
      obtain ⟨k, v⟩ := field
      cases others with
      | nil => simpa [lookup] using same k
      | cons other tail =>
          obtain ⟨l, w⟩ := other
          -- The first keys are the least of the same keys.
          have keys : k = l := by
            have above := (List.pairwise_cons.mp hf).1
            have below := (List.pairwise_cons.mp ho).1
            by_contra ne
            have hk := same k
            have hl := same l
            rw [lookup, if_pos rfl, lookup, if_neg (Ne.symm ne)] at hk
            rw [lookup, if_neg ne, lookup, if_pos rfl] at hl
            exact String.lt_asymm (above l (mem_keys_of_lookup hl))
              (below k (mem_keys_of_lookup hk.symm))
          subst keys
          have first := same k
          rw [lookup, lookup, if_pos rfl, if_pos rfl] at first
          cases first
          congr 1
          refine ih hf.tail ho.tail fun key => ?_
          by_cases eq : k = key
          · subst eq
            rw [hf.lookup_tail, ho.lookup_tail]
          · have rest := same key
            rwa [lookup, lookup, if_neg eq, if_neg eq] at rest

theorem put_comm (ne : k ≠ l) (h : Increasing fields) :
    put k v (put l w fields) = put l w (put k v fields) := by
  refine Increasing.ext (keys_put_increasing (keys_put_increasing h))
    (keys_put_increasing (keys_put_increasing h)) fun key => ?_
  simp only [lookup_put]
  by_cases hk : k = key
  · subst hk
    simp [ne.symm]
  · simp [hk]

theorem Increasing.split (h : Increasing fields) (found : lookup key fields = some value) :
    ∃ before after, fields = before ++ (key, value) :: after ∧ lookup key after = none ∧
      ∀ v, put key v fields = before ++ (key, v) :: after := by
  induction fields with
  | nil => cases found
  | cons field rest ih =>
      obtain ⟨k, w⟩ := field
      by_cases eq : k = key
      · subst eq
        rw [lookup, if_pos rfl] at found
        cases found
        exact ⟨[], rest, rfl, h.lookup_tail, fun v => by rw [put, if_pos rfl]; rfl⟩
      · rw [lookup, if_neg eq] at found
        obtain ⟨before, after, rfl, missing, set⟩ := ih h.tail found
        have below : ¬ key < k :=
          fun lt => String.lt_asymm lt ((List.pairwise_cons.mp h).1 key (mem_keys_of_lookup found))
        refine ⟨(k, w) :: before, after, rfl, missing, fun v => ?_⟩
        rw [put, if_neg eq, if_neg below, set]
        rfl

/-- What a field becomes that is laid over some fields. -/
def laid (key : String) (value : Json) (fields : List (String × Json)) : Json :=
  match lookup key fields with
  | some slot => overlay slot value
  | none => value

theorem overlayFields_cons : overlayFields fields ((key, value) :: changes) =
    overlayFields (put key (laid key value fields) fields) changes := by
  rw [overlayFields]
  rfl

theorem increasing_overlayFields (h : Increasing fields) :
    Increasing (overlayFields fields changes) := by
  induction changes generalizing fields with
  | nil => rwa [overlayFields]
  | cons change rest ih =>
      rw [overlayFields_cons]
      exact ih (keys_put_increasing h)

theorem laid_put_of_ne (ne : k ≠ key) : laid k v (put key w fields) = laid k v fields := by
  unfold laid
  rw [lookup_put, if_neg (Ne.symm ne)]

theorem lookup_cons_eq_none :
    lookup key ((k, v) :: fields) = none ↔ k ≠ key ∧ lookup key fields = none := by
  rw [lookup]
  split <;> simp [*]

theorem lookup_overlayFields (new : lookup key changes = none) :
    lookup key (overlayFields fields changes) = lookup key fields := by
  induction changes generalizing fields with
  | nil => rw [overlayFields]
  | cons change rest ih =>
      obtain ⟨k, v⟩ := change
      obtain ⟨ne, new⟩ := lookup_cons_eq_none.mp new
      rw [overlayFields_cons, ih new, lookup_put, if_neg ne]

theorem overlayFields_put_comm (h : Increasing fields) (new : lookup key changes = none) :
    overlayFields (put key w fields) changes = put key w (overlayFields fields changes) := by
  induction changes generalizing fields with
  | nil => rw [overlayFields, overlayFields]
  | cons change rest ih =>
      obtain ⟨k, v⟩ := change
      obtain ⟨ne, new⟩ := lookup_cons_eq_none.mp new
      rw [overlayFields_cons, overlayFields_cons, laid_put_of_ne ne, put_comm ne h,
        ih (keys_put_increasing h) new]

theorem overlayFields_put (h : Increasing fields) (new : lookup key changes = none) :
    overlayFields fields (put key value changes) =
      put key (laid key value fields) (overlayFields fields changes) := by
  induction changes generalizing fields with
  | nil => rw [put, overlayFields_cons, overlayFields, overlayFields]
  | cons change rest ih =>
      obtain ⟨k, v⟩ := change
      obtain ⟨ne, rest_new⟩ := lookup_cons_eq_none.mp new
      rw [put.eq_def key value ((k, v) :: rest)]
      dsimp only
      rw [if_neg ne]
      split
      · rw [overlayFields_cons, overlayFields_put_comm h new]
      · rw [overlayFields_cons, overlayFields_cons, ih (keys_put_increasing h) rest_new,
          laid_put_of_ne ne.symm]

end Flowchart.Json
