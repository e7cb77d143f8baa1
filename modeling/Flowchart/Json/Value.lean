/-!
JSON values. The fields of an object are kept sorted by key, and no key occurs twice in an object
whose fields were set with `Json.put`.
-/
namespace Flowchart

/-- A whole number that fits into 64 bits stays whole; every other number is a double. -/
inductive JsonNumber where
  | natural (n : Nat)
  | negative (n : Int)
  | real (x : Float)
deriving BEq, Repr

inductive Json where
  | null
  | bool (b : Bool)
  | number (n : JsonNumber)
  | text (s : String)
  | list (items : List Json)
  | object (fields : List (String × Json))
deriving BEq, Repr, Inhabited

namespace Json

def lookup (key : String) : List (String × Json) → Option Json
  | [] => none
  | (k, value) :: rest => if k = key then some value else lookup key rest

/-- Sets the value of a key; a new key goes before the first greater one. -/
def put (key : String) (value : Json) : List (String × Json) → List (String × Json)
  | [] => [(key, value)]
  | (k, old) :: rest =>
    if k = key then (key, value) :: rest
    else if key < k then (key, value) :: (k, old) :: rest
    else (k, old) :: put key value rest

theorem lookup_put (key asked : String) (value : Json) (fields : List (String × Json)) :
    lookup asked (put key value fields)
      = if key = asked then some value else lookup asked fields := by
  induction fields with
  | nil => simp [put, lookup]
  | cons field rest ih =>
    unfold put
    grind [lookup]

theorem mem_keys_put {key k : String} {value : Json} {fields : List (String × Json)} :
    k ∈ (put key value fields).map Prod.fst ↔ k = key ∨ k ∈ fields.map Prod.fst := by
  induction fields with
  | nil => simp [put]
  | cons field rest ih =>
    unfold put
    grind

theorem keys_put_increasing {key : String} {value : Json} {fields : List (String × Json)}
    (h : (fields.map Prod.fst).Pairwise (· < ·)) :
    ((put key value fields).map Prod.fst).Pairwise (· < ·) := by
  induction fields with
  | nil => simp [put]
  | cons field rest ih =>
    obtain ⟨k, old⟩ := field
    have below := (List.pairwise_cons.1 h).1
    have sorted := (List.pairwise_cons.1 h).2
    unfold put
    split
    · next same => exact same ▸ h
    · next new =>
      split
      · next before =>
        refine List.pairwise_cons.2 ⟨fun other mem => ?_, h⟩
        rcases List.mem_cons.1 mem with rfl | mem
        · exact before
        · exact String.lt_trans before (below other mem)
      · next notBefore =>
        refine List.pairwise_cons.2 ⟨fun other mem => ?_, ih sorted⟩
        rcases mem_keys_put.1 mem with rfl | mem
        · exact Std.lt_of_le_of_ne (String.not_lt.1 notBefore) new
        · exact below other mem

def ofFields (fields : List (String × Json)) : Json :=
  .object (fields.foldl (fun sorted (key, value) => put key value sorted) [])

def field? (key : String) : Json → Option Json
  | .object fields => lookup key fields
  | _ => none

def text? : Json → Option String
  | .text s => some s
  | _ => none

/-- Keys strictly increase in every object. -/
inductive Ordered : Json → Prop where
  | null : Ordered .null
  | bool (b : Bool) : Ordered (.bool b)
  | number (n : JsonNumber) : Ordered (.number n)
  | text (s : String) : Ordered (.text s)
  | list {items : List Json} (h : ∀ item ∈ items, Ordered item) : Ordered (.list items)
  | object {fields : List (String × Json)} (keys : (fields.map Prod.fst).Pairwise (· < ·))
      (values : ∀ field ∈ fields, Ordered field.2) : Ordered (.object fields)

end Json
end Flowchart
