import Flowchart.Json.Reader
/-! How deep a document may nest. Lists in lists are read if there are fewer levels than the reader may
open, whatever stands after them. -/
namespace Flowchart.Json

def bracketed : Nat → List Char → List Char
  | 0, rest => rest
  | n + 1, rest => '[' :: bracketed n (']' :: rest)

def nested : Nat → Json
  | 0 => .list []
  | n + 1 => .list [nested n]

variable {steps depth : Nat} {s rest : List Char}

theorem value?_shallow (shallow : depth ≤ 1) : value? .kept (steps + 1) depth ('[' :: s) = none := by
  rw [value?, if_pos (by simp [shallow])]

theorem value?_opens (room : 1 < depth) :
    value? .kept (steps + 1) depth ('[' :: '[' :: s) =
      (items? .kept steps (depth - 1) ('[' :: s)).map fun (items, rest) => (.list items, rest) := by
  rw [value?, if_neg (by simp [room])]
  change (items? .kept steps (depth - 1) ('[' :: s) >>= _) = _
  cases items? .kept steps (depth - 1) ('[' :: s) <;> rfl

theorem items?_none (refused : value? .kept steps depth ('[' :: s) = none) :
    items? .kept (steps + 1) depth ('[' :: s) = none := by
  rw [items?]
  change value? .kept steps depth ('[' :: s) >>= _ = _
  rw [refused]
  rfl

theorem items?_single {item : Json}
    (read : value? .kept steps depth ('[' :: s) = some (item, ']' :: rest)) :
    items? .kept (steps + 1) depth ('[' :: s) = some ([item], rest) := by
  rw [items?]
  change value? .kept steps depth ('[' :: s) >>= _ = _
  rw [read]
  rfl

/-- Levels of lists are read as far as the limit goes, and refused beyond it. -/
theorem value?_bracketed {levels : Nat} (enough : 2 * levels < steps) :
    value? .kept steps depth (bracketed (levels + 1) rest) =
      if levels + 1 < depth then some (nested levels, rest) else none := by
  induction levels generalizing steps depth rest with
  | zero =>
      obtain ⟨steps, rfl⟩ : ∃ k, steps = k + 1 := ⟨steps - 1, by omega⟩
      by_cases room : 1 < depth
      · rw [if_pos room, bracketed, value?, if_neg (by simp [room])]
        rfl
      · rw [if_neg (by omega)]
        exact value?_shallow (by omega)
  | succ levels ih =>
      obtain ⟨steps, rfl⟩ : ∃ k, steps = k + 2 := ⟨steps - 2, by omega⟩
      have inner : value? .kept steps (depth - 1) (bracketed (levels + 1) (']' :: rest)) =
          if levels + 1 < depth - 1 then some (nested levels, ']' :: rest) else none :=
        ih (by omega)
      by_cases room : 1 < depth
      · refine (value?_opens room).trans ?_
        by_cases fits : levels + 1 < depth - 1
        · rw [if_pos fits] at inner
          rw [if_pos (by omega), items?_single inner]
          rfl
        · rw [if_neg fits] at inner
          rw [if_neg (by omega), items?_none inner]
          rfl
      · rw [if_neg (by omega)]
        exact value?_shallow (by omega)

def keyed (value : List Char) : List Char := '{' :: '"' :: 'x' :: '"' :: ':' :: value

theorem value?_keyed {levels : Nat} (depth : Nat) (rest : List Char)
    (enough : 2 * levels + 2 < steps) :
    value? .kept steps depth (keyed (bracketed (levels + 1) ('}' :: rest))) =
      if levels + 2 < depth then some (.object [("x", nested levels)], rest) else none := by
  obtain ⟨steps, rfl⟩ : ∃ k, steps = k + 2 := ⟨steps - 2, by omega⟩
  have inner : value? .kept steps (depth - 1) (bracketed (levels + 1) ('}' :: rest)) =
      if levels + 1 < depth - 1 then some (nested levels, '}' :: rest) else none :=
    value?_bracketed (by omega)
  by_cases room : 1 < depth
  · rw [keyed, value?, if_neg (by simp [room])]
    change (fields? .kept (steps + 1) (depth - 1) _ >>= _) = _
    rw [fields?]
    change ((value? .kept steps (depth - 1) (bracketed (levels + 1) ('}' :: rest)) >>= _) >>= _) = _
    rw [inner]
    by_cases fits : levels + 1 < depth - 1
    · rw [if_pos fits, if_pos (by omega)]
      rfl
    · rw [if_neg fits, if_neg (by omega)]
      rfl
  · rw [if_neg (by omega), keyed, value?, if_pos (by simp; omega)]

theorem length_bracketed (levels : Nat) (rest : List Char) :
    (bracketed levels rest).length = 2 * levels + rest.length := by
  induction levels generalizing rest with
  | zero => simp [bracketed]
  | succ levels ih =>
      rw [bracketed, List.length_cons, ih, List.length_cons]
      omega

theorem parse?_of_value? {value : Json}
    (read : value? .kept (stepsFor s) depthLimit (dropSpace s) = some (value, rest))
    (ended : (dropSpace rest).isEmpty = true) : parse? (.ofList s) = some value := by
  unfold parse?
  dsimp only
  rw [String.toList_ofList, read]
  exact if_pos ended

theorem enough_keyed (levels : Nat) (rest : List Char) :
    2 * levels + 2 < stepsFor (keyed (bracketed (levels + 1) rest)) := by
  rw [stepsFor, keyed]
  simp only [List.length_cons, length_bracketed]
  omega

/-- The object is a document of its own if its levels stay below the limit. -/
theorem parse?_keyed {levels : Nat} (room : levels + 2 < depthLimit) :
    parse? (.ofList (keyed (bracketed (levels + 1) ['}']))) =
      some (.object [("x", nested levels)]) := by
  have read := value?_keyed depthLimit [] (enough_keyed levels ['}'])
  rw [if_pos room] at read
  exact parse?_of_value? read rfl

end Flowchart.Json
