import Flowchart.Json.Value
/-!
Laying one JSON value over another. Two objects are merged key by key at every depth; anything
else that is laid over a value takes its place.
-/
namespace Flowchart.Json

mutual

def overlay (base : Json) : Json → Json
  | .object changes =>
    match base with
    | .object fields => .object (overlayFields fields changes)
    | _ => .object changes
  | leaf => leaf

def overlayFields (fields : List (String × Json)) : List (String × Json) → List (String × Json)
  | [] => fields
  | (key, value) :: rest =>
    let merged := match lookup key fields with
      | some slot => overlay slot value
      | none => value
    overlayFields (put key merged fields) rest

end

end Flowchart.Json
