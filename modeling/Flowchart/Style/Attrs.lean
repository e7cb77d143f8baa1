/-!
Open style attributes such as `stroke` or `font-size`, sorted by name so that whatever is written
from them is the same every time.
-/
namespace Flowchart

structure Attrs where
  entries : List (String × String)
deriving DecidableEq, Repr, Inhabited

namespace Attrs

def empty : Attrs := ⟨[]⟩

def find (name : String) : List (String × String) → Option String
  | [] => none
  | (n, value) :: rest => if n = name then some value else find name rest

def place (name value : String) : List (String × String) → List (String × String)
  | [] => [(name, value)]
  | (n, old) :: rest =>
    if n = name then (name, value) :: rest
    else if name < n then (name, value) :: (n, old) :: rest
    else (n, old) :: place name value rest

theorem find_place (name value asked : String) (entries : List (String × String)) :
    find asked (place name value entries)
      = if name = asked then some value else find asked entries := by
  induction entries with
  | nil => simp [place, find]
  | cons entry rest ih =>
    unfold place
    grind [find]

def get? (a : Attrs) (name : String) : Option String := find name a.entries

def put (a : Attrs) (name value : String) : Attrs := ⟨place name value a.entries⟩

def ofList (entries : List (String × String)) : Attrs :=
  entries.foldl (fun a (name, value) => a.put name value) empty

end Attrs
end Flowchart
