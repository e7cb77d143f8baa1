import Flowchart.Proofs.Json.Paths
/-! What laying values over one another obeys. A second time changes nothing, and neither does an equal
value or an object without fields; what is laid over a value shows at every path where it is no
object, and the value itself everywhere else. -/
namespace Flowchart.Json
variable {path : List String} {v w b o : Json} {fields : List (String × Json)}

theorem overlay_nothing (held : b.isObject = true) : b.overlay (.object []) = b := by
  cases b with
  | object fields => rw [overlay_object, overlayFields]
  | null | bool | number | text | list => cases held

theorem overlay_self (sorted : b.Ordered) : b.overlay b = b := by
  induction sorted with
  | null => exact overlay_leaf rfl _
  | bool a => exact overlay_leaf rfl _
  | number n => exact overlay_leaf rfl _
  | text s => exact overlay_leaf rfl _
  | list items => exact overlay_leaf rfl _
  | @object fields keys values ih =>
      rw [overlay_object]
      refine congrArg object (Increasing.ext (increasing_overlayFields keys) keys fun key => ?_)
      cases named : Json.lookup key fields with
      | none => exact (lookup_overlayFields named).trans named
      | some v =>
          have same : v.overlay v = v := ih _ (mem_of_lookup named)
          rw [lookup_overlayFields_of_some keys named, laid, named]
          exact congrArg some same

/-- Every field that was laid once is laid over itself the second time. -/
theorem overlay_overlay (hb : b.Ordered) (ho : o.Ordered) :
    (b.overlay o).overlay o = b.overlay o := by
  induction ho generalizing b with
  | null => rw [overlay_leaf rfl, overlay_leaf rfl]
  | bool a => rw [overlay_leaf rfl, overlay_leaf rfl]
  | number n => rw [overlay_leaf rfl, overlay_leaf rfl]
  | text s => rw [overlay_leaf rfl, overlay_leaf rfl]
  | list items => rw [overlay_leaf rfl, overlay_leaf rfl]
  | @object changes keys values ih =>
      have whole : (object changes).overlay (.object changes) = .object changes :=
        overlay_self (.object keys values)
      cases b with
      | object fields =>
          rw [overlay_object, overlay_object]
          have once : Increasing (overlayFields fields changes) :=
            increasing_overlayFields hb.increasing
          refine congrArg object (Increasing.ext (increasing_overlayFields once) once fun key => ?_)
          cases named : Json.lookup key changes with
          | none => exact lookup_overlayFields named
          | some v =>
              have sorted : v.Ordered := values _ (mem_of_lookup named)
              rw [lookup_overlayFields_of_some keys named, laid,
                lookup_overlayFields_of_some keys named]
              cases found : Json.lookup key fields with
              | none => simp only [laid, found, overlay_self sorted]
              | some slot =>
                  have again := ih _ (mem_of_lookup named) (hb.lookup found)
                  simp only [laid, found, again]
      | null | bool | number | text | list =>
          have replaced : ∀ v : Json, v.isObject = false →
              (v.overlay (.object changes)).overlay (.object changes) =
                v.overlay (.object changes) := by
            intro v leaf
            rw [overlay_of_not_object leaf, whole]
          exact replaced _ rfl

theorem not_reaches (nothing : at? path v = none)
    (inner : ∀ start w, start <+: path → start ≠ path → at? start v = some w →
      w.isObject = true) : ¬ v.Reaches path := by
  induction path generalizing v with
  | nil => cases nothing
  | cons key path ih =>
      have object : v.isObject = true :=
        inner [] v List.nil_prefix (List.cons_ne_nil key path).symm rfl
      intro reached
      obtain ⟨next, found, later⟩ := reaches_field reached object
      rw [at?_cons, found] at nothing
      refine ih nothing (fun start w before short held => ?_) later
      refine inner (key :: start) w (List.cons_prefix_cons.mpr ⟨rfl, before⟩) ?_ ?_
      · intro same
        exact short (List.cons.inj same).2
      · rw [at?_cons, found]
        exact held

/-- The laws of laying one value over another. A path follows keys; a list stands at its end as one
value, whatever its items are. -/
theorem overlay_laws (hb : b.Ordered) (ho : o.Ordered) :
    (b.overlay o).overlay o = b.overlay o ∧
    (b.isObject = true → b.overlay (.object []) = b) ∧
    b.overlay b = b ∧
    (∀ path w, o.at? path = some w → w.isObject = false →
      (b.overlay o).at? path = some w) ∧
    (∀ path w, b.at? path = some w → w.isObject = false → o.at? path = none →
      (∀ start v, start <+: path → start ≠ path → o.at? start = some v → v.isObject = true) →
      (b.overlay o).at? path = some w) := by
  refine ⟨overlay_overlay hb ho, overlay_nothing, overlay_self hb, ?_, ?_⟩
  · intro path w held leaf
    exact at?_overlay_of_at? ho held leaf
  · intro path w held _ nothing inner
    rw [at?_overlay_of_not_reaches ho (not_reaches nothing inner)]
    exact held

namespace Sample

def style : Json := .object [
  ("attrs", .object [("fill", .text "none"), ("stroke", .text "black")]), ("size", .null)]

def restyle : Json := .object [
  ("attrs", .object [("fill", .text "red")]), ("size", .object [("x", .bool true)])]

theorem ordered_style : style.Ordered := by
  have attrs : (object [("fill", .text "none"), ("stroke", .text "black")]).Ordered :=
    .object (by decide) (List.forall_mem_cons.mpr ⟨.text _, List.forall_mem_singleton.mpr (.text _)⟩)
  exact .object (by decide) (List.forall_mem_cons.mpr ⟨attrs, List.forall_mem_singleton.mpr .null⟩)

theorem ordered_restyle : restyle.Ordered := by
  have attrs : (object [("fill", .text "red")]).Ordered :=
    .object (by decide) (List.forall_mem_singleton.mpr (.text _))
  have size : (object [("x", .bool true)]).Ordered :=
    .object (by decide) (List.forall_mem_singleton.mpr (.bool _))
  exact .object (by decide) (List.forall_mem_cons.mpr ⟨attrs, List.forall_mem_singleton.mpr size⟩)

end Sample

theorem overlay_laws_style :
    (Sample.style.overlay Sample.restyle).overlay Sample.restyle =
      Sample.style.overlay Sample.restyle ∧
    Sample.style.overlay (.object []) = Sample.style ∧
    (Sample.style.overlay Sample.restyle).at? ["attrs", "fill"] = some (.text "red") ∧
    (Sample.style.overlay Sample.restyle).at? ["size", "x"] = some (.bool true) ∧
    (Sample.style.overlay Sample.restyle).at? ["attrs", "stroke"] = some (.text "black") := by
  obtain ⟨twice, nothing, _, shows, stays⟩ :=
    overlay_laws Sample.ordered_style Sample.ordered_restyle
  refine ⟨twice, nothing rfl, shows _ _ rfl rfl, shows _ _ rfl rfl, stays _ _ rfl rfl rfl ?_⟩
  intro start v before short held
  obtain rfl | ⟨rest, rfl, inside⟩ := List.prefix_cons_iff.mp before
  · cases held
    rfl
  · obtain rfl | ⟨rest, rfl, deeper⟩ := List.prefix_cons_iff.mp inside
    · cases held
      rfl
    · exact absurd (List.prefix_nil.mp deeper ▸ rfl) short

end Flowchart.Json
