import Flowchart.Output.Render
import Flowchart.Proofs.Json.Fields
import Flowchart.Proofs.Style.Refined
import Flowchart.Proofs.Chart.Debugged
import Flowchart.Proofs.Output.Tagged
/-! The name of a theme. Overrides may name the theme along with what they set: reading them gives the
same configuration but for that name, and nothing that is drawn depends on it. -/
namespace Flowchart

namespace Config

def titled {α : Type} (c : Config α) (theme : String) : Config α := { c with theme }

theorem set_titled {key : String} (other : key ≠ "theme") (c : Settings) (theme : String)
    (value : Json) :
    form.set (c.titled theme) key value = (form.set c key value).map (titled · theme) := by
  unfold form
  dsimp only
  split
  case h_6 => exact absurd rfl other
  case h_20 => rfl
  all_goals
    change _ = (titled · theme) <$> (_ >>= _)
    rw [map_bind]
    rfl

theorem setAll_titled {fields : List (String × Json)} (others : Json.lookup "theme" fields = none)
    (c : Settings) (theme : String) :
    form.setAll (c.titled theme) fields = (form.setAll c fields).map (titled · theme) := by
  unfold RecordForm.setAll
  induction fields generalizing c with
  | nil => rfl
  | cons field rest ih =>
      obtain ⟨key, value⟩ := field
      obtain ⟨other, others⟩ := Json.lookup_cons_eq_none.mp others
      rw [List.foldlM_cons, List.foldlM_cons]
      dsimp only
      rw [set_titled other]
      cases form.set c key value with
      | error fault => rfl
      | ok next => exact ih others next

theorem read_put_theme {fields : List (String × Json)} (sorted : Json.Increasing fields)
    {old : String} (found : Json.lookup "theme" fields = some (.text old)) (start : Settings)
    (theme : String) :
    form.read start (.object (Json.put "theme" (.text theme) fields)) =
      (form.read start (.object fields)).map (titled · theme) := by
  obtain ⟨before, after, rfl, others, set⟩ := sorted.split found
  have renamed : ∀ name, form.setAll start (before ++ ("theme", .text name) :: after) =
      (form.setAll start before >>= fun c => (form.setAll c after).map (titled · name)) := by
    intro name
    unfold RecordForm.setAll
    rw [List.foldlM_append]
    congr 1
    funext c
    exact setAll_titled others c name
  rw [set, form_read, form_read, renamed, renamed]
  cases form.setAll start before with
  | error fault => rfl
  | ok c =>
      change (form.setAll c after).map _ = ((form.setAll c after).map _).map _
      cases form.setAll c after <;> rfl

/-- Overrides that name a theme give the same configuration under that name. -/
theorem overlaid_put_theme (c : Settings) {changes : List (String × Json)}
    (unnamed : Json.lookup "theme" changes = none) (theme : String) :
    c.overlaid (.object (Json.put "theme" (.text theme) changes)) =
      (c.overlaid (.object changes)).map (titled · theme) := by
  obtain ⟨fields, data, sorted, found⟩ : ∃ fields, c.toJson = .object fields ∧
      Json.Increasing fields ∧ Json.lookup "theme" fields = some (.text c.theme) :=
    ⟨_, toJson_eq c, by simp only [Json.Increasing, List.map]; decide, rfl⟩
  have named : Json.laid "theme" (.text theme) fields = .text theme := by
    rw [Json.laid, found]
    rfl
  unfold overlaid
  rw [data, Json.overlay, Json.overlay, Json.overlayFields_put sorted unnamed, named]
  exact read_put_theme (Json.increasing_overlayFields sorted)
    ((Json.lookup_overlayFields unnamed).trans found) classic theme

end Config

theorem Layout.ofProgram_titled {α : Type} [Scalar α] {config : Config α} {measure : Measure α}
    {program : Node} {l : Layout α} (h : Layout.ofProgram config measure program = .ok l)
    (theme : String) : Layout.ofProgram (config.titled theme) measure program = .ok l := by
  obtain ⟨c, run, drawn⟩ := ofProgram_eq_ok_iff.mp h
  exact ofProgram_eq_ok_iff.mpr
    ⟨c, ((Context.run_of_arrangeAll run).withUnread config.debug theme).arranged, drawn⟩

theorem Svg.render_titled (l : Layout Float32) (config : Config Float32) (theme : String) :
    Svg.render l (config.titled theme) = Svg.render l config := by
  have leaf : ∀ s ox oy, Svg.leafTags (config.titled theme) ox oy s = Svg.leafTags config ox oy s := by
    intro s ox oy
    cases s <;> rfl
  have placed : Svg.placedTags (config.titled theme) = Svg.placedTags config :=
    funext fun p => leaf p.shape p.x p.y
  unfold Svg.render
  rw [Svg.picture_eq, Svg.picture_eq, placed]
  rfl

theorem Layout.ofSource_titled (source : String) (config : Config Float32)
    (measure : Measure Float32) (theme : String) :
    Layout.ofSource source (config.titled theme) measure = Layout.ofSource source config measure := by
  cases parsed : config.lexis.parse source with
  | error e =>
      have same : (config.titled theme).lexis.parse source = .error e := parsed
      rw [Layout.ofSource, Layout.ofSource, parsed, same]
      rfl
  | ok program =>
      have same : (config.titled theme).lexis.parse source = .ok program := parsed
      obtain ⟨l, drawn⟩ := Context.ofProgram_ok config measure (Rules.isProgram_of_parse parsed)
      have again := Layout.ofProgram_titled drawn theme
      rw [Layout.ofSource, Layout.ofSource, parsed, same]
      change (Layout.ofProgram _ measure program).mapError _ = (Layout.ofProgram _ _ _).mapError _
      rw [drawn, again]

/-- The drawing of a source, or what is wrong with the source, does not depend on the name of the
theme. -/
theorem render_titled (source : String) (config : Config Float32) (theme : String) (metrics : Bool) :
    render source ⟨config.titled theme, metrics⟩ = render source ⟨config, metrics⟩ := by
  unfold render
  dsimp only
  rw [Layout.ofSource_titled]
  congr 1
  funext l
  rw [Svg.render_titled]

end Flowchart
