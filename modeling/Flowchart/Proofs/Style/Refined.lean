import Mathlib
import Flowchart.Style.Data
import Flowchart.Json.Reader
import Flowchart.Proofs.Decimal.Exact
import Flowchart.Proofs.Outcome
/-! Refining a configuration by nothing. A configuration is written as data and read back: every text
and every finite number comes back as it was, but data has no word for an infinite number, so a
configuration that holds one is refused from then on. -/
namespace Flowchart

namespace BoxStyle

structure Finite (s : BoxStyle Float32) : Prop where
  padX : s.padX.isFinite = true
  padY : s.padY.isFinite = true

end BoxStyle

namespace Config

/-- All numbers of the configuration are finite. -/
structure Finite (c : Settings) : Prop where
  marginX : c.marginX.isFinite = true
  marginY : c.marginY.isFinite = true
  stepX : c.stepX.isFinite = true
  stepY : c.stepY.isFinite = true
  hlineMargin : c.hlineMargin.isFinite = true
  rect : c.rect.Finite
  diamond : c.diamond.aspectRatio.isFinite = true
  frame : c.frame.Finite
  arrowHead : c.arrowHead.size.isFinite = true
  render : c.render.scale.isFinite = true

/-- A value that is read back if its numbers are finite, and otherwise refused for a number that
data has no word for. -/
inductive Returns {ρ : Type} (value : ρ) (finite : Prop) : Except DataError ρ → Prop where
  | kept (h : finite) : Returns value finite (.ok value)
  | refused (h : ¬ finite) : Returns value finite (.error (.wrongType .null .single))

namespace Returns
variable {ρ σ : Type} {value : ρ} {result : σ} {p q : Prop} {r : Except DataError ρ}
  {next : ρ → Except DataError σ}

theorem bind (first : Returns value p r) (rest : Returns result q (next value)) :
    Returns result (p ∧ q) (r >>= next) := by
  cases first with
  | kept hp =>
    change Returns result (p ∧ q) (next value)
    cases h : next value with
    | ok found =>
      rw [h] at rest
      cases rest with
      | kept hq => exact .kept ⟨hp, hq⟩
    | error found =>
      rw [h] at rest
      cases rest with
      | refused hq => exact .refused fun both => hq both.2
  | refused hp => exact .refused fun both => hp both.1

theorem map (h : Returns value p r) (g : ρ → σ) :
    Returns (g value) p (r >>= fun x => .ok (g x)) := by
  cases h with
  | kept hp => exact .kept hp
  | refused hp => exact .refused hp

theorem congr (h : Returns value p r) (same : p ↔ q) : Returns value q r := by
  rwa [← propext same]

theorem eq_ok_iff (h : Returns value p r) : r = .ok value ↔ p := by
  cases h with
  | kept hp => exact ⟨fun _ => hp, fun _ => rfl⟩
  | refused hp => exact ⟨fun h => (nomatch h), fun h => absurd h hp⟩

theorem eq_error_iff (h : Returns value p r) : r = .error (.wrongType .null .single) ↔ ¬ p := by
  cases h with
  | kept hp => exact ⟨fun h => (nomatch h), fun h => absurd hp h⟩
  | refused hp => exact ⟨fun _ => hp, fun _ => rfl⟩

end Returns

theorem readNumber_returns (x : Float32) :
    Returns x (x.isFinite = true) (readNumber (numberJson x)) := by
  unfold numberJson
  split
  · next finite =>
    rw [readNumber, toSingle, Decimal.narrow_widen finite]
    exact .kept finite
  · next infinite => exact .refused infinite

theorem readEntries_texts (entries : List (String × String)) :
    readEntries (entries.map fun (name, value) => (name, .text value)) = .ok entries := by
  induction entries with
  | nil => rfl
  | cons entry rest ih =>
    simp only [List.map_cons, readEntries, readText, ih]
    rfl

theorem readAttrs_returns (a : Attrs) : Returns a True (readAttrs (attrsJson a)) := by
  simp only [attrsJson, readAttrs, readEntries_texts]
  exact .kept trivial

theorem readText_returns (s : String) : Returns s True (readText (.text s)) := .kept trivial

theorem readFlag_returns (b : Bool) : Returns b True (readFlag (.bool b)) := .kept trivial

namespace RecordForm
variable {ρ : Type} {s : RecordForm ρ} {start middle value : ρ} {p q : Prop}
  {fields : List (String × Json)}

theorem setAll_nil_returns (s : RecordForm ρ) (start : ρ) :
    Returns start True (s.setAll start []) :=
  .kept trivial

theorem setAll_cons_returns (key : String) {data : Json}
    (first : Returns middle p (s.set start key data))
    (rest : Returns value q (s.setAll middle fields)) :
    Returns value (p ∧ q) (s.setAll start ((key, data) :: fields)) :=
  first.bind rest

theorem read_returns (steps : Returns value p (s.setAll start fields))
    (complete : s.missing? fields = none) :
    Returns value p (s.read start (.object fields)) := by
  simp only [read, complete]
  exact steps.map fun r => r

end RecordForm

open RecordForm

theorem form_read (start : Settings) (fields : List (String × Json)) :
    form.read start (.object fields) = form.setAll start fields :=
  bind_pure (form.setAll start fields)

theorem boxJson_eq (s : BoxStyle Float32) : boxJson s = .object [
    ("attrs", attrsJson s.attrs), ("padX", numberJson s.padX), ("padY", numberJson s.padY)] := by
  simp only [boxJson, Json.ofFields, Json.put, List.foldl, String.reduceEq, String.reduceLT,
    if_false]

theorem box_returns (start s : BoxStyle Float32) :
    Returns s s.Finite (boxForm.read start (boxJson s)) := by
  have steps : Returns s _ (boxForm.setAll start _) :=
    setAll_cons_returns "attrs" ((readAttrs_returns s.attrs).map _) <|
    setAll_cons_returns "padX" ((readNumber_returns s.padX).map _) <|
    setAll_cons_returns "padY" ((readNumber_returns s.padY).map _) <|
    setAll_nil_returns _ _
  rw [boxJson_eq]
  refine (read_returns steps rfl).congr ⟨?_, fun h => ⟨trivial, h.padX, h.padY, trivial⟩⟩
  rintro ⟨-, padX, padY, -⟩
  exact ⟨padX, padY⟩

theorem diamondJson_eq (s : DiamondStyle Float32) : diamondJson s = .object [
    ("aspectRatio", numberJson s.aspectRatio), ("attrs", attrsJson s.attrs)] := by
  simp only [diamondJson, Json.ofFields, Json.put, List.foldl, String.reduceEq, String.reduceLT,
    if_false, if_true]

theorem diamond_returns (start s : DiamondStyle Float32) :
    Returns s (s.aspectRatio.isFinite = true) (diamondForm.read start (diamondJson s)) := by
  have steps : Returns s _ (diamondForm.setAll start _) :=
    setAll_cons_returns "aspectRatio" ((readNumber_returns s.aspectRatio).map _) <|
    setAll_cons_returns "attrs" ((readAttrs_returns s.attrs).map _) <|
    setAll_nil_returns _ _
  rw [diamondJson_eq]
  exact (read_returns steps rfl).congr (by simp only [and_true])

theorem plain_returns (start s : PlainStyle) :
    Returns s True (plainForm.read start (plainJson s)) := by
  have steps : Returns s _ (plainForm.setAll start _) :=
    setAll_cons_returns "attrs" ((readAttrs_returns s.attrs).map _) <|
    setAll_nil_returns _ _
  exact (read_returns steps rfl).congr (and_true _).to_iff

theorem arrowHeadJson_eq (s : ArrowHeadStyle Float32) : arrowHeadJson s = .object [
    ("attrs", attrsJson s.attrs), ("size", numberJson s.size)] := by
  simp only [arrowHeadJson, Json.ofFields, Json.put, List.foldl, String.reduceEq,
    String.reduceLT, if_false]

theorem arrowHead_returns (start s : ArrowHeadStyle Float32) :
    Returns s (s.size.isFinite = true) (arrowHeadForm.read start (arrowHeadJson s)) := by
  have steps : Returns s _ (arrowHeadForm.setAll start _) :=
    setAll_cons_returns "attrs" ((readAttrs_returns s.attrs).map _) <|
    setAll_cons_returns "size" ((readNumber_returns s.size).map _) <|
    setAll_nil_returns _ _
  rw [arrowHeadJson_eq]
  exact (read_returns steps rfl).congr (by simp only [true_and, and_true])

theorem renderJson_eq (s : RenderStyle Float32) : renderJson s = .object [
    ("background", .text s.background), ("scale", numberJson s.scale)] := by
  simp only [renderJson, Json.ofFields, Json.put, List.foldl, String.reduceEq, String.reduceLT,
    if_false, if_true]

theorem render_returns (start s : RenderStyle Float32) :
    Returns s (s.scale.isFinite = true) (renderForm.read start (renderJson s)) := by
  have steps : Returns s _ (renderForm.setAll start _) :=
    setAll_cons_returns "background" ((readText_returns s.background).map _) <|
    setAll_cons_returns "scale" ((readNumber_returns s.scale).map _) <|
    setAll_nil_returns _ _
  rw [renderJson_eq]
  exact (read_returns steps rfl).congr (by simp only [true_and, and_true])

theorem toJson_eq (c : Settings) : c.toJson = .object [
    ("arrowHead", arrowHeadJson c.arrowHead), ("commentMarker", .text c.commentMarker),
    ("debug", .bool c.debug), ("diamond", diamondJson c.diamond), ("frame", boxJson c.frame),
    ("hlineMargin", numberJson c.hlineMargin), ("indentChars", .text c.indentChars),
    ("label", plainJson c.label), ("marginX", numberJson c.marginX),
    ("marginY", numberJson c.marginY), ("noText", .text c.noText), ("path", plainJson c.path),
    ("rect", boxJson c.rect), ("render", renderJson c.render), ("stepX", numberJson c.stepX),
    ("stepY", numberJson c.stepY), ("text", plainJson c.text), ("theme", .text c.theme),
    ("yesText", .text c.yesText)] := by
  simp only [toJson, Json.ofFields, Json.put, List.foldl, String.reduceEq, String.reduceLT,
    if_false, if_true]

/-- A configuration is read back from its data exactly if its numbers are finite. -/
theorem toJson_returns (c : Settings) : Returns c c.Finite (ofJson? c.toJson) := by
  have steps : Returns c _ (form.setAll classic _) :=
    setAll_cons_returns "arrowHead" ((arrowHead_returns _ c.arrowHead).map _) <|
    setAll_cons_returns "commentMarker" ((readText_returns c.commentMarker).map _) <|
    setAll_cons_returns "debug" ((readFlag_returns c.debug).map _) <|
    setAll_cons_returns "diamond" ((diamond_returns _ c.diamond).map _) <|
    setAll_cons_returns "frame" ((box_returns _ c.frame).map _) <|
    setAll_cons_returns "hlineMargin" ((readNumber_returns c.hlineMargin).map _) <|
    setAll_cons_returns "indentChars" ((readText_returns c.indentChars).map _) <|
    setAll_cons_returns "label" ((plain_returns _ c.label).map _) <|
    setAll_cons_returns "marginX" ((readNumber_returns c.marginX).map _) <|
    setAll_cons_returns "marginY" ((readNumber_returns c.marginY).map _) <|
    setAll_cons_returns "noText" ((readText_returns c.noText).map _) <|
    setAll_cons_returns "path" ((plain_returns _ c.path).map _) <|
    setAll_cons_returns "rect" ((box_returns _ c.rect).map _) <|
    setAll_cons_returns "render" ((render_returns _ c.render).map _) <|
    setAll_cons_returns "stepX" ((readNumber_returns c.stepX).map _) <|
    setAll_cons_returns "stepY" ((readNumber_returns c.stepY).map _) <|
    setAll_cons_returns "text" ((plain_returns _ c.text).map _) <|
    setAll_cons_returns "theme" ((readText_returns c.theme).map _) <|
    setAll_cons_returns "yesText" ((readText_returns c.yesText).map _) <|
    setAll_nil_returns _ _
  rw [ofJson?, toJson_eq]
  refine (read_returns steps rfl).congr ⟨?_, fun h => ?_⟩
  · simp only [true_and, and_true]
    rintro ⟨arrowHead, diamond, frame, hline, marginX, marginY, rect, render, stepX, stepY⟩
    exact { marginX, marginY, stepX, stepY, hlineMargin := hline, rect, diamond, frame,
            arrowHead, render }
  · simp only [true_and, and_true]
    exact ⟨h.arrowHead, h.diamond, h.frame, h.hlineMargin, h.marginX, h.marginY, h.rect, h.render,
      h.stepX, h.stepY⟩

theorem toJson_overlay_nothing (c : Settings) : c.toJson.overlay (.object []) = c.toJson := by
  rw [toJson_eq, Json.overlay, Json.overlayFields]

/-- Laid over a configuration with finite numbers, nothing changes nothing; a configuration that
holds any other number is refused. -/
theorem overlaid_nothing (c : Settings) :
    (c.overlaid (.object []) = .ok c ↔ c.Finite) ∧
      (c.overlaid (.object []) = .error (.wrongType .null .single) ↔ ¬ c.Finite) := by
  have read := toJson_returns c
  rw [overlaid, toJson_overlay_nothing]
  exact ⟨read.eq_ok_iff, read.eq_error_iff⟩

/-- A configuration that overrides were made or refined into. -/
inductive Accepted : Settings → Prop where
  | made {overrides : Json} {c : Settings} (h : ofOverrides overrides = .ok c) : Accepted c
  | refined {overrides : Json} {c d : Settings} (before : Accepted c)
      (h : c.overlaid overrides = .ok d) : Accepted d

/-- A margin beyond single precision is read as an infinite one. -/
theorem vast_margin_accepted : ∃ data c, Json.parse? "\x7b\"marginX\":1e40\x7d" = some data ∧
    ofOverrides data = .ok c ∧ c.marginX.isFinite = false := by
  have run : (Json.parse? "\x7b\"marginX\":1e40\x7d").any (fun data =>
      (ofOverrides data).toOption.any fun c => !c.marginX.isFinite) = true := by
    decide +kernel
  obtain ⟨data, parsed, made⟩ := (Option.any_eq_true _ _).1 run
  obtain ⟨c, made, infinite⟩ := exists_of_any_toOption made
  exact ⟨data, c, parsed, made, by simpa using infinite⟩

/-- An accepted configuration may be refused when it is refined. -/
theorem accepted_overlaid_nothing_fails :
    ¬ ∀ c, Accepted c → c.overlaid (.object []) = .ok c := by
  intro kept
  obtain ⟨data, c, -, made, infinite⟩ := vast_margin_accepted
  have finite := (overlaid_nothing c).1.1 (kept c (.made made))
  rw [finite.marginX] at infinite
  exact nomatch infinite

end Config
end Flowchart
