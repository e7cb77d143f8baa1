import Mathlib
import Flowchart.Output.Dump
import Flowchart.Proofs.Output.Unbroken
/-! The picture and the listing of a layout show the same drawing: shape by shape, in the same order,
with the same start and moves of each path and the same content of each text. -/
namespace Flowchart

namespace Single
open Float.Model

theorem unpacked_add_comm (spec : Format) (a b : UnpackedFloat) :
    UnpackedFloat.add spec a b = UnpackedFloat.add spec b a := by
  cases a with
  | notANumber => cases b <;> rfl
  | infinity s =>
    cases b with
    | infinity t => cases s <;> cases t <;> rfl
    | _ => rfl
  | zero s =>
    cases b with
    | zero t => cases s <;> cases t <;> rfl
    | _ => rfl
  | finite s m e pos =>
    cases b with
    | finite t n d pos' =>
      simp only [UnpackedFloat.add]
      rw [Int.add_comm, min_comm e d]
    | _ => rfl

theorem add_comm (a b : Float32) : a + b = b + a := by
  change Float32.ofModel (a.toModel + b.toModel) = Float32.ofModel (b.toModel + a.toModel)
  change Float32.ofModel (.pack (.add .binary32 a.toModel.unpack b.toModel.unpack))
    = Float32.ofModel (.pack (.add .binary32 b.toModel.unpack a.toModel.unpack))
  rw [unpacked_add_comm]

end Single

mutual

theorem Shape.face_of_mem_leaves {α : Type} [Scalar α] {ox oy : α} {s : Shape α} {p : Placed α}
    (h : p ∈ s.leaves ox oy) : p.shape.face ≠ .group := by
  cases s with
  | group x y children bounds => exact face_of_mem_leavesAll h
  | point q =>
    rw [List.mem_singleton.1 h, Shape.face]
    split <;> simp
  | path | text | rect | frame | diamond =>
    rw [List.mem_singleton.1 h, Shape.face]
    simp

theorem Shape.face_of_mem_leavesAll {α : Type} [Scalar α] {ox oy : α} {shapes : List (Shape α)}
    {p : Placed α} (h : p ∈ Shape.leavesAll ox oy shapes) : p.shape.face ≠ .group := by
  cases shapes with
  | nil => exact absurd h List.not_mem_nil
  | cons s rest =>
    rcases List.mem_append.1 h with first | later
    · exact face_of_mem_leaves first
    · exact face_of_mem_leavesAll later

end

namespace Svg

def Tag.isClosing (t : Tag) : Bool := t.name.toList.head? == some '/'

def readElements (text : String) : List Tag :=
  ((readTags text).dropWhile (·.name != "/defs")).tail.filter (!·.isClosing)

def elementName? : String → Option String
  | "point" => some "circle"
  | "rect" | "frame" => some "rect"
  | "diamond" => some "polygon"
  | "path" => some "path"
  | "text" => some "text"
  | _ => none

/-- An element and an entry of the listing show one shape. -/
structure Depicts (config : Config Float32) (s : Shape Float32) (e : ShapeEntry Float32) (t : Tag) :
    Prop where
  kind : e.kind = s.kindWord
  name : elementName? e.kind = some t.name
  path : ∀ p, s = .path p → ∃ x y rest,
    e.points = (x, y) :: rest ∧ rest.length = p.moves.length ∧ e.isArrow = p.isArrow ∧
      t.attributes = ("d", "M " ++ Decimal.twoPlaces x ++ " " ++ Decimal.twoPlaces y
          ++ String.join (p.moves.map moveText)) :: bag config.path.attrs
        ++ (if e.isArrow then [("marker-end", "url(#arrow)")] else [])
  markerEnd : e.kind = "path" → ((∃ value, ("marker-end", value) ∈ t.attributes) ↔
    e.isArrow = true ∨ "marker-end" ∈ config.path.attrs.entries.map Prod.fst)
  text : ∀ c, s = .text c → ∃ x y,
    e.content = some c.content ∧ e.isLabel = c.isLabel ∧ t.content = escape c.content ∧
      t.attributes = [("x", x), ("y", y), ("text-anchor", "middle")]
        ++ bag (if e.isLabel then config.label.attrs else config.text.attrs)
        ++ [("xml:space", "preserve")]

variable {config : Config Float32}

theorem escape_eq_iff {s : String} {name : String} (h : escape name = name) :
    escape s = name ↔ s = name := by
  constructor
  · intro same
    rw [← h] at same
    have texts := congrArg (fun u : String => unescape u.toList) same
    simp only [unescape_escape] at texts
    exact String.toList_inj.1 texts
  · rintro rfl
    exact h

theorem mem_bag_iff {style : Attrs} {name : String} (h : escape name = name) :
    (∃ value, (name, value) ∈ bag style) ↔ name ∈ style.entries.map Prod.fst := by
  simp only [bag, List.mem_map, Prod.mk.injEq, escape_eq_iff h]
  constructor
  · rintro ⟨value, ⟨key, v⟩, mem, rfl, -⟩
    exact ⟨_, mem, rfl⟩
  · rintro ⟨⟨key, v⟩, mem, rfl⟩
    exact ⟨_, ⟨key, v⟩, mem, rfl, rfl⟩

theorem entry_kind (p : Placed Float32) : p.entry.kind = p.shape.kindWord := by
  unfold Placed.entry
  cases p.shape <;> rfl

theorem depicts_plain {s : Shape Float32} {e : ShapeEntry Float32} {t : Tag}
    (kind : e.kind = s.kindWord) (name : elementName? e.kind = some t.name)
    (noPath : ∀ p, s ≠ .path p) (noText : ∀ c, s ≠ .text c) : Depicts config s e t where
  kind := kind
  name := name
  path p h := absurd h (noPath p)
  markerEnd h := by
    rw [kind] at h
    cases s with
    | path p => exact absurd rfl (noPath p)
    | _ => simp [Shape.kindWord] at h
  text c h := absurd h (noText c)

theorem path_depicts (ox oy : Float32) (p : Path Float32) :
    Depicts config (.path p) (Placed.entry ⟨.path p, ox, oy⟩)
      (.single "path" (("d", pathText (ox + p.x) (oy + p.y) p.moves) :: bag config.path.attrs
        ++ (if p.isArrow then [("marker-end", "url(#arrow)")] else []))) where
  kind := rfl
  name := rfl
  path q h := by
    cases h
    refine ⟨p.x + ox, p.y + oy, _, rfl, Path.length_trace _ _, rfl, ?_⟩
    rw [Single.add_comm p.x, Single.add_comm p.y]
    rfl
  markerEnd _ := by
    have own : escape "marker-end" = "marker-end" := by decide
    rw [← mem_bag_iff own]
    change (∃ value, _ ∈ _ :: _ ++ _) ↔ p.isArrow = true ∨ _
    cases p.isArrow <;> simp
  text c h := nomatch h

theorem text_depicts (ox oy : Float32) (c : Caption Float32) (x y : String) :
    Depicts config (.text c) (Placed.entry ⟨.text c, ox, oy⟩)
      (.start "text" ([("x", x), ("y", y), ("text-anchor", "middle")]
        ++ bag (if c.isLabel then config.label.attrs else config.text.attrs)
        ++ [("xml:space", "preserve")]) (escape c.content)) where
  kind := rfl
  name := rfl
  path p h := nomatch h
  markerEnd h := by simp [Placed.entry, Shape.kindWord] at h
  text d h := by
    cases h
    exact ⟨x, y, rfl, rfl, rfl, rfl⟩

theorem placedTags_depict (config : Config Float32) (p : Placed Float32)
    (leaf : p.shape.face ≠ .group) :
    (p.isShown = true ∧ ∃ t, (placedTags config p).filter (!·.isClosing) = [t] ∧
        Depicts config p.shape p.entry t) ∨
      p.isShown = false ∧ (placedTags config p).filter (!·.isClosing) = [] := by
  obtain ⟨s, ox, oy⟩ := p
  have outline {name : String} {attributes : List (String × String)}
      (tag : leafTags config ox oy s = [.single name attributes])
      (opens : name.toList.head? ≠ some '/') (named : elementName? s.kindWord = some name)
      (shown : s.isPlaceholder = false) (noPath : ∀ p, s ≠ .path p) (noText : ∀ c, s ≠ .text c) :
      Placed.isShown ⟨s, ox, oy⟩ = true ∧
        ∃ t, (placedTags config ⟨s, ox, oy⟩).filter (!·.isClosing) = [t] ∧
          Depicts config s (Placed.entry ⟨s, ox, oy⟩) t := by
    refine ⟨by simp [Placed.isShown, shown], .single name attributes, ?_,
      depicts_plain (entry_kind _) (by rw [entry_kind]; exact named) noPath noText⟩
    simp [placedTags, tag, Tag.isClosing, Tag.single, opens]
  cases s with
  | point q =>
    cases h : q.isPlaceholder with
    | true =>
      exact .inr ⟨by simp [Placed.isShown, Shape.isPlaceholder, h],
        by simp [placedTags, leafTags, h]⟩
    | false =>
      exact .inl (outline (by rw [leafTags, h]; rfl) (by decide) rfl h (by simp) (by simp))
  | path p =>
    refine .inl ⟨rfl, _, ?_, path_depicts ox oy p⟩
    simp [placedTags, leafTags, Tag.isClosing, Tag.single]
  | text c =>
    obtain ⟨x, y, drawn⟩ : ∃ x y, leafTags config ox oy (.text c) =
        [.start "text" ([("x", x), ("y", y), ("text-anchor", "middle")]
          ++ bag (if c.isLabel then config.label.attrs else config.text.attrs)
          ++ [("xml:space", "preserve")]) (escape c.content), .stop "text"] := ⟨_, _, rfl⟩
    refine .inl ⟨rfl, _, ?_, text_depicts ox oy c x y⟩
    simp [placedTags, drawn, Tag.isClosing, Tag.start, Tag.stop]
  | rect o =>
    exact .inl (outline rfl (by decide) rfl rfl (by simp) (by simp))
  | frame o =>
    exact .inl (outline rfl (by decide) rfl rfl (by simp) (by simp))
  | diamond o =>
    exact .inl (outline rfl (by decide) rfl rfl (by simp) (by simp))
  | group => exact absurd rfl leaf

/-- What a picture draws are the tags of the leaves. -/
theorem readElements_render (l : Layout Float32) (config : Config Float32) :
    readElements (render l config)
      = (l.leaves.flatMap (placedTags config)).filter (!·.isClosing) := by
  have defs : ((picture l config).dropWhile (·.name != "/defs")).tail
      = l.leaves.flatMap (placedTags config) ++ [.stop "svg"] := by
    rw [picture_eq]
    simp [opening, Tag.start, Tag.stop, Tag.single]
  rw [readElements, readTags_render, defs, List.filter_append]
  simp [Tag.isClosing, Tag.stop]

theorem elements_match_entries (config : Config Float32) {leaves : List (Placed Float32)}
    (h : ∀ p ∈ leaves, p.shape.face ≠ .group) :
    List.Forall₂ (fun shown t => Depicts config shown.1.shape shown.2 t)
      ((leaves.filter Placed.isShown).zip ((leaves.filter Placed.isShown).map Placed.entry))
      ((leaves.flatMap (placedTags config)).filter (!·.isClosing)) := by
  induction leaves with
  | nil => exact .nil
  | cons p rest ih =>
    have later := ih fun q mem => h q (List.mem_cons_of_mem _ mem)
    rw [List.flatMap_cons, List.filter_append]
    rcases placedTags_depict config p (h p List.mem_cons_self) with
      ⟨shown, t, own, depicts⟩ | ⟨hidden, own⟩
    · rw [List.filter_cons_of_pos shown, own]
      exact .cons depicts later
    · rw [List.filter_cons_of_neg (by simp [hidden]), own]
      exact later

/-- The picture and the listing show the same shapes in the same order. -/
theorem picture_matches_dump (l : Layout Float32) (config : Config Float32) :
    (l.leaves.filter Placed.isShown).length = l.dump.shapes.length ∧
      List.Forall₂ (fun shown t => Depicts config shown.1.shape shown.2 t)
        ((l.leaves.filter Placed.isShown).zip l.dump.shapes)
        (readElements (render l config)) := by
  refine ⟨(List.length_map _).symm, ?_⟩
  rw [readElements_render]
  exact elements_match_entries config fun p mem => Shape.face_of_mem_leaves mem

/-- The style of paths may bring a marker of its own, and every path then has one. -/
theorem marker_end_of_style : ¬ ∀ (l : Layout Float32) (config : Config Float32),
    List.Forall₂ (fun e t => e.kind = "path" →
        ((∃ value, ("marker-end", value) ∈ t.attributes) ↔ e.isArrow = true))
      l.dump.shapes (readElements (render l config)) := by
  intro claimed
  let line : Path Float32 := Path.start 0 0
  let styled : Config Float32 :=
    { Config.plain with path := ⟨.ofList [("marker-end", "url(#arrow)")]⟩ }
  have drawn := claimed ⟨Group.empty.push (.path line), 0, 0⟩ styled
  rw [readElements_render] at drawn
  have walk : Layout.leaves ⟨Group.empty.push (.path line), 0, 0⟩
      = [⟨.path line, (0 : Float32) + 0, (0 : Float32) + 0⟩] := rfl
  have element : ([⟨.path line, (0 : Float32) + 0, (0 : Float32) + 0⟩].flatMap
      (placedTags styled)).filter (!·.isClosing) = [.single "path"
        (("d", pathText ((0 : Float32) + 0 + line.x) ((0 : Float32) + 0 + line.y) line.moves)
          :: bag styled.path.attrs ++ [])] := by
    simp [placedTags, leafTags, Tag.isClosing, Tag.single, line, Path.start]
  rw [Layout.dump, walk, element] at drawn
  cases drawn with
  | cons claim _ =>
    have marker : ("marker-end", "url(#arrow)") ∈ bag styled.path.attrs := by decide
    have arrow := (claim rfl).1 ⟨_, List.mem_cons_of_mem _ (List.mem_append_left _ marker)⟩
    exact Bool.false_ne_true arrow

end Svg
end Flowchart
