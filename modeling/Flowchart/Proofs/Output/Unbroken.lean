import Mathlib
import Flowchart.Proofs.Output.Tagged
/-! No text breaks out of its place in a picture. The markup of a picture, taken for itself, depends on
what kinds of leaves there are and on how many attributes each style has, and the texts of the text
elements are those of the layout. -/
namespace Flowchart

/-- What kind of leaf a walk meets, without its place and its texts. -/
inductive Face where
  | placeholder
  | marker
  | rect
  | frame
  | diamond
  | path (isArrow : Bool)
  | text (isLabel : Bool)
  | group
deriving DecidableEq, Repr

namespace Shape
variable {α : Type}

def face : Shape α → Face
  | .point q => if q.isPlaceholder then .placeholder else .marker
  | .path q => .path q.isArrow
  | .text t => .text t.isLabel
  | .rect _ => .rect
  | .frame _ => .frame
  | .diamond _ => .diamond
  | .group .. => .group

def content? : Shape α → Option String
  | .text t => some t.content
  | _ => none

end Shape

structure BagSizes where
  rect : Nat
  diamond : Nat
  path : Nat
  text : Nat
  label : Nat
  frame : Nat
  arrowHead : Nat
deriving DecidableEq, Repr

def Config.bagSizes {α : Type} (c : Config α) : BagSizes where
  rect := c.rect.attrs.entries.length
  diamond := c.diamond.attrs.entries.length
  path := c.path.attrs.entries.length
  text := c.text.attrs.entries.length
  label := c.label.attrs.entries.length
  frame := c.frame.attrs.entries.length
  arrowHead := c.arrowHead.attrs.entries.length

namespace Svg

/-- The markup of a tag with some number of attributes. -/
def tagMarks (attributes : Nat) : List Char :=
  '<' :: List.replicate (2 * attributes) '"' ++ ['>']

/-- The numbers of attributes of the tags that a leaf becomes. -/
def leafCounts (sizes : BagSizes) : Face → List Nat
  | .placeholder => []
  | .marker => [4]
  | .rect => [4 + sizes.rect]
  | .frame => [4 + sizes.frame]
  | .diamond => [1 + sizes.diamond]
  | .path isArrow => [1 + sizes.path + isArrow.toNat]
  | .text isLabel => [4 + (if isLabel then sizes.label else sizes.text), 0]
  | .group => []

/-- The markup of a picture, from the kinds of its leaves and the sizes of the styles. -/
def marks (sizes : BagSizes) (faces : List Face) : List Char :=
  ([4, 3, 0, 8, 1 + sizes.arrowHead, 0, 0] ++ faces.flatMap (leafCounts sizes) ++ [0]).flatMap
    tagMarks

theorem Plain.filter {s : String} (h : Plain s) : s.toList.filter isMark = [] := by
  rw [List.filter_eq_nil_iff]
  intro c mem
  rw [h c mem]
  exact Bool.false_ne_true

theorem filter_attr {name value : String} (hname : Plain name) (hvalue : Plain value) :
    (attr name value).toList.filter isMark = ['"', '"'] := by
  simp [attr, hname.filter, hvalue.filter, isMark]

theorem filter_attributes {attributes : List (String × String)} (h : PlainAttributes attributes) :
    (attributes.flatMap fun a => (attr a.1 a.2).toList).filter isMark
      = List.replicate (2 * attributes.length) '"' := by
  induction attributes with
  | nil => rfl
  | cons a rest ih =>
    have first := h a List.mem_cons_self
    rw [List.flatMap_cons, List.filter_append, filter_attr first.1 first.2,
      ih fun b mem => h b (List.mem_cons_of_mem _ mem), List.length_cons, Nat.mul_succ,
      Nat.add_comm, List.replicate_add]
    rfl

theorem Tag.Clean.filter_write {t : Tag} (h : t.Clean) :
    t.write.toList.filter isMark = tagMarks t.attributes.length := by
  have tail : t.tail.filter isMark = [] := by
    unfold Tag.tail
    split <;> rfl
  rw [Tag.toList_write, Tag.piece, Tag.Clean.inner_eq, tagMarks, List.filter_cons_of_pos (by rfl)]
  simp only [List.filter_append, h.name.filter, filter_attributes h.attributes, tail,
    List.append_nil, List.nil_append]
  rw [List.filter_cons_of_pos (by rfl), h.content.filter]
  rfl

theorem filter_join_write {tags : List Tag} (h : ∀ t ∈ tags, t.Clean) :
    (String.join (tags.map Tag.write)).toList.filter isMark
      = (tags.map (·.attributes.length)).flatMap tagMarks := by
  rw [String.toList_join, List.flatMap_map, List.flatMap_map, List.filter_flatMap]
  exact List.flatMap_congr fun t mem => (h t mem).filter_write

variable {config : Config Float32}

theorem length_bag (style : Attrs) : (bag style).length = style.entries.length :=
  List.length_map _

theorem leafTags_counts (config : Config Float32) (ox oy : Float32) (s : Shape Float32) :
    (leafTags config ox oy s).map (·.attributes.length) = leafCounts config.bagSizes s.face := by
  cases s with
  | point q =>
    cases h : q.isPlaceholder <;> simp [leafTags, Shape.face, leafCounts, h, Tag.single]
  | path q =>
    cases h : q.isArrow <;>
      simp [leafTags, Shape.face, leafCounts, h, Tag.single, length_bag, Config.bagSizes] <;> omega
  | text t =>
    cases h : t.isLabel <;>
      simp [leafTags, Shape.face, leafCounts, h, Tag.start, Tag.stop, length_bag,
        Config.bagSizes] <;> omega
  | rect o =>
    simp [leafTags, Shape.face, leafCounts, Tag.single, boxAttributes, length_bag, Config.bagSizes]
    omega
  | frame o =>
    simp [leafTags, Shape.face, leafCounts, Tag.single, boxAttributes, length_bag, Config.bagSizes]
    omega
  | diamond o =>
    simp [leafTags, Shape.face, leafCounts, Tag.single, length_bag, Config.bagSizes]
    omega
  | group => rfl

def readTexts (tags : List Tag) : List String :=
  (tags.filter (·.name == "text")).map fun t => .ofList (unescape t.content.toList)

theorem readTexts_append (first rest : List Tag) :
    readTexts (first ++ rest) = readTexts first ++ readTexts rest := by
  rw [readTexts, List.filter_append, List.map_append]
  rfl

theorem readTexts_leafTags (config : Config Float32) (ox oy : Float32) (s : Shape Float32) :
    readTexts (leafTags config ox oy s) = s.content?.toList := by
  cases s with
  | point q => cases h : q.isPlaceholder <;> simp [leafTags, h, readTexts, Tag.single, Shape.content?]
  | text t =>
    simp [leafTags, readTexts, Tag.start, Tag.stop, Shape.content?, unescape_escape]
  | path | rect | frame | diamond =>
    simp [leafTags, readTexts, Tag.single, Shape.content?]
  | group => rfl

theorem readTexts_walk (config : Config Float32) (leaves : List (Placed Float32)) :
    readTexts (leaves.flatMap (placedTags config))
      = leaves.filterMap fun p => p.shape.content? := by
  induction leaves with
  | nil => rfl
  | cons p rest ih =>
    rw [List.flatMap_cons, readTexts_append, ih, placedTags, readTexts_leafTags,
      List.filterMap_cons]
    cases p.shape.content? <;> rfl

theorem opening_counts (l : Layout Float32) (config : Config Float32) :
    (opening l config).map (·.attributes.length)
      = [4, 3, 0, 8, 1 + config.bagSizes.arrowHead, 0, 0] := by
  simp [opening, Tag.start, Tag.stop, Tag.single, length_bag, Config.bagSizes, Nat.add_comm]

/-- The markup of a picture is settled by the kinds of its leaves and the sizes of the styles, and
its text elements hold the texts of the layout in the order of the walk. -/
theorem render_texts_enclosed (l : Layout Float32) (config : Config Float32) :
    (render l config).toList.filter isMark
        = marks config.bagSizes (l.leaves.map (·.shape.face)) ∧
      readTexts (readTags (render l config)) = l.leaves.filterMap (·.shape.content?) := by
  constructor
  · rw [render, filter_join_write (picture_clean l config), picture_eq, marks]
    simp only [List.map_append, opening_counts, List.map_flatMap, placedTags, leafTags_counts,
      List.flatMap_map, List.map_cons, List.map_nil]
    rfl
  · have opened : readTexts (opening l config) = [] := by
      simp [opening, readTexts, Tag.start, Tag.stop, Tag.single]
    rw [readTags_render, picture_eq, readTexts_append, readTexts_append, readTexts_walk, opened,
      List.nil_append]
    simp [readTexts, Tag.stop]

end Svg
end Flowchart
