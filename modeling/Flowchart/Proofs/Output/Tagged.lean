import Mathlib
import Flowchart.Proofs.Output.Escaped
/-! The tags of a picture. They are those of its leaves in the order in which a layout is walked, and
they are read back from the text of the picture, whatever the texts and styles hold. -/
namespace Flowchart.Svg
variable {config : Config Float32}

def placedTags (config : Config Float32) (p : Placed Float32) : List Tag :=
  leafTags config p.x p.y p.shape

mutual

theorem tags_eq_leaves (config : Config Float32) (ox oy : Float32) (s : Shape Float32) :
    tags config ox oy s = (s.leaves ox oy).flatMap (placedTags config) := by
  cases s with
  | group x y children bounds =>
    rw [tags, Shape.leaves]
    exact tagsAll_eq_leaves config (ox + x) (oy + y) children
  | point p => simp [tags, Shape.leaves, placedTags]
  | path p => simp [tags, Shape.leaves, placedTags]
  | text t => simp [tags, Shape.leaves, placedTags]
  | rect o => simp [tags, Shape.leaves, placedTags]
  | frame o => simp [tags, Shape.leaves, placedTags]
  | diamond o => simp [tags, Shape.leaves, placedTags]

theorem tagsAll_eq_leaves (config : Config Float32) (ox oy : Float32)
    (shapes : List (Shape Float32)) :
    tagsAll config ox oy shapes
      = (Shape.leavesAll ox oy shapes).flatMap (placedTags config) := by
  cases shapes with
  | nil => rfl
  | cons s rest =>
    rw [tagsAll, Shape.leavesAll, List.flatMap_append, tags_eq_leaves config ox oy s,
      tagsAll_eq_leaves config ox oy rest]

end

theorem picture_eq (l : Layout Float32) (config : Config Float32) :
    picture l config
      = opening l config ++ l.leaves.flatMap (placedTags config) ++ [.stop "svg"] := by
  rw [picture, tags_eq_leaves]
  rfl

def PlainAttributes (attributes : List (String × String)) : Prop :=
  ∀ a ∈ attributes, Plain a.1 ∧ Plain a.2

namespace PlainAttributes
variable {first rest : List (String × String)} {name value : String}

theorem nil : PlainAttributes [] := fun _ mem => absurd mem List.not_mem_nil

theorem cons (hname : Plain name) (hvalue : Plain value) (hrest : PlainAttributes rest) :
    PlainAttributes ((name, value) :: rest) := by
  intro a mem
  rcases List.mem_cons.1 mem with rfl | mem
  · exact ⟨hname, hvalue⟩
  · exact hrest a mem

theorem append (hfirst : PlainAttributes first) (hrest : PlainAttributes rest) :
    PlainAttributes (first ++ rest) := fun a mem =>
  (List.mem_append.1 mem).elim (hfirst a) (hrest a)

theorem bag (style : Attrs) : PlainAttributes (bag style) := by
  intro a mem
  obtain ⟨⟨name, value⟩, -, rfl⟩ := List.mem_map.1 mem
  exact ⟨plain_escape name, plain_escape value⟩

theorem box (x y w h : Float32) : PlainAttributes (boxAttributes x y w h) :=
  .cons (by decide) (plain_number x) <| .cons (by decide) (plain_number y) <|
    .cons (by decide) (plain_number w) <| .cons (by decide) (plain_number h) .nil

end PlainAttributes

namespace Tag
variable {name content : String} {attributes : List (String × String)}

theorem clean_single (hname : Plain name) (oneWord : ' ' ∉ name.toList)
    (some : attributes ≠ []) (h : PlainAttributes attributes) :
    (single name attributes).Clean :=
  ⟨hname, oneWord, h, (by decide : Plain ""), fun none => absurd none some⟩

theorem clean_start (hname : Plain name) (oneWord : ' ' ∉ name.toList)
    (last : name.toList.getLast? ≠ some '/') (h : PlainAttributes attributes)
    (hcontent : Plain content) : (start name attributes content).Clean :=
  ⟨hname, oneWord, h, hcontent, fun _ => ⟨rfl, last⟩⟩

end Tag

theorem plain_pathText (x y : Float32) (moves : List (Move Float32)) :
    Plain (pathText x y moves) := by
  refine ((((by decide : Plain "M ").append (plain_number x)).append (by decide)).append
    (plain_number y)).append (.join fun s mem => ?_)
  obtain ⟨move, -, rfl⟩ := List.mem_map.1 mem
  cases move with
  | horizontal d => exact (by decide : Plain " h ").append (plain_number d)
  | vertical d => exact (by decide : Plain " v ").append (plain_number d)

theorem plain_cornerText (x y w h : Float32) : Plain (cornerText x y w h) := by
  have pair (a b : Float32) : Plain (number a ++ "," ++ number b) :=
    ((plain_number a).append (by decide)).append (plain_number b)
  have blank : Plain " " := by decide
  have text : cornerText x y w h
      = number (x + w / 2.0) ++ "," ++ number y ++ " "
        ++ (number (x + w) ++ "," ++ number (y + h / 2.0))
        ++ " " ++ (number (x + w / 2.0) ++ "," ++ number (y + h)) ++ " "
        ++ (number x ++ "," ++ number (y + h / 2.0)) := rfl
  rw [text]
  exact ((((((pair _ _).append blank).append (pair _ _)).append blank).append
    (pair _ _)).append blank).append (pair _ _)

theorem leafTags_clean (ox oy : Float32) (s : Shape Float32) :
    ∀ t ∈ leafTags config ox oy s, t.Clean := by
  cases s with
  | point q =>
    rw [leafTags]
    split
    · exact fun t mem => absurd mem List.not_mem_nil
    · refine List.forall_mem_singleton.2 (Tag.clean_single (by decide) (by decide) (by simp) ?_)
      exact .cons (by decide) (plain_number _) <| .cons (by decide) (plain_number _) <|
        .cons (by decide) (by decide) <| .cons (by decide) (by decide) .nil
  | rect o =>
    exact List.forall_mem_singleton.2 <| Tag.clean_single (by decide) (by decide)
      (by simp [boxAttributes]) ((PlainAttributes.box _ _ _ _).append (.bag _))
  | frame o =>
    exact List.forall_mem_singleton.2 <| Tag.clean_single (by decide) (by decide)
      (by simp [boxAttributes]) ((PlainAttributes.box _ _ _ _).append (.bag _))
  | diamond o =>
    exact List.forall_mem_singleton.2 <| Tag.clean_single (by decide) (by decide)
      (List.cons_ne_nil _ _) (.cons (by decide) (plain_cornerText _ _ _ _) (.bag _))
  | path p =>
    refine List.forall_mem_singleton.2 <| Tag.clean_single (by decide) (by decide)
      (by simp) (.cons (by decide) (plain_pathText _ _ _) (.append (.bag _) ?_))
    split
    · exact .cons (by decide) (by decide) .nil
    · exact .nil
  | text t =>
    refine List.forall_mem_cons.2 ⟨?_, List.forall_mem_singleton.2 ?_⟩
    · refine Tag.clean_start (by decide) (by decide) (by decide) ?_ (plain_escape _)
      refine .append (.append (.cons (by decide) (plain_number _) ?_) (.bag _)) ?_
      · exact .cons (by decide) (plain_number _) <| .cons (by decide) (by decide) .nil
      · exact .cons (by decide) (by decide) .nil
    · exact Tag.clean_start (by decide) (by decide) (by decide) .nil (by decide)
  | group x y children bounds => exact fun t mem => absurd mem List.not_mem_nil

theorem opening_clean (l : Layout Float32) : ∀ t ∈ opening l config, t.Clean := by
  have closed (name : String) (hname : Plain ("/" ++ name)) (oneWord : ' ' ∉ ("/" ++ name).toList)
      (last : ("/" ++ name).toList.getLast? ≠ some '/') : (Tag.stop name).Clean :=
    Tag.clean_start hname oneWord last .nil (by decide)
  unfold opening
  simp only [List.forall_mem_cons]
  refine ⟨?_, ?_, ?_, ?_, ?_, ?_, ?_, fun t mem => absurd mem List.not_mem_nil⟩
  · refine Tag.clean_start (by decide) (by decide) (by decide) ?_ (by decide)
    refine .cons (by decide) (by decide) <| .cons (by decide) (plain_number _) <|
      .cons (by decide) (plain_number _) <| .cons (by decide) ?_ .nil
    exact (((by decide : Plain "0 0 ").append (plain_number _)).append (by decide)).append
      (plain_number _)
  · exact Tag.clean_single (by decide) (by decide) (by simp) <| .cons (by decide) (by decide) <|
      .cons (by decide) (by decide) <| .cons (by decide) (plain_escape _) .nil
  · exact Tag.clean_start (by decide) (by decide) (by decide) .nil (by decide)
  · refine Tag.clean_start (by decide) (by decide) (by decide) ?_ (by decide)
    exact .cons (by decide) (by decide) <| .cons (by decide) (by decide) <|
      .cons (by decide) (by decide) <| .cons (by decide) (by decide) <|
      .cons (by decide) (by decide) <| .cons (by decide) (plain_bare _) <|
      .cons (by decide) (plain_bare _) <| .cons (by decide) (by decide) .nil
  · exact Tag.clean_single (by decide) (by decide) (by simp) <|
      .cons (by decide) (by decide) (.bag _)
  · exact closed "marker" (by decide) (by decide) (by decide)
  · exact closed "defs" (by decide) (by decide) (by decide)

theorem picture_clean (l : Layout Float32) (config : Config Float32) :
    ∀ t ∈ picture l config, t.Clean := by
  intro t mem
  rw [picture_eq, List.mem_append, List.mem_append, List.mem_flatMap, List.mem_singleton] at mem
  rcases mem with (before | ⟨p, -, drawn⟩) | rfl
  · exact opening_clean l t before
  · exact leafTags_clean p.x p.y p.shape t drawn
  · exact Tag.clean_start (by decide) (by decide) (by decide) .nil (by decide)

/-- The tags of a picture can be read off its text. -/
theorem readTags_render (l : Layout Float32) (config : Config Float32) :
    readTags (render l config) = picture l config :=
  Tag.readTags_join_write (picture_clean l config)

end Flowchart.Svg
