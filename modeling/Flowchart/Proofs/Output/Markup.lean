import Mathlib
import Flowchart.Output.Svg
/-! Reading markup. A tag begins at `<` and ends at the next `>`, an attribute value stands between two
quotes. Tags whose names, values and texts hold none of these characters are read back from a text as
they were written. -/
namespace Flowchart.Svg

def isMark (c : Char) : Bool := c == '<' || c == '>' || c == '"' || c == '\''

/-- A text that cannot be taken for markup. -/
def Plain (s : String) : Prop := ∀ c ∈ s.toList, isMark c = false

instance (s : String) : Decidable (Plain s) :=
  List.decidableBAll (fun c => isMark c = false) s.toList

theorem Plain.not_mem {s : String} (h : Plain s) {mark : Char} (isMark : isMark mark = true) :
    mark ∉ s.toList := fun mem => by
  rw [h mark mem] at isMark
  exact nomatch isMark

theorem Plain.append {s t : String} (hs : Plain s) (ht : Plain t) : Plain (s ++ t) := by
  intro c mem
  rw [String.toList_append, List.mem_append] at mem
  exact mem.elim (hs c) (ht c)

theorem Plain.join {parts : List String} (h : ∀ s ∈ parts, Plain s) : Plain (String.join parts) := by
  intro c mem
  rw [String.toList_join, List.mem_flatMap] at mem
  obtain ⟨s, hs, mem⟩ := mem
  exact h s hs c mem

def readAttributes : List (List Char) → List (String × String)
  | name :: value :: rest => (.ofList name.tail.dropLast, .ofList value) :: readAttributes rest
  | _ => []

def readTag (piece : List Char) : Tag :=
  let head := piece.takeWhile (· != '>')
  { name := .ofList (head.takeWhile (· != ' '))
    attributes := readAttributes ((head.dropWhile (· != ' ')).splitOn '"')
    isSingle := head.getLast? == some '/'
    content := .ofList (piece.dropWhile (· != '>')).tail }

/-- The tags of a text, each with what follows it. -/
def readTags (text : String) : List Tag := (text.toList.splitOn '<').tail.map readTag

namespace Tag

structure Clean (t : Tag) : Prop where
  name : Plain t.name
  oneWord : ' ' ∉ t.name.toList
  attributes : ∀ a ∈ t.attributes, Plain a.1 ∧ Plain a.2
  content : Plain t.content
  /-- A tag without attributes has no slash at its end. -/
  bare : t.attributes = [] → t.isSingle = false ∧ t.name.toList.getLast? ≠ some '/'

def quoted (attributes : List (String × String)) : List (List Char) :=
  attributes.flatMap fun a => [' ' :: a.1.toList ++ ['='], a.2.toList]

def tail (t : Tag) : List Char := if t.isSingle then ['/'] else []

def inner (t : Tag) : List Char := ['"'].intercalate (quoted t.attributes ++ [t.tail])

def piece (t : Tag) : List Char := t.name.toList ++ t.inner ++ '>' :: t.content.toList

theorem intercalate_quoted (attributes : List (String × String)) (last : List Char) :
    ['"'].intercalate (quoted attributes ++ [last])
      = attributes.flatMap (fun a => (attr a.1 a.2).toList) ++ last := by
  induction attributes with
  | nil => simp [quoted, List.intercalate]
  | cons a rest ih =>
    have parts : quoted (a :: rest) ++ [last]
        = (' ' :: a.1.toList ++ ['=']) :: a.2.toList :: (quoted rest ++ [last]) := rfl
    have more : quoted rest ++ [last] ≠ [] := by simp
    rw [parts, List.intercalate_cons_of_ne_nil (by simp), List.intercalate_cons_of_ne_nil more, ih]
    simp [attr]

theorem toList_write (t : Tag) : t.write.toList = '<' :: t.piece := by
  have ending : (if t.isSingle then "/>" else ">").toList = t.tail ++ ['>'] := by
    unfold tail
    split <;> rfl
  simp only [write, piece, inner, intercalate_quoted, String.toList_append, String.toList_join,
    List.flatMap_map, ending]
  simp

theorem intercalate_pieces (pieces : List (List Char)) :
    ['<'].intercalate ([] :: pieces) = pieces.flatMap ('<' :: ·) := by
  induction pieces with
  | nil => rfl
  | cons p rest ih =>
    rw [List.intercalate_cons_of_ne_nil (List.cons_ne_nil _ _), List.flatMap_cons, ← ih]
    cases rest with
    | nil => simp [List.intercalate]
    | cons q rest => simp [List.intercalate_cons_of_ne_nil]

theorem toList_join_write (tags : List Tag) :
    (String.join (tags.map write)).toList = ['<'].intercalate ([] :: tags.map piece) := by
  rw [String.toList_join, intercalate_pieces, List.flatMap_map, List.flatMap_map]
  exact List.flatMap_congr fun t _ => toList_write t

namespace Clean
variable {t : Tag}

theorem inner_eq (t : Tag) :
    t.inner = t.attributes.flatMap (fun a => (attr a.1 a.2).toList) ++ t.tail :=
  intercalate_quoted _ _

theorem not_mem_inner (h : t.Clean) {mark : Char} (isMark : isMark mark = true)
    (noQuote : mark ≠ '"') : mark ∉ t.inner := by
  have others : mark ≠ ' ' ∧ mark ≠ '=' ∧ mark ≠ '/' := by
    refine ⟨?_, ?_, ?_⟩ <;> rintro rfl <;> exact absurd isMark (by decide)
  rw [inner_eq]
  simp only [List.mem_append, List.mem_flatMap, not_or, not_exists, not_and]
  refine ⟨fun a mem => ?_, ?_⟩
  · have name := (h.attributes a mem).1.not_mem isMark
    have value := (h.attributes a mem).2.not_mem isMark
    simp [attr, name, value, others, noQuote]
  · unfold tail
    split <;> simp [others]

theorem not_mem_quoted (h : t.Clean) : ∀ part ∈ quoted t.attributes ++ [t.tail], '"' ∉ part := by
  intro part mem
  rw [List.mem_append, quoted, List.mem_flatMap, List.mem_singleton] at mem
  rcases mem with ⟨a, ha, mem⟩ | rfl
  · have name := (h.attributes a ha).1.not_mem (show isMark '"' = true by decide)
    have value := (h.attributes a ha).2.not_mem (show isMark '"' = true by decide)
    rcases List.mem_pair.1 mem with rfl | rfl
    · simp [name]
    · exact value
  · unfold tail
    split <;> decide

theorem readAttributes_quoted (attributes : List (String × String)) (last : List Char) :
    readAttributes (quoted attributes ++ [last]) = attributes := by
  induction attributes with
  | nil => rfl
  | cons a rest ih =>
    have parts : quoted (a :: rest) ++ [last]
        = (' ' :: a.1.toList ++ ['=']) :: a.2.toList :: (quoted rest ++ [last]) := rfl
    rw [parts, readAttributes, ih]
    simp

theorem inner_cases (h : t.Clean) :
    (∃ rest, t.inner = ' ' :: rest) ∨ t.inner = [] ∧ t.isSingle = false := by
  cases attributes : t.attributes with
  | nil =>
    have bare := h.bare attributes
    refine .inr ⟨?_, bare.1⟩
    simp [inner_eq, attributes, tail, bare.1]
  | cons a rest => exact .inl ⟨_, by rw [inner_eq, attributes]; simp [attr]; rfl⟩

theorem takeWhile_name (h : t.Clean) :
    (t.name.toList ++ t.inner).takeWhile (· != ' ') = t.name.toList := by
  have letters : ∀ c ∈ t.name.toList, (c != ' ') = true := fun c mem =>
    bne_iff_ne.2 fun blank => h.oneWord (blank ▸ mem)
  rw [List.takeWhile_append_of_pos letters]
  rcases h.inner_cases with ⟨rest, begins⟩ | ⟨empty, -⟩
  · rw [begins, List.takeWhile_cons_of_neg (by simp), List.append_nil]
  · rw [empty, List.takeWhile_nil, List.append_nil]

theorem dropWhile_name (h : t.Clean) :
    (t.name.toList ++ t.inner).dropWhile (· != ' ') = t.inner := by
  have letters : ∀ c ∈ t.name.toList, (c != ' ') = true := fun c mem =>
    bne_iff_ne.2 fun blank => h.oneWord (blank ▸ mem)
  rw [List.dropWhile_append_of_pos letters]
  rcases h.inner_cases with ⟨rest, begins⟩ | ⟨empty, -⟩
  · rw [begins, List.dropWhile_cons_of_neg (by simp)]
  · rw [empty, List.dropWhile_nil]

theorem getLast?_head (h : t.Clean) :
    ((t.name.toList ++ t.inner).getLast? == some '/') = t.isSingle := by
  rcases List.eq_nil_or_concat' t.attributes with none | ⟨before, a, some⟩
  · obtain ⟨notSingle, last⟩ := h.bare none
    simp [inner_eq, none, tail, notSingle, last]
  · rw [inner_eq, some, tail]
    cases t.isSingle <;> simp [attr, List.getLast?_cons]

theorem readTag_piece (h : t.Clean) : readTag t.piece = t := by
  have inside : ∀ c ∈ t.name.toList ++ t.inner, (c != '>') = true := fun c mem => by
    refine bne_iff_ne.2 ?_
    rintro rfl
    exact (List.mem_append.1 mem).elim (h.name.not_mem (by decide))
      (h.not_mem_inner (by decide) (by decide))
  have head : t.piece.takeWhile (· != '>') = t.name.toList ++ t.inner := by
    rw [piece, List.takeWhile_append_of_pos inside, List.takeWhile_cons_of_neg (by simp),
      List.append_nil]
  have rest : t.piece.dropWhile (· != '>') = '>' :: t.content.toList := by
    rw [piece, List.dropWhile_append_of_pos inside, List.dropWhile_cons_of_neg (by simp)]
  have attributes : readAttributes (t.inner.splitOn '"') = t.attributes := by
    rw [inner, List.splitOn_intercalate _ h.not_mem_quoted (by simp), readAttributes_quoted]
  simp only [readTag, head, rest, h.takeWhile_name, h.dropWhile_name, h.getLast?_head, attributes,
    List.tail_cons, String.ofList_toList]

end Clean

/-- What is written from clean tags is read back. -/
theorem readTags_join_write {tags : List Tag} (h : ∀ t ∈ tags, t.Clean) :
    readTags (String.join (tags.map write)) = tags := by
  have pieces : ∀ part ∈ [] :: tags.map piece, '<' ∉ part := by
    intro part mem
    rcases List.mem_cons.1 mem with rfl | mem
    · exact List.not_mem_nil
    · obtain ⟨t, ht, rfl⟩ := List.mem_map.1 mem
      have clean := h t ht
      simp [piece, clean.name.not_mem (show isMark '<' = true by decide),
        clean.not_mem_inner (show isMark '<' = true by decide) (by decide),
        clean.content.not_mem (show isMark '<' = true by decide)]
  rw [readTags, toList_join_write, List.splitOn_intercalate _ pieces (by simp), List.tail_cons,
    List.map_map]
  calc tags.map (readTag ∘ piece) = tags.map id :=
        List.map_congr_left fun t ht => (h t ht).readTag_piece
    _ = tags := List.map_id tags

end Tag
end Flowchart.Svg
