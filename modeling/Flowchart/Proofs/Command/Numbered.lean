import Mathlib.Data.List.Nodup
import Mathlib.Data.List.Range
import Flowchart.Command.FilePath
import Flowchart.Proofs.Text.Split
/-! Numbered paths. The paths for several outputs are names in one directory, no two of them are equal,
and each is a name that a file can have: it holds no slash and is no dot. -/
namespace Flowchart.FilePath

/-- What the name of a file or directory may be. -/
structure Proper (name : List Char) : Prop where
  slash : '/' ∉ name
  spoken : saysNothing name = false
  up : name ≠ ['.', '.']

theorem Proper.ne_nil {name : List Char} (h : Proper name) : name ≠ [] := by
  intro nil
  have spoken := h.spoken
  rw [nil] at spoken
  cases spoken

theorem Proper.string_ne {name : String} (h : Proper name.toList) : name ≠ "" :=
  fun empty => h.ne_nil (String.toList_eq_nil_iff.mpr empty)

variable {directory name : String}

theorem head?_append_of_ne_nil {s t : List Char} (ne : s ≠ []) : (s ++ t).head? = s.head? := by
  cases s with
  | nil => exact absurd rfl ne
  | cons c rest => rfl

theorem join_empty (name : String) : join "" name = name := if_pos (String.isEmpty_iff.mpr rfl)

theorem join_eq (ne : directory ≠ "") : ∃ before, (∀ name, join directory name = before ++ name) ∧
    before.toList.head? = directory.toList.head? ∧
    ((∃ ys, directory.toList = ys ++ ['/'] ∧ before.toList = ys ++ ['/']) ∨
      before.toList = directory.toList ++ ['/']) := by
  have filled : directory.isEmpty = false := String.isEmpty_eq_false_iff.mpr ne
  by_cases ends : directory.toList.getLast? = some '/'
  · obtain ⟨ys, eq⟩ := List.getLast?_eq_some_iff.mp ends
    refine ⟨directory, fun name => ?_, rfl, .inl ⟨ys, eq, eq⟩⟩
    rw [join, filled, if_neg Bool.false_ne_true, if_pos ends]
  · refine ⟨directory ++ "/", fun name => ?_, ?_, .inr String.toList_append⟩
    · rw [join, filled, if_neg Bool.false_ne_true, if_neg ends]
    · have nonempty : directory.toList ≠ [] := fun eq => ne (String.toList_eq_nil_iff.mp eq)
      rw [String.toList_append, head?_append_of_ne_nil nonempty]

theorem join_inj {other : String} : join directory name = join directory other ↔ name = other := by
  by_cases empty : directory = ""
  · rw [empty, join_empty, join_empty]
  · obtain ⟨before, eq, -⟩ := join_eq empty
    rw [eq, eq, String.append_right_inj]

theorem parts_join (ne : directory ≠ "") (h : '/' ∉ name.toList) :
    ∃ before, parts (join directory name) = before ++ [name.toList] ∧
      (parts directory = before ∨ parts directory = before ++ [[]]) := by
  obtain ⟨before, eq, -, ⟨ys, ends, same⟩ | same⟩ := join_eq ne
  · refine ⟨Text.split '/' ys, ?_, .inr ?_⟩
    · rw [parts, eq, String.toList_append, same, List.append_assoc]
      exact (Text.split_append '/' ys name.toList).trans (by rw [Text.split_of_not_mem h])
    · rw [parts, ends]
      exact Text.split_append '/' ys []
  · refine ⟨parts directory, ?_, .inl rfl⟩
    rw [parts, eq, String.toList_append, same, List.append_assoc]
    exact (Text.split_append '/' directory.toList name.toList).trans
      (by rw [Text.split_of_not_mem h]; rfl)

theorem isAbsolute_join (ne : directory ≠ "") : isAbsolute (join directory name) = isAbsolute directory := by
  obtain ⟨before, eq, head, -⟩ := join_eq ne
  have nonempty : before.toList ≠ [] := by
    intro nil
    rw [nil] at head
    exact ne (String.toList_eq_nil_iff.mp (List.head?_eq_none_iff.mp head.symm))
  rw [isAbsolute, eq, String.toList_append, head?_append_of_ne_nil nonempty, head]
  rfl

theorem join_ne_empty (h : name ≠ "") : join directory name ≠ "" := by
  by_cases empty : directory = ""
  · rwa [empty, join_empty]
  · obtain ⟨before, eq, -⟩ := join_eq empty
    rw [eq]
    exact fun nil => h (String.append_eq_empty_iff.mp nil).2

theorem mem_of_mem_dropSilent {part : List Char} {found : List (List Char)}
    (h : part ∈ dropSilent found) : part ∈ found := by
  induction found with
  | nil => exact h
  | cons last before ih =>
      cases before with
      | nil => exact h
      | cons next rest =>
          unfold dropSilent at h
          split at h
          · exact List.mem_cons_of_mem _ (ih h)
          · exact h

theorem slash_not_mem_fileName {path : String} {name : List Char} (h : fileName? path = some name) :
    '/' ∉ name := by
  have found : name ∈ spine path := by
    unfold fileName? at h
    split at h
    · cases h
    · next last rest eq =>
        split at h
        · cases h
        · cases h
          rw [eq]
          exact List.mem_cons_self
  exact Text.not_mem_of_mem_split (List.mem_reverse.mp (mem_of_mem_dropSilent found))

theorem slash_not_mem_stem {path stem : String} (h : stem? path = some stem) :
    '/' ∉ stem.toList := by
  obtain ⟨name, found, rfl⟩ := Option.map_eq_some_iff.mp h
  rw [String.toList_ofList]
  intro mem
  refine slash_not_mem_fileName found ?_
  unfold splitName at mem
  dsimp only at mem
  split at mem
  · exact mem
  · exact List.mem_of_mem_take mem

def numberedName (stem extension : String) (i : Nat) : String :=
  stem ++ s!"-{i + 1}." ++ extension

theorem toList_numberedName (stem extension : String) (i : Nat) :
    (numberedName stem extension i).toList =
      stem.toList ++ '-' :: Nat.toDigits 10 (i + 1) ++ '.' :: extension.toList := by
  have dash : "-".toList = ['-'] := rfl
  have point : ".".toList = ['.'] := rfl
  simp only [numberedName, String.toList_append, toString, dash, point, Nat.repr_eq_ofList_toDigits,
    String.toList_ofList]
  simp

theorem numberedName_inj {stem extension : String} {i j : Nat} :
    numberedName stem extension i = numberedName stem extension j ↔ i = j := by
  refine ⟨fun eq => ?_, fun eq => by rw [eq]⟩
  have lists := congrArg String.toList eq
  rw [toList_numberedName, toList_numberedName, List.append_left_inj, List.append_right_inj,
    List.cons_inj_right] at lists
  have numbers := congrArg (Nat.ofDigitChars 10 · 0) lists
  rw [Nat.ofDigitChars_ten_toDigits, Nat.ofDigitChars_ten_toDigits] at numbers
  exact Nat.succ.inj numbers

theorem numberedName_proper {stem extension : String} (hs : '/' ∉ stem.toList)
    (he : '/' ∉ extension.toList) (i : Nat) : Proper (numberedName stem extension i).toList := by
  have digits : '/' ∉ Nat.toDigits 10 (i + 1) := fun mem =>
    absurd (Nat.isDigit_of_mem_toDigits (by decide) (by decide) mem) (by decide)
  have dash : '-' ∈ (numberedName stem extension i).toList := by
    rw [toList_numberedName]
    simp
  refine ⟨?_, ?_, fun dots => by rw [dots] at dash; revert dash; decide⟩
  · rw [toList_numberedName]
    simp [hs, he, digits]
  · rw [saysNothing, Bool.or_eq_false_iff]
    refine ⟨?_, beq_eq_false_iff_ne.mpr fun dot => by rw [dot] at dash; revert dash; decide⟩
    rw [List.isEmpty_eq_false_iff]
    exact List.ne_nil_of_mem dash

/-- The directory of numbered paths: the path itself if that is a directory, else its parent. -/
def batchDirectory (isDirectory : Bool) (base : String) : String :=
  if isDirectory then base else (parent? base).getD "."

def batchName (isDirectory : Bool) (base extension : String) : Nat → String :=
  numberedName (if isDirectory then "flow" else (stem? base).getD "flow") extension

theorem numbered_eq (isDirectory : Bool) (base extension : String) (count : Nat) :
    numbered isDirectory base extension count = ((List.range count).map
      (batchName isDirectory base extension)).map (join (batchDirectory isDirectory base)) := by
  rw [List.map_map]
  rfl

theorem batchName_proper (isDirectory : Bool) (base : String) {extension : String}
    (h : '/' ∉ extension.toList) (i : Nat) :
    Proper (batchName isDirectory base extension i).toList := by
  refine numberedName_proper ?_ h i
  split
  · decide
  · cases found : stem? base with
    | none => decide
    | some stem => exact slash_not_mem_stem found

theorem nodup_batchNames (isDirectory : Bool) (base extension : String) (count : Nat) :
    ((List.range count).map (batchName isDirectory base extension)).Nodup :=
  List.Nodup.map (fun _ _ => numberedName_inj.mp) List.nodup_range

/-- No two numbered paths are equal. -/
theorem nodup_numbered (isDirectory : Bool) (base extension : String) (count : Nat) :
    (numbered isDirectory base extension count).Nodup := by
  rw [numbered_eq]
  exact (nodup_batchNames isDirectory base extension count).map fun _ _ => join_inj.mp

end Flowchart.FilePath
