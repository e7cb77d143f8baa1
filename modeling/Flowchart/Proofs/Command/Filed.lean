import Mathlib.Tactic.SplitIfs
import Flowchart.Command.Disk
import Flowchart.Proofs.Command.Numbered
import Flowchart.Proofs.Outcome
/-! Files written into a directory. A name in a directory that a path leads to is written there, and only
there: every other place shows what it showed, and the path leads to the directory still. -/
namespace Flowchart

/-- Whether more names may follow. -/
def Found.isWay : Found → Bool
  | .directory _ => true
  | .file .. | .vacant _ => false

namespace Disk

def withFile (d : Disk) (place : Location) (text : String) : Disk :=
  { d with files := (place, text) :: d.files.filter (·.1 != place) }

variable {d d' : Disk} {place above q : Location} {text directory name : String} {entry : List Char}
  {names : List (List Char)} {found : Found}

theorem text?_withFile :
    (d.withFile place text).text? q = if q = place then some text else d.text? q := by
  unfold text? withFile
  dsimp only
  by_cases eq : q = place
  · subst eq
    rw [List.find?_cons_of_pos (by simp), if_pos rfl]
    rfl
  · rw [List.find?_cons_of_neg (by simpa using Ne.symm eq), List.find?_filter, if_neg eq]
    congr 2
    funext file
    by_cases here : file.1 = q
    · simp [here, eq]
    · simp [here]

theorem hasDirectory_iff : d.hasDirectory q = true ↔
    q <+: d.working ∨ (∃ dir ∈ d.directories, q <+: dir) ∨
      ∃ file ∈ d.files, q <+: file.1 ∧ q.length < file.1.length := by
  simp only [hasDirectory, Bool.or_eq_true, List.any_eq_true, Bool.and_eq_true,
    List.isPrefixOf_iff_prefix, decide_eq_true_eq, or_assoc]

theorem hasDirectory_of_prefix (h : d.hasDirectory place = true) (under : q <+: place) :
    d.hasDirectory q = true := by
  rw [hasDirectory_iff] at h ⊢
  obtain working | ⟨dir, mem, below⟩ | ⟨file, mem, below, shorter⟩ := h
  · exact .inl (under.trans working)
  · exact .inr (.inl ⟨dir, mem, under.trans below⟩)
  · exact .inr (.inr ⟨file, mem, under.trans below, under.length_le.trans_lt shorter⟩)

theorem hasDirectory_withFile (h : d.hasDirectory above = true) :
    (d.withFile (above ++ [entry]) text).hasDirectory q = d.hasDirectory q := by
  rw [Bool.eq_iff_iff]
  constructor
  · intro shown
    obtain working | dir | ⟨file, mem, below, shorter⟩ := hasDirectory_iff.mp shown
    · exact hasDirectory_iff.mpr (.inl working)
    · exact hasDirectory_iff.mpr (.inr (.inl dir))
    · cases mem with
      | head =>
          refine hasDirectory_of_prefix h ((List.prefix_concat_iff.mp below).resolve_left fun eq => ?_)
          exact absurd (congrArg List.length eq) shorter.ne
      | tail _ old =>
          exact hasDirectory_iff.mpr (.inr (.inr ⟨file, (List.mem_filter.mp old).1, below, shorter⟩))
  · intro shown
    rw [hasDirectory_iff] at shown ⊢
    refine shown.imp_right (.imp_right ?_)
    rintro ⟨file, mem, below, shorter⟩
    by_cases eq : file.1 = above ++ [entry]
    · exact ⟨(above ++ [entry], text), List.mem_cons_self, eq ▸ below, eq ▸ shorter⟩
    · exact ⟨file, List.mem_cons_of_mem _ (List.mem_filter.mpr ⟨mem, by simpa using eq⟩), below,
        shorter⟩

theorem look_withFile (h : d.hasDirectory above = true) :
    (d.withFile (above ++ [entry]) text).look q =
      if q = above ++ [entry] then .file q text else d.look q := by
  unfold look
  rw [text?_withFile, hasDirectory_withFile h]
  by_cases eq : q = above ++ [entry]
  · rw [if_pos eq, if_pos eq]
  · rw [if_neg eq, if_neg eq]

theorem look_cases (d : Disk) (q : Location) :
    (∃ text, d.look q = .file q text) ∨ d.look q = .directory q ∨ d.look q = .vacant q := by
  unfold look
  split
  · next text _ => exact .inl ⟨text, rfl⟩
  · split
    · exact .inr (.inl rfl)
    · exact .inr (.inr rfl)

theorem look_eq_directory (way : (d.look q).isWay = true) : d.look q = .directory q := by
  obtain ⟨text, file⟩ | shown | vacant := d.look_cases q
  · rw [file] at way
    cases way
  · exact shown
  · rw [vacant] at way
    cases way

def next (d : Disk) : Found → List Char → Except FileError Found
  | .directory place, name =>
    if FilePath.saysNothing name then .ok (.directory place)
    else if name == ['.', '.'] then .ok (.directory place.dropLast)
    else if isTooLong name then .error .nameTooLong
    else .ok (d.look (place ++ [name]))
  | .file .., _ => .error .notDirectory
  | .vacant _, _ => .error .notFound

theorem follow_eq (d : Disk) (found : Found) (names : List (List Char)) :
    d.follow found names = names.foldlM d.next found := by
  induction names generalizing found with
  | nil =>
      rw [follow]
      rfl
  | cons name rest ih =>
      rw [List.foldlM_cons]
      cases found with
      | file place text => rfl
      | vacant place => rfl
      | directory place =>
          unfold follow next
          dsimp only
          split_ifs <;> first | exact ih _ | rfl

theorem follow_nil (d : Disk) (found : Found) : d.follow found [] = .ok found := by rw [follow]

theorem follow_cons {name : List Char} :
    d.follow found (name :: names) = d.next found name >>= fun further => d.follow further names := by
  simp only [follow_eq, List.foldlM_cons]

theorem follow_append {others : List (List Char)} : d.follow found (names ++ others) =
    d.follow found names >>= fun further => d.follow further others := by
  simp only [follow_eq, List.foldlM_append]

/-- A directory that is found is there. -/
def Shown (d : Disk) : Found → Prop
  | .directory place => d.hasDirectory place = true
  | _ => True

theorem look_shown (d : Disk) (q : Location) : d.Shown (d.look q) := by
  unfold look
  split
  · trivial
  · split
    · assumption
    · trivial

theorem look_ne_directory (h : d.hasDirectory q = false) : d.look q ≠ .directory q := by
  intro shown
  have there := d.look_shown q
  rw [shown] at there
  exact Bool.false_ne_true (h.symm.trans there)

theorem next_shown {further : Found} (h : d.next found entry = .ok further) (shown : d.Shown found) :
    d.Shown further := by
  cases found with
  | file place text => cases h
  | vacant place => cases h
  | directory place =>
      unfold next at h
      dsimp only at h
      split_ifs at h <;> cases h
      · exact shown
      · exact hasDirectory_of_prefix shown (List.dropLast_prefix place)
      · exact d.look_shown _

theorem follow_shown {further : Found} (h : d.follow found names = .ok further)
    (shown : d.Shown found) : d.Shown further := by
  induction names generalizing found with
  | nil =>
      rw [follow] at h
      cases h
      exact shown
  | cons name rest ih =>
      rw [follow_cons] at h
      obtain ⟨mid, first, later⟩ := exists_of_bind_eq_ok h
      exact ih later (next_shown first shown)

theorem isWay_of_follow (h : d.follow found names = .ok (.directory place)) :
    Found.isWay found = true := by
  cases found with
  | directory place => rfl
  | file q text => cases names <;> cases h
  | vacant q => cases names <;> cases h

theorem next_stays (stay : ∀ q, d.look q = .directory q → d'.look q = .directory q) {further : Found}
    (h : d.next found entry = .ok further) (way : Found.isWay further = true) :
    d'.next found entry = .ok further := by
  cases found with
  | file place text => cases h
  | vacant place => cases h
  | directory place =>
      unfold next at h ⊢
      dsimp only at h ⊢
      split_ifs at h ⊢ <;> try exact h
      cases h
      rw [stay _ (look_eq_directory way), look_eq_directory way]

/-- A way to a directory stays one where directories stay. -/
theorem follow_stays (stay : ∀ q, d.look q = .directory q → d'.look q = .directory q)
    (h : d.follow found names = .ok (.directory place)) :
    d'.follow found names = .ok (.directory place) := by
  induction names generalizing found with
  | nil => rwa [follow] at h ⊢
  | cons name rest ih =>
      rw [follow_cons] at h ⊢
      obtain ⟨mid, first, later⟩ := exists_of_bind_eq_ok h
      exact bind_eq_ok (next_stays stay first (isWay_of_follow later)) (ih later)

/-- A path leads to a directory; the empty path leads to the working directory when a name is joined
to it. -/
def Leads (d : Disk) (directory : String) (place : Location) : Prop :=
  directory = "" ∧ place = d.working ∨ d.find directory = .ok (.directory place)

/-- A name can be that of a file in a directory: neither the name nor its path is too long, and the
name is not that of a directory. -/
structure Admits (d : Disk) (directory : String) (place : Location) (name : String) : Prop where
  short : name.utf8ByteSize ≤ 255
  reachable : (FilePath.join directory name).utf8ByteSize ≤ 4095
  free : d.look (place ++ [name.toList]) ≠ .directory (place ++ [name.toList])

theorem hasDirectory_working (d : Disk) : d.hasDirectory d.working = true :=
  hasDirectory_iff.mpr (.inl List.prefix_rfl)

theorem hasDirectory_start (d : Disk) (path : String) : d.hasDirectory (d.start path) = true := by
  unfold start
  split
  · exact hasDirectory_iff.mpr (.inl List.nil_prefix)
  · exact d.hasDirectory_working

theorem follow_of_find (h : d.find directory = .ok (.directory place)) :
    directory ≠ "" ∧ d.follow (.directory (d.start directory)) (FilePath.parts directory) =
      .ok (.directory place) := by
  unfold find walk at h
  split_ifs at h with empty long
  exact ⟨mt String.isEmpty_iff.mpr empty, h⟩

theorem follow_silent_last (h : d.follow found (names ++ [[]]) = .ok (.directory place)) :
    d.follow found names = .ok (.directory place) := by
  rw [follow_append] at h
  obtain ⟨mid, first, last⟩ := exists_of_bind_eq_ok h
  rw [first]
  cases mid <;> cases last
  rfl

theorem Leads.hasDirectory (h : d.Leads directory place) : d.hasDirectory place = true := by
  obtain ⟨-, rfl⟩ | found := h
  · exact d.hasDirectory_working
  · exact follow_shown (follow_of_find found).2 (d.hasDirectory_start directory)

/-- The names of a joined path lead to the directory, and the last one is the name. -/
theorem Leads.way (h : d.Leads directory place) (proper : FilePath.Proper name.toList) :
    ∃ before, FilePath.parts (FilePath.join directory name) = before ++ [name.toList] ∧
      d.follow (.directory (d.start (FilePath.join directory name))) before =
        .ok (.directory place) := by
  obtain ⟨rfl, rfl⟩ | found := h
  · rw [FilePath.join_empty]
    have relative : FilePath.isAbsolute name = false :=
      beq_eq_false_iff_ne.mpr fun head => proper.slash (List.mem_of_head? head)
    refine ⟨[], Text.split_of_not_mem proper.slash, ?_⟩
    rw [start, relative, if_neg Bool.false_ne_true, follow_nil]
  · obtain ⟨ne, way⟩ := follow_of_find found
    obtain ⟨before, parts, same | same⟩ := FilePath.parts_join ne proper.slash
    · refine ⟨before, parts, ?_⟩
      rw [start, FilePath.isAbsolute_join ne, ← same]
      exact way
    · refine ⟨before, parts, ?_⟩
      rw [start, FilePath.isAbsolute_join ne]
      rw [same] at way
      exact follow_silent_last way

theorem namesToWrite_of_parts {path : String} {before : List (List Char)} {last : List Char}
    (parts : FilePath.parts path = before ++ [last]) (ne : last ≠ []) :
    namesToWrite path = before ++ [last] := by
  unfold namesToWrite
  dsimp only
  rw [parts, List.reverse_append]
  cases last with
  | nil => exact absurd rfl ne
  | cons c rest => rfl

theorem next_proper (proper : FilePath.Proper entry) : d.next (.directory place) entry =
    if isTooLong entry then .error .nameTooLong else .ok (d.look (place ++ [entry])) := by
  unfold next
  dsimp only
  rw [proper.spoken, if_neg Bool.false_ne_true, if_neg (by simpa using proper.up)]

theorem walk_too_long {path : String} (filled : path ≠ "") (long : 4095 < path.utf8ByteSize) :
    d.walk path names = .error .nameTooLong := by
  rw [Disk.walk, if_neg (mt String.isEmpty_iff.mp filled), if_pos long]

theorem Leads.walk (h : d.Leads directory place) (proper : FilePath.Proper name.toList)
    (reachable : (FilePath.join directory name).utf8ByteSize ≤ 4095) :
    d.walk (FilePath.join directory name) (namesToWrite (FilePath.join directory name)) =
      if isTooLong name.toList then .error .nameTooLong
      else .ok (d.look (place ++ [name.toList])) := by
  obtain ⟨before, parts, way⟩ := h.way proper
  have filled : (FilePath.join directory name).isEmpty = false :=
    String.isEmpty_eq_false_iff.mpr (FilePath.join_ne_empty proper.string_ne)
  rw [Disk.walk, filled, if_neg Bool.false_ne_true, if_neg (by omega),
    namesToWrite_of_parts parts proper.ne_nil]
  rw [follow_append, way]
  change d.follow (.directory place) [name.toList] = _
  rw [follow_cons, next_proper proper]
  split
  · rfl
  · exact d.follow_nil _

theorem Leads.write (h : d.Leads directory place) (proper : FilePath.Proper name.toList)
    (admits : d.Admits directory place name) (text : String) :
    d.write (FilePath.join directory name) text =
      .ok (d.withFile (place ++ [name.toList]) text) := by
  have short : isTooLong name.toList = false := by
    rw [isTooLong, String.ofList_toList, decide_eq_false_iff_not]
    exact Nat.not_lt.mpr admits.short
  rw [Disk.write, h.walk proper admits.reachable, short, if_neg Bool.false_ne_true]
  obtain ⟨old, shown⟩ | shown | shown := d.look_cases (place ++ [name.toList])
  · rw [shown]
    rfl
  · exact absurd shown admits.free
  · rw [shown]
    rfl

/-- A file outside the working directory. -/
example : (write { files := [], directories := [["out".toList]], working := ["home".toList] }
    "/out/chart" "a").toOption.map files = some [(["out".toList, "chart".toList], "a")] := by cbv

theorem look_withFile_of_ne (h : d.hasDirectory place = true) (ne : q ≠ place ++ [entry]) :
    (d.withFile (place ++ [entry]) text).look q = d.look q := by
  rw [look_withFile h, if_neg ne]

theorem Leads.withFile (h : d.Leads directory place)
    (free : d.look (place ++ [entry]) ≠ .directory (place ++ [entry])) :
    (d.withFile (place ++ [entry]) text).Leads directory place := by
  refine h.imp_right fun found => ?_
  have stay : ∀ q, d.look q = .directory q →
      (d.withFile (place ++ [entry]) text).look q = .directory q := by
    intro q shown
    rw [look_withFile_of_ne h.hasDirectory fun eq => free (eq ▸ shown)]
    exact shown
  unfold find Disk.walk at found ⊢
  split_ifs at found ⊢
  exact follow_stays stay found

theorem Admits.withFile (h : d.Admits directory place name) (shown : d.hasDirectory place = true)
    (ne : name.toList ≠ entry) :
    (d.withFile (place ++ [entry]) text).Admits directory place name := by
  refine ⟨h.short, h.reachable, ?_⟩
  rw [look_withFile_of_ne shown (by simpa using ne)]
  exact h.free

def withFiles (d : Disk) (place : Location) (files : List (String × String)) : Disk :=
  files.foldl (fun d file => d.withFile (place ++ [file.1.toList]) file.2) d

theorem withFiles_directories (d : Disk) (place : Location) (files : List (String × String)) :
    (d.withFiles place files).directories = d.directories := by
  induction files generalizing d with
  | nil => rfl
  | cons file rest ih => exact ih (d.withFile _ file.2)

theorem text?_withFiles_of_ne {files : List (String × String)}
    (other : ∀ file ∈ files, q ≠ place ++ [file.1.toList]) :
    (d.withFiles place files).text? q = d.text? q := by
  induction files generalizing d with
  | nil => rfl
  | cons file rest ih =>
      rw [List.forall_mem_cons] at other
      refine (ih other.2).trans ?_
      rw [text?_withFile, if_neg other.1]

theorem text?_withFiles (d : Disk) (place : Location) {files : List (String × String)}
    (distinct : (files.map Prod.fst).Nodup)
    {file : String × String} (mem : file ∈ files) :
    (d.withFiles place files).text? (place ++ [file.1.toList]) = some file.2 := by
  induction files generalizing d with
  | nil => cases mem
  | cons first rest ih =>
      rw [List.map_cons, List.nodup_cons] at distinct
      cases mem with
      | head =>
          have kept : ∀ later ∈ rest, place ++ [file.1.toList] ≠ place ++ [later.1.toList] := by
            intro later mem eq
            have same : file.1 = later.1 := String.toList_injective (by simpa using eq)
            exact distinct.1 (same ▸ List.mem_map_of_mem mem)
          change (withFiles (d.withFile _ file.2) place rest).text? _ = _
          rw [text?_withFiles_of_ne kept, text?_withFile, if_pos rfl]
      | tail _ later => exact ih (d.withFile _ first.2) distinct.2 later

end Disk
end Flowchart
