import Flowchart.Proofs.Command.Filed
import Flowchart.Proofs.Command.Single
/-! A run over the blocks of a Markdown file. It does what the runs over the single blocks do, one after
the other: each writes its own file, up to the first block that does not parse. -/
namespace Flowchart.Command

variable {disk : Disk} {stdin : String} {words : List String} {a : Arguments}
  {config : Config Float32} {measure : Measure Float32} {format : OutputFormat}
  {source text : String}

inductive Rendering (config : Config Float32) (measure : Measure Float32) (source : String) :
    OutputFormat → String → Prop
  | svg {layout} (drawn : Layout.ofSource source config measure = .ok layout) :
      Rendering config measure source .svg (Svg.render layout config)
  | json {layout} (drawn : Layout.ofSource source config measure = .ok layout) :
      Rendering config measure source .json ((layout.dump.document Document.single).pretty 0)
  | ast {program} (parsed : config.lexis.parse source = .ok program) :
      Rendering config measure source .ast ((treeDocument program).pretty 0)

theorem exists_rendering (measure : Measure Float32) {program : Node} (drawable : format ≠ .png)
    (parsed : config.lexis.parse source = .ok program) :
    ∃ text, Rendering config measure source format text := by
  obtain ⟨layout, drawn⟩ :=
    Context.ofProgram_ok config measure (Rules.isProgram_of_parse parsed)
  have whole : Layout.ofSource source config measure = .ok layout := by
    unfold Layout.ofSource
    rw [parsed]
    change (Layout.ofProgram config measure program).mapError _ = _
    rw [drawn]
    rfl
  cases format with
  | png => exact absurd rfl drawable
  | ast => exact ⟨_, .ast parsed⟩
  | svg => exact ⟨_, .svg whole⟩
  | json => exact ⟨_, .json whole⟩

def Emits (config : Config Float32) (measure : Measure Float32) (format : OutputFormat)
    (source text : String) : Prop :=
  ∀ path, deedFor config measure format source (some path) = .ok (.write path text)

theorem emits_of_rendering (rendered : Rendering config measure source format text) :
    Emits config measure format source text := by
  intro path
  unfold deedFor
  cases rendered with
  | ast parsed =>
      rw [parsed]
      rfl
  | svg drawn | json drawn =>
      unfold Layout.ofSource at drawn
      cases parsed : config.lexis.parse source with
      | error e =>
          rw [parsed] at drawn
          cases drawn
      | ok program =>
          rw [parsed] at drawn
          change (Layout.ofProgram config measure program).mapError RenderError.layout = _ at drawn
          change (Layout.ofProgram config measure program).mapError CommandError.layout >>= _ = _
          cases placed : Layout.ofProgram config measure program with
          | error fault =>
              rw [placed] at drawn
              cases drawn
          | ok layout =>
              rw [placed] at drawn
              cases drawn
              rfl

theorem emits_of_parse (measure : Measure Float32) {program : Node} (drawable : format ≠ .png)
    (parsed : config.lexis.parse source = .ok program) :
    ∃ text, Emits config measure format source text := by
  obtain ⟨text, rendered⟩ := exists_rendering measure drawable parsed
  exact ⟨text, emits_of_rendering rendered⟩

theorem deedFor_of_misparse {e : ParseError} (misparsed : config.lexis.parse source = .error e)
    (output : Option String) :
    deedFor config measure format source output = .error (.parse source e) := by
  unfold deedFor
  rw [misparsed]
  rfl

theorem emits_all (measure : Measure Float32) (drawable : format ≠ .png) {sources : List String}
    (parsed : ∀ source ∈ sources, ∃ program, config.lexis.parse source = .ok program) :
    ∃ texts, List.Forall₂ (Emits config measure format) sources texts := by
  induction sources with
  | nil => exact ⟨[], .nil⟩
  | cons source rest ih =>
      rw [List.forall_mem_cons] at parsed
      obtain ⟨program, parsed_first⟩ := parsed.1
      obtain ⟨text, first⟩ := emits_of_parse measure drawable parsed_first
      obtain ⟨texts, others⟩ := ih parsed.2
      exact ⟨text :: texts, .cons first others⟩

/-- Programs that are emitted come first in the plan, each under its own path. -/
theorem deedsFor_append {done texts paths : List String}
    (emits : List.Forall₂ (Emits config measure format) done texts)
    (paired : paths.length = done.length) (rest : List (String × String)) :
    deedsFor config measure format (done.zip paths ++ rest) =
      { deedsFor config measure format rest with
        deeds := (paths.zip texts).map (fun file => Deed.write file.1 file.2) ++
          (deedsFor config measure format rest).deeds } := by
  induction emits generalizing paths with
  | nil =>
      cases paths with
      | nil => rfl
      | cons path paths => cases paired
  | cons first _ ih =>
      cases paths with
      | nil => cases paired
      | cons path paths =>
          rw [List.zip_cons_cons, List.cons_append, deedsFor, first path]
          dsimp only
          rw [ih (Nat.succ.inj paired)]
          rfl

theorem perform_writes {directory : String} {place : Location} {files : List (String × String)}
    (failure : Option CommandError) (printed : String) (leads : disk.Leads directory place)
    (distinct : (files.map Prod.fst).Nodup)
    (proper : ∀ file ∈ files, FilePath.Proper file.1.toList)
    (admits : ∀ file ∈ files, disk.Admits directory place file.1) :
    Outcome.perform failure disk printed
        (files.map fun file => .write (FilePath.join directory file.1) file.2) =
      Outcome.perform failure (disk.withFiles place files) printed [] := by
  induction files generalizing disk with
  | nil => rfl
  | cons file rest ih =>
      rw [List.map_cons, List.nodup_cons] at distinct
      rw [List.forall_mem_cons] at proper admits
      rw [List.map_cons, Outcome.perform, leads.write proper.1 admits.1]
      refine ih (leads.withFile admits.1.free) distinct.2 proper.2 fun later mem => ?_
      refine (admits.2 later mem).withFile leads.hasDirectory fun eq => distinct.1 ?_
      exact String.toList_injective eq ▸ List.mem_map_of_mem mem

/-- The run over one program alone, with a file of its own. -/
def alone (disk : Disk) (a : Arguments) (source target : String) : Outcome :=
  carryOut disk source { a with input := none, output := some target }

variable {path : String}

theorem alone_of_emits (configured : configure ⟨disk.read, disk.isDirectory, stdin⟩ a = .ok config)
    (emits : Emits config (measureFor a config) (a.format.getD .svg) source text) {after : Disk}
    (written : disk.write path text = .ok after) :
    alone disk a source path = ⟨0, "", "", after⟩ := by
  have planned : planFor ⟨disk.read, disk.isDirectory, source⟩
      { a with input := none, output := some path } = .ok ⟨[.write path text], none⟩ :=
    bind_eq_ok configured (bind_eq_ok rfl (bind_eq_ok (emits path) rfl))
  refine (carryOut_of_plan planned).trans ?_
  dsimp only
  rw [Outcome.perform, written]
  rfl

theorem alone_of_misparse
    (configured : configure ⟨disk.read, disk.isDirectory, stdin⟩ a = .ok config) {e : ParseError}
    (misparsed : config.lexis.parse source = .error e) :
    alone disk a source path =
      ⟨1, "", "error: " ++ (CommandError.parse source e).message ++ "\n", disk⟩ := by
  refine carryOut_of_error (e := .parse source e) ?_
  refine (bind_of_ok configured _).trans ((bind_of_ok rfl _).trans ?_)
  change deedFor _ _ _ source (some path) >>= _ = _
  rw [deedFor_of_misparse misparsed]
  rfl

/-- Arguments that ask for several outputs: the blocks of a Markdown file, in a format that can be
written, under a path. -/
structure IsBatch (disk : Disk) (a : Arguments) (blocks : List String) (base : String) : Prop where
  markdown : ∃ path text, a.input = some path ∧ FilePath.isName "-" path = false ∧
    isMarkdown path = true ∧ disk.read path = .ok text ∧ Markdown.blocks text = blocks
  several : 2 ≤ blocks.length
  output : a.output = some base
  drawable : a.format.getD .svg ≠ .png

theorem sources_of_markdown {blocks : List String} (filled : blocks ≠ [])
    (markdown : ∃ path text, a.input = some path ∧ FilePath.isName "-" path = false ∧
      isMarkdown path = true ∧ disk.read path = .ok text ∧ Markdown.blocks text = blocks)
    (stdin : String) : sources ⟨disk.read, disk.isDirectory, stdin⟩ a = .ok blocks := by
  obtain ⟨path, text, input, named, markdown, read, rfl⟩ := markdown
  have filled : (Markdown.blocks text).isEmpty = false := List.isEmpty_eq_false_iff.mpr filled
  unfold sources
  rw [input]
  dsimp only
  rw [named, if_neg Bool.false_ne_true, read]
  change (if isMarkdown path then _ else _) = _
  rw [markdown, if_pos rfl, filled, if_neg Bool.false_ne_true]

theorem IsBatch.sources {blocks : List String} {base : String} (batch : IsBatch disk a blocks base)
    (stdin : String) :
    sources ⟨disk.read, disk.isDirectory, stdin⟩ a = .ok blocks := by
  refine sources_of_markdown (List.ne_nil_of_length_pos ?_) batch.markdown stdin
  have := batch.several
  omega

theorem IsBatch.planFor {blocks : List String} {base : String} (batch : IsBatch disk a blocks base)
    (configured : configure ⟨disk.read, disk.isDirectory, stdin⟩ a = .ok config) :
    planFor ⟨disk.read, disk.isDirectory, stdin⟩ a =
      .ok (deedsFor config (measureFor a config) (a.format.getD .svg)
        (blocks.zip (FilePath.numbered (disk.isDirectory base) base
          (a.format.getD .svg).fileExtension blocks.length))) := by
  have sources := batch.sources stdin
  have several := batch.several
  refine bind_eq_ok configured (bind_eq_ok sources ?_)
  match blocks, several with
  | first :: second :: rest, _ =>
      refine bind_eq_ok (?_ : outputs _ a.output _ _ = _) rfl
      rw [batch.output]
      rfl

def targetDirectory (disk : Disk) (base : String) : String :=
  FilePath.batchDirectory (disk.isDirectory base) base

/-- The names of these outputs. -/
def targetName (disk : Disk) (a : Arguments) (base : String) : Nat → String :=
  FilePath.batchName (disk.isDirectory base) base (a.format.getD .svg).fileExtension

/-- The paths of these outputs. -/
def target (disk : Disk) (a : Arguments) (base : String) (i : Nat) : String :=
  FilePath.join (targetDirectory disk base) (targetName disk a base i)

/-- What lies on the disk after some first programs of a batch: each has its file, with the text that
its run alone writes there, and nothing else has changed. -/
structure Written (disk : Disk) (a : Arguments) (blocks : List String) (base : String)
    (place : Location) (count : Nat) (after : Disk) : Prop where
  own : ∀ i (h : i < blocks.length), i < count → ∃ text,
    alone disk a blocks[i] (target disk a base i) =
      ⟨0, "", "", disk.withFile (place ++ [(targetName disk a base i).toList]) text⟩ ∧
    after.text? (place ++ [(targetName disk a base i).toList]) = some text
  others : ∀ q, (∀ i < count, q ≠ place ++ [(targetName disk a base i).toList]) →
    after.text? q = disk.text? q
  directories : after.directories = disk.directories

variable {blocks : List String} {base : String} {place : Location}

theorem slash_not_mem_fileExtension (format : OutputFormat) : '/' ∉ format.fileExtension.toList := by
  cases format <;> decide

theorem targetName_proper (disk : Disk) (a : Arguments) (base : String) (i : Nat) :
    FilePath.Proper (targetName disk a base i).toList :=
  FilePath.batchName_proper _ _ (slash_not_mem_fileExtension _) i

theorem nodup_targetNames (disk : Disk) (a : Arguments) (base : String) (count : Nat) :
    ((List.range count).map (targetName disk a base)).Nodup :=
  FilePath.nodup_batchNames (disk.isDirectory base) base (a.format.getD .svg).fileExtension count

def files (disk : Disk) (a : Arguments) (base : String) (texts : List String) :
    List (String × String) :=
  ((List.range texts.length).map (targetName disk a base)).zip texts

theorem files_names (disk : Disk) (a : Arguments) (base : String) (texts : List String) :
    (files disk a base texts).map Prod.fst =
      (List.range texts.length).map (targetName disk a base) :=
  List.map_fst_zip (by simp)

theorem nodup_files (disk : Disk) (a : Arguments) (base : String) (texts : List String) :
    ((files disk a base texts).map Prod.fst).Nodup := by
  rw [files_names]
  exact nodup_targetNames disk a base texts.length

theorem forall_mem_files {texts : List String} (p : String → Prop)
    (h : ∀ i < texts.length, p (targetName disk a base i)) :
    ∀ file ∈ files disk a base texts, p file.1 := by
  intro file mem
  have named : file.1 ∈ (files disk a base texts).map Prod.fst := List.mem_map_of_mem mem
  rw [files_names] at named
  obtain ⟨i, inside, named⟩ := List.mem_map.mp named
  exact named ▸ h i (List.mem_range.mp inside)

theorem mem_files {texts : List String} {i : Nat} (h : i < texts.length) :
    (targetName disk a base i, texts[i]) ∈ files disk a base texts := by
  refine List.mem_iff_getElem.mpr ⟨i, by simpa [files] using h, ?_⟩
  simp [files]

theorem written_of_emits {texts : List String} {count : Nat}
    (configured : configure ⟨disk.read, disk.isDirectory, stdin⟩ a = .ok config)
    (leads : disk.Leads (targetDirectory disk base) place)
    (admits : ∀ i < blocks.length,
      disk.Admits (targetDirectory disk base) place (targetName disk a base i))
    (counted : texts.length = count)
    (emits : List.Forall₂ (Emits config (measureFor a config) (a.format.getD .svg))
      (blocks.take count) texts) :
    Written disk a blocks base place count (disk.withFiles place (files disk a base texts)) where
  own i h within := by
    have inside : i < texts.length := counted ▸ within
    have emitted : Emits config (measureFor a config) (a.format.getD .svg) blocks[i] texts[i] := by
      simpa using emits.get (i := i) (by simp [within, h]) inside
    have written := leads.write (targetName_proper disk a base i) (admits i h) texts[i]
    have shown := disk.text?_withFiles place (nodup_files disk a base texts) (mem_files inside)
    exact ⟨texts[i], alone_of_emits configured emitted written, shown⟩
  others q other := Disk.text?_withFiles_of_ne <|
    forall_mem_files (fun name => q ≠ place ++ [name.toList]) fun i inside =>
      other i (counted ▸ inside)
  directories := disk.withFiles_directories place _

theorem zip_targets (disk : Disk) (a : Arguments) (base : String) {count : Nat}
    (within : count ≤ blocks.length) :
    blocks.zip ((List.range blocks.length).map (target disk a base)) =
      (blocks.take count).zip (((List.range count).map (targetName disk a base)).map
        (FilePath.join (targetDirectory disk base))) ++
      (blocks.drop count).zip
        (((List.range blocks.length).map (target disk a base)).drop count) := by
  have names : ((List.range blocks.length).map (target disk a base)).take count =
      ((List.range count).map (targetName disk a base)).map
        (FilePath.join (targetDirectory disk base)) := by
    rw [← List.map_take, List.take_range, min_eq_left within, List.map_map]
    rfl
  rw [← names, ← List.zip_append (by simp), List.take_append_drop, List.take_append_drop]

/-- If the plan stops after some first programs that parse, exactly these have been written. -/
theorem carryOut_batch {count : Nat} {failure : Option CommandError}
    (batch : IsBatch disk a blocks base)
    (configured : configure ⟨disk.read, disk.isDirectory, stdin⟩ a = .ok config)
    (leads : disk.Leads (targetDirectory disk base) place)
    (admits : ∀ i < blocks.length,
      disk.Admits (targetDirectory disk base) place (targetName disk a base i))
    (within : count ≤ blocks.length)
    (parsed : ∀ block ∈ blocks.take count, ∃ program, config.lexis.parse block = .ok program)
    (stops : deedsFor config (measureFor a config) (a.format.getD .svg)
      ((blocks.drop count).zip
        (((List.range blocks.length).map (target disk a base)).drop count)) = ⟨[], failure⟩) :
    ∃ after, carryOut disk stdin a = Outcome.perform failure after "" [] ∧
      Written disk a blocks base place count after := by
  obtain ⟨texts, emits⟩ := emits_all (measureFor a config) batch.drawable parsed
  have counted : texts.length = count := by
    rw [← emits.length_eq, List.length_take, min_eq_left within]
  refine ⟨_, ?_, written_of_emits configured leads admits counted emits⟩
  have deeds : deedsFor config (measureFor a config) (a.format.getD .svg)
      (blocks.zip ((List.range blocks.length).map (target disk a base))) =
      ⟨(files disk a base texts).map fun file => .write
        (FilePath.join (targetDirectory disk base) file.1) file.2, failure⟩ := by
    rw [zip_targets disk a base within, deedsFor_append emits (by simp [within]), stops, files,
      counted, List.zip_map_left]
    simp
  rw [carryOut_of_plan ((batch.planFor configured).trans (congrArg Except.ok deeds))]
  refine perform_writes failure "" leads (nodup_files disk a base texts) ?_ ?_
  · exact forall_mem_files (fun name => FilePath.Proper name.toList) fun i _ =>
      targetName_proper disk a base i
  · exact forall_mem_files (disk.Admits (targetDirectory disk base) place) fun i inside =>
      admits i (by omega)

/-- A run over the blocks of a Markdown file does in turn what the runs over the single blocks do. Its
outputs are different names in one directory. If all blocks parse, each of these files is written, with
the text that the run over that block alone writes there. Otherwise the run fails as the run over the
first block that does not parse, after it has written the files of the blocks before. No other file
changes. The directory has to be there, and must admit the names. -/
theorem run_blocks_in_turn (understood : Arguments.ofWords words = .ok a)
    (batch : IsBatch disk a blocks base)
    (configured : configure ⟨disk.read, disk.isDirectory, stdin⟩ a = .ok config)
    (leads : disk.Leads (targetDirectory disk base) place)
    (admits : ∀ i < blocks.length,
      disk.Admits (targetDirectory disk base) place (targetName disk a base i)) :
    outputs disk.isDirectory a.output (a.format.getD .svg) blocks.length =
      .ok ((List.range blocks.length).map (target disk a base)) ∧
    ((List.range blocks.length).map (target disk a base)).Nodup ∧
    (∀ i, '/' ∉ (targetName disk a base i).toList) ∧
    ((∀ block ∈ blocks, ∃ program, config.lexis.parse block = .ok program) →
      ∃ after, run disk stdin words = ⟨0, "", "", after⟩ ∧
        Written disk a blocks base place blocks.length after) ∧
    ∀ i (h : i < blocks.length) (e : ParseError),
      (∀ block ∈ blocks.take i, ∃ program, config.lexis.parse block = .ok program) →
      config.lexis.parse blocks[i] = .error e →
      ∃ after stderr, run disk stdin words = ⟨1, "", stderr, after⟩ ∧
        alone disk a blocks[i] (target disk a base i) = ⟨1, "", stderr, disk⟩ ∧
        Written disk a blocks base place i after := by
  have numbered : (List.range blocks.length).map (target disk a base) =
      FilePath.numbered (disk.isDirectory base) base (a.format.getD .svg).fileExtension
        blocks.length := rfl
  refine ⟨?_, ?_, fun i => (targetName_proper disk a base i).slash, ?_, ?_⟩
  · unfold outputs
    rw [batch.output, numbered]
  · rw [numbered]
    exact FilePath.nodup_numbered ..
  · intro parsed
    have stops : deedsFor config (measureFor a config) (a.format.getD .svg)
        ((blocks.drop blocks.length).zip (((List.range blocks.length).map
          (target disk a base)).drop blocks.length)) = ⟨[], none⟩ := by
      rw [List.drop_length]
      rfl
    obtain ⟨after, done, written⟩ := carryOut_batch batch configured leads admits le_rfl
      (by rwa [List.take_length]) stops
    exact ⟨after, (run_of_words understood).trans done, written⟩
  · intro i h e parsed misparsed
    have stops : deedsFor config (measureFor a config) (a.format.getD .svg)
        ((blocks.drop i).zip (((List.range blocks.length).map (target disk a base)).drop i)) =
        ⟨[], some (.parse blocks[i] e)⟩ := by
      have here : i < ((List.range blocks.length).map (target disk a base)).length := by
        simpa using h
      rw [List.drop_eq_getElem_cons h, List.drop_eq_getElem_cons here, List.zip_cons_cons, deedsFor,
        deedFor_of_misparse misparsed]
    obtain ⟨after, done, written⟩ := carryOut_batch batch configured leads admits h.le parsed stops
    exact ⟨after, _, (run_of_words understood).trans done, alone_of_misparse configured misparsed,
      written⟩

def twoBlocks : String := "```pseudo\na\n```\n~~~flow\nb\n~~~\n"

def notesBeside (directories : List Location) : Disk :=
  { files := [(["n.md".toList], twoBlocks)], directories }

def treesOfNotes : List String := ["-i", "n.md", "-o", "out", "-e", "ast"]

def treesArguments : Arguments :=
  { Arguments.empty with input := some "n.md", output := some "out", format := some .ast }

theorem blocks_twoBlocks : Markdown.blocks twoBlocks = ["a", "b"] := by cbv

theorem twoBlocks_parse : ∀ block ∈ ["a", "b"],
    ∃ program, (Config.classic : Config Float32).lexis.parse block = .ok program := by
  intro block mem
  have checked : ["a", "b"].all (fun block =>
      ((Config.classic : Config Float32).lexis.parse block).toOption.any fun _ => true) = true := by
    decide +kernel
  obtain ⟨program, parsed, -⟩ := exists_of_any_toOption (List.all_eq_true.mp checked block mem)
  exact ⟨program, parsed⟩

theorem run_blocks_in_turn_two :
    ∃ after, run (notesBeside [["out".toList]]) "" treesOfNotes = ⟨0, "", "", after⟩ ∧
      Written (notesBeside [["out".toList]]) treesArguments ["a", "b"] "out" ["out".toList] 2
        after := by
  have checked : ∀ i < 2,
      (targetName (notesBeside [["out".toList]]) treesArguments "out" i).utf8ByteSize ≤ 255 ∧
      (target (notesBeside [["out".toList]]) treesArguments "out" i).utf8ByteSize ≤ 4095 ∧
      (notesBeside [["out".toList]]).hasDirectory (["out".toList] ++
        [(targetName (notesBeside [["out".toList]]) treesArguments "out" i).toList]) = false := by
    decide +kernel
  have admits : ∀ i < 2, (notesBeside [["out".toList]]).Admits
      (targetDirectory (notesBeside [["out".toList]]) "out") ["out".toList]
      (targetName (notesBeside [["out".toList]]) treesArguments "out" i) := by
    intro i h
    obtain ⟨short, reachable, vacant⟩ := checked i h
    exact ⟨short, reachable, Disk.look_ne_directory vacant⟩
  have leads : (notesBeside [["out".toList]]).Leads
      (targetDirectory (notesBeside [["out".toList]]) "out") ["out".toList] := .inr (by cbv)
  have batch : IsBatch (notesBeside [["out".toList]]) treesArguments ["a", "b"] "out" :=
    ⟨⟨"n.md", twoBlocks, rfl, by cbv, by cbv, by cbv, blocks_twoBlocks⟩, by decide, rfl, by decide⟩
  have understood : Arguments.ofWords treesOfNotes = .ok treesArguments := by cbv
  exact (run_blocks_in_turn understood batch rfl leads admits).2.2.2.1 twoBlocks_parse

/-- A directory in the place of an output stops the run, though the directory of the outputs is there
and every block parses. -/
theorem run_blocks_blocked :
    (notesBeside [["out".toList, "flow-2.json".toList]]).Leads
      (targetDirectory (notesBeside [["out".toList, "flow-2.json".toList]]) "out")
      ["out".toList] ∧
    (∀ block ∈ Markdown.blocks twoBlocks,
      ∃ program, (Config.classic : Config Float32).lexis.parse block = .ok program) ∧
    (run (notesBeside [["out".toList, "flow-2.json".toList]]) "" treesOfNotes).exitCode = 1 ∧
    (run (notesBeside [["out".toList, "flow-2.json".toList]]) "" treesOfNotes).stderr =
      "error: Is a directory (os error 21)\n" := by
  refine ⟨.inr (by cbv), ?_, by decide +kernel, by decide +kernel⟩
  rw [blocks_twoBlocks]
  exact twoBlocks_parse

end Flowchart.Command
