import Flowchart.Proofs.Command.Batch
/-! Blocks written into a directory. The blocks of a Markdown file are written into an existing directory
under a fixed stem, but a single block is written to the path as it is given, and a directory is no
file. -/
namespace Flowchart

namespace Disk
variable {disk : Disk} {place : Location} {found : Found} {path text : String}

theorem next_in_directory {name : List Char} {further : Found} (h : disk.next found name = .ok further) :
    ∃ place, found = .directory place := by
  cases found with
  | directory place => exact ⟨place, rfl⟩
  | file place text => cases h
  | vacant place => cases h

/-- The names that are followed to write to a directory lead to a directory. -/
theorem follow_namesToWrite (way : disk.follow found (FilePath.parts path) = .ok (.directory place)) :
    ∃ above, disk.follow found (namesToWrite path) = .ok (.directory above) := by
  unfold namesToWrite
  dsimp only
  split
  · next before reversed =>
      split
      · next last above trimmed =>
          split
          · exact ⟨place, way⟩
          · obtain ⟨empty, rfl⟩ : ∃ empty, before = empty ++ last :: above := by
              refine ⟨before.takeWhile List.isEmpty, ?_⟩
              rw [← trimmed, List.takeWhile_append_dropWhile]
            have parts : FilePath.parts path = above.reverse ++ last :: (empty.reverse ++ [[]]) := by
              rw [← List.reverse_reverse (FilePath.parts path), reversed]
              simp
            rw [parts, follow_append] at way
            obtain ⟨mid, first, onward⟩ := exists_of_bind_eq_ok way
            rw [follow_cons] at onward
            obtain ⟨further, entered, -⟩ := exists_of_bind_eq_ok onward
            obtain ⟨q, rfl⟩ := next_in_directory entered
            refine ⟨q, ?_⟩
            rw [follow_append, first]
            change disk.follow (.directory q) [[]] = _
            rw [follow_cons]
            exact disk.follow_nil _
      · exact ⟨place, way⟩
  · exact ⟨place, way⟩

theorem write_directory (there : disk.find path = .ok (.directory place)) (text : String) :
    disk.write path text = .error .isDirectory := by
  obtain ⟨filled, way⟩ := follow_of_find there
  obtain ⟨above, way⟩ := follow_namesToWrite way
  have short : ¬ 4095 < path.utf8ByteSize := by
    intro long
    rw [find, walk_too_long filled long] at there
    cases there
  have walked : disk.walk path (namesToWrite path) = .ok (.directory above) := by
    rw [Disk.walk, if_neg (mt String.isEmpty_iff.mp filled), if_neg short]
    exact way
  rw [Disk.write, walked]

theorem isDirectory_of_find (there : disk.find path = .ok (.directory place)) :
    disk.isDirectory path = true := by
  rw [isDirectory, there]

end Disk

namespace Command
variable {disk : Disk} {stdin : String} {words blocks : List String} {a : Arguments}
  {config : Config Float32} {measure : Measure Float32} {format : OutputFormat}
  {source text base : String} {place : Location}

theorem planFor_single {path : String}
    (configured : configure ⟨disk.read, disk.isDirectory, stdin⟩ a = .ok config)
    (single : sources ⟨disk.read, disk.isDirectory, stdin⟩ a = .ok [source])
    (output : a.output = some path)
    (emits : Emits config (measureFor a config) (a.format.getD .svg) source text) :
    planFor ⟨disk.read, disk.isDirectory, stdin⟩ a = .ok ⟨[.write path text], none⟩ := by
  refine bind_eq_ok configured (bind_eq_ok single ?_)
  dsimp only
  rw [output]
  exact bind_eq_ok (emits path) rfl

/-- Arguments that ask for the blocks of a Markdown file, in a format that can be written, in a
directory that exists. -/
structure FillsDirectory (disk : Disk) (a : Arguments) (blocks : List String) (base : String)
    (place : Location) : Prop where
  markdown : ∃ path text, a.input = some path ∧ FilePath.isName "-" path = false ∧
    isMarkdown path = true ∧ disk.read path = .ok text ∧ Markdown.blocks text = blocks
  filled : blocks ≠ []
  output : a.output = some base
  drawable : a.format.getD .svg ≠ .png
  there : disk.find base = .ok (.directory place)

def flowName (a : Arguments) : Nat → String :=
  FilePath.numberedName "flow" (a.format.getD .svg).fileExtension

namespace FillsDirectory

theorem batch (fills : FillsDirectory disk a blocks base place) (several : 2 ≤ blocks.length) :
    IsBatch disk a blocks base :=
  ⟨fills.markdown, several, fills.output, fills.drawable⟩

theorem targetDirectory_eq (fills : FillsDirectory disk a blocks base place) :
    targetDirectory disk base = base := by
  rw [targetDirectory, Disk.isDirectory_of_find fills.there]
  rfl

theorem targetName_eq (fills : FillsDirectory disk a blocks base place) :
    targetName disk a base = flowName a := by
  rw [targetName, Disk.isDirectory_of_find fills.there]
  rfl

theorem run_single (fills : FillsDirectory disk a blocks base place)
    (understood : Arguments.ofWords words = .ok a)
    (configured : configure ⟨disk.read, disk.isDirectory, stdin⟩ a = .ok config)
    (parsed : ∀ block ∈ blocks, ∃ program, config.lexis.parse block = .ok program)
    (single : blocks.length = 1) :
    run disk stdin words = ⟨1, "", "error: " ++ FileError.isDirectory.message ++ "\n", disk⟩ := by
  obtain ⟨block, rfl⟩ := List.length_eq_one_iff.mp single
  obtain ⟨program, parsed⟩ := parsed block List.mem_cons_self
  obtain ⟨text, emits⟩ := emits_of_parse (measureFor a config) fills.drawable parsed
  have sources := sources_of_markdown fills.filled fills.markdown stdin
  have planned := planFor_single configured sources fills.output emits
  rw [run_of_words understood, carryOut_of_plan planned, Outcome.perform,
    Disk.write_directory fills.there]

end FillsDirectory

/-- The text that the run over a block alone writes is the rendering of the block. -/
theorem Written.renders {count : Nat} {after : Disk}
    (written : Written disk a blocks base place count after)
    (configured : configure ⟨disk.read, disk.isDirectory, stdin⟩ a = .ok config)
    (leads : disk.Leads (targetDirectory disk base) place) (drawable : a.format.getD .svg ≠ .png)
    {i : Nat} (h : i < blocks.length) (within : i < count)
    (admits : disk.Admits (targetDirectory disk base) place (targetName disk a base i))
    {program : Node} (parsed : config.lexis.parse blocks[i] = .ok program) :
    ∃ text, Rendering config (measureFor a config) blocks[i] (a.format.getD .svg) text ∧
      after.text? (place ++ [(targetName disk a base i).toList]) = some text := by
  obtain ⟨text, rendered⟩ := exists_rendering (measureFor a config) drawable parsed
  obtain ⟨found, ran, shown⟩ := written.own i h within
  have again := alone_of_emits configured (emits_of_rendering rendered)
    (leads.write (targetName_proper disk a base i) admits text)
  have disks := congrArg Outcome.disk (ran.symm.trans again)
  have texts := congrArg (·.text? (place ++ [(targetName disk a base i).toList])) disks
  simp only [Disk.text?_withFile, if_pos, Option.some.injEq] at texts
  exact ⟨text, rendered, texts ▸ shown⟩

/-- Two blocks or more are written into the directory, each under its number and as its rendering, if the
directory admits the names. A single block is refused. -/
theorem run_into_directory (understood : Arguments.ofWords words = .ok a)
    (fills : FillsDirectory disk a blocks base place)
    (configured : configure ⟨disk.read, disk.isDirectory, stdin⟩ a = .ok config)
    (parsed : ∀ block ∈ blocks, ∃ program, config.lexis.parse block = .ok program) :
    (blocks.length = 1 → run disk stdin words =
      ⟨1, "", "error: " ++ FileError.isDirectory.message ++ "\n", disk⟩) ∧
    (2 ≤ blocks.length → (∀ i < blocks.length, disk.Admits base place (flowName a i)) →
      ∃ after, run disk stdin words = ⟨0, "", "", after⟩ ∧
        (∀ i (h : i < blocks.length), ∃ text,
          Rendering config (measureFor a config) blocks[i] (a.format.getD .svg) text ∧
          after.text? (place ++ [(flowName a i).toList]) = some text) ∧
        (∀ q, (∀ i < blocks.length, q ≠ place ++ [(flowName a i).toList]) →
          after.text? q = disk.text? q) ∧
        after.directories = disk.directories) := by
  refine ⟨fills.run_single understood configured parsed, fun several admits => ?_⟩
  have leads : disk.Leads (targetDirectory disk base) place := by
    rw [fills.targetDirectory_eq]
    exact .inr fills.there
  have admits : ∀ i < blocks.length,
      disk.Admits (targetDirectory disk base) place (targetName disk a base i) := by
    rw [fills.targetDirectory_eq, fills.targetName_eq]
    exact admits
  rw [← fills.targetName_eq]
  have stops : deedsFor config (measureFor a config) (a.format.getD .svg)
      ((blocks.drop blocks.length).zip (((List.range blocks.length).map
        (target disk a base)).drop blocks.length)) = ⟨[], none⟩ := by
    rw [List.drop_length]
    rfl
  obtain ⟨after, done, written⟩ := carryOut_batch (fills.batch several) configured leads admits
    le_rfl (by rwa [List.take_length]) stops
  refine ⟨after, (run_of_words understood).trans done, fun i h => ?_, written.others,
    written.directories⟩
  obtain ⟨program, parsed⟩ := parsed blocks[i] (List.getElem_mem h)
  exact written.renders configured leads fills.drawable h h (admits i h) parsed

def treesIntoDirectory : List String := ["-i", "n.md", "-o", "out/", "-e", "ast"]

def directoryArguments : Arguments :=
  { Arguments.empty with input := some "n.md", output := some "out/", format := some .ast }

def notesAndOut (notes : String) : Disk :=
  { files := [(["n.md".toList], notes)], directories := [["out".toList]] }

theorem understood_directoryArguments :
    Arguments.ofWords treesIntoDirectory = .ok directoryArguments := by cbv

theorem run_into_directory_two :
    ∃ after, run (notesAndOut twoBlocks) "" treesIntoDirectory = ⟨0, "", "", after⟩ ∧
      (∀ i (h : i < 2), ∃ text,
        Rendering Config.classic (measureFor directoryArguments Config.classic) ["a", "b"][i] .ast
          text ∧
        after.text? (["out".toList] ++ [(flowName directoryArguments i).toList]) = some text) := by
  have fills : FillsDirectory (notesAndOut twoBlocks) directoryArguments ["a", "b"] "out/"
      ["out".toList] :=
    ⟨⟨"n.md", twoBlocks, rfl, by cbv, by cbv, by cbv, blocks_twoBlocks⟩, by decide, rfl, by decide,
      by cbv⟩
  have checked : ∀ i < 2, (flowName directoryArguments i).utf8ByteSize ≤ 255 ∧
      (FilePath.join "out/" (flowName directoryArguments i)).utf8ByteSize ≤ 4095 ∧
      (notesAndOut twoBlocks).hasDirectory
        (["out".toList] ++ [(flowName directoryArguments i).toList]) = false := by
    decide +kernel
  have admits : ∀ i < 2, (notesAndOut twoBlocks).Admits "out/" ["out".toList]
      (flowName directoryArguments i) := by
    intro i h
    obtain ⟨short, reachable, vacant⟩ := checked i h
    exact ⟨short, reachable, Disk.look_ne_directory vacant⟩
  obtain ⟨after, done, renders, -⟩ :=
    (run_into_directory understood_directoryArguments fills rfl twoBlocks_parse).2 le_rfl admits
  exact ⟨after, done, renders⟩

def oneBlock : String := "```pseudo\na\n```\n"

/-- A single block that parses is not written into the directory. -/
theorem run_into_directory_refused :
    Markdown.blocks oneBlock = ["a"] ∧
    (∃ program, (Config.classic : Config Float32).lexis.parse "a" = .ok program) ∧
    (notesAndOut oneBlock).isDirectory "out/" = true ∧
    run (notesAndOut oneBlock) "" treesIntoDirectory =
      ⟨1, "", "error: Is a directory (os error 21)\n", notesAndOut oneBlock⟩ := by
  have blocks : Markdown.blocks oneBlock = ["a"] := by cbv
  have parsed := twoBlocks_parse "a" List.mem_cons_self
  have fills : FillsDirectory (notesAndOut oneBlock) directoryArguments ["a"] "out/"
      ["out".toList] :=
    ⟨⟨"n.md", oneBlock, rfl, by cbv, by cbv, by cbv, blocks⟩, by decide, rfl, by decide, by cbv⟩
  have configured : configure ⟨(notesAndOut oneBlock).read, (notesAndOut oneBlock).isDirectory, ""⟩
      directoryArguments = .ok Config.classic := rfl
  exact ⟨blocks, parsed, Disk.isDirectory_of_find fills.there,
    fills.run_single understood_directoryArguments configured (List.forall_mem_singleton.mpr parsed)
      rfl⟩

end Command
end Flowchart
