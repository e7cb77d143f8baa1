import Flowchart.Proofs.Pseudocode.Print
import Flowchart.Style.Theme
/-! The parser recognises the grammar: it returns nothing but programs, and every program that can
be printed is read back from its lines. -/
namespace Flowchart

namespace Tree

theorem closeBlocks_add (m n : Nat) (stack : List Node) :
    closeBlocks (m + n) stack = closeBlocks m (closeBlocks n stack) := by
  fun_induction closeBlocks n stack with
  | case1 n child parent outer ih => exact ih
  | case2 n stack hstuck =>
      cases n with
      | zero => rfl
      | succ n =>
          cases stack with
          | nil => cases m <;> simp [closeBlocks]
          | cons child rest =>
              cases rest with
              | nil => cases m <;> simp [closeBlocks]
              | cons parent outer => exact absurd rfl (hstuck n child parent outer rfl)

/-- A block of the stack that a line below it would join, with the blocks around it. -/
def Innermost (stack : List Node) (parent : Node) (outer : List Node) : Prop :=
  outer.length < stack.length ∧
    closeBlocks (stack.length - (outer.length + 1)) stack = parent :: outer

theorem innermost_self (parent : Node) (outer : List Node) :
    Innermost (parent :: outer) parent outer := by
  refine ⟨Nat.lt_succ_self _, ?_⟩
  rw [List.length_cons, Nat.sub_self]
  cases outer <;> rfl

theorem innermost_close {stack : List Node} {child parent : Node} {outer : List Node}
    (h : Innermost stack child (parent :: outer)) : Innermost stack (parent.push child) outer := by
  obtain ⟨hlt, hclose⟩ := h
  rw [List.length_cons] at hlt hclose
  refine ⟨Nat.lt_of_succ_lt hlt, ?_⟩
  have hsplit : stack.length - (outer.length + 1) =
      1 + (stack.length - (outer.length + 1 + 1)) := by omega
  rw [hsplit, closeBlocks_add, hclose]
  cases outer <;> rfl

theorem addLine_innermost {stack : List Node} {parent : Node} {outer : List Node} {l : Line}
    (h : Innermost stack parent outer) (hdepth : l.depth = outer.length) :
    addLine stack l = .ok (if opensBlock (nodeOf l) parent then nodeOf l :: parent :: outer
      else parent.push (nodeOf l) :: outer) := by
  obtain ⟨hlt, hclose⟩ := h
  unfold addLine
  rw [hdepth, if_neg (Nat.not_le.mpr hlt), hclose]
  rfl

def append (parent : Node) (nodes : List Node) : Node :=
  { parent with children := parent.children ++ nodes }

theorem append_nil (parent : Node) : append parent [] = parent := by
  cases parent
  simp [append]

theorem append_cons (parent node : Node) (rest : List Node) :
    append parent (node :: rest) = append (parent.push node) rest := by
  simp [append, Node.push]

/-- Printed siblings become the last children of the block that they are printed below. -/
theorem build_print (run : Nat → String) {previous : Option NodeKind} {nodes : List Node}
    (tidy : Tidy previous nodes) (printable : Node.Printable nodes) (number : Nat)
    (nesting : List String) {stack : List Node} {parent : Node} {outer : List Node}
    (h : Innermost stack parent outer) (hdepth : nesting.length = outer.length)
    (hlast : lastKind none parent.children = previous) :
    ∃ next, (Node.print run nesting number nodes).foldlM addLine stack = .ok next ∧
      Innermost next (append parent (Node.renumber number nodes)) outer := by
  induction tidy generalizing number nesting stack parent outer with
  | nil =>
      refine ⟨stack, by rw [Node.print]; rfl, ?_⟩
      rw [Node.renumber, append_nil]
      exact h
  | @cons previous kind line content children rest hkind htext hclosing _ _ ihc ihr =>
      unfold Node.Printable at printable
      obtain ⟨hprintable, hbelow, hrest⟩ := printable
      have hnode := NodeKind.nodeOf_lineText hkind hprintable number nesting
      have hadd := addLine_innermost (l := ⟨number, nesting, kind.lineText content⟩) h hdepth
      rw [hnode] at hadd
      rw [Node.print, Node.renumber, append_cons, ← List.cons_append, List.foldlM_append]
      -- Whether it opens a block or not, the node ends up as the last child with its own children.
      obtain ⟨below, hfold, hinner⟩ : ∃ below,
          (⟨number, nesting, kind.lineText content⟩ ::
            Node.print run (nesting ++ [run number]) (number + 1) children).foldlM
              addLine stack = .ok below ∧
            Innermost below
              (parent.push ⟨kind, number, content, Node.renumber (number + 1) children⟩) outer := by
        rw [List.foldlM_cons, hadd]
        by_cases hopens : opensBlock ⟨kind, number, content, []⟩ parent = true
        · obtain ⟨below, hfold, hinner⟩ := ihc hbelow (number + 1) (nesting ++ [run number])
            (innermost_self ⟨kind, number, content, []⟩ (parent :: outer))
            (by simp [hdepth]) rfl
          rw [if_pos hopens]
          exact ⟨below, hfold, innermost_close hinner⟩
        · obtain rfl : children = [] := by
            by_cases ht : kind = .text
            · exact htext ht
            · have hcloses : closesDo kind parent = true := by simpa [opensBlock, ht] using hopens
              obtain ⟨hwhile, hdo⟩ := closesDo_iff.mp hcloses
              exact hclosing hwhile (hlast ▸ hdo)
          rw [if_neg hopens, Node.print, Node.renumber]
          exact ⟨_, rfl, innermost_self _ _⟩
      obtain ⟨next, hnext, hdone⟩ := ihr hrest (number + 1 + Node.countAll children) nesting hinner
        hdepth (by simp [Node.push, lastKind])
      exact ⟨next, bind_eq_ok hfold hnext, hdone⟩

theorem build_source (run : Nat → String) {statements : List Node} (tidy : Tidy none statements)
    (printable : Node.Printable statements) :
    build (Node.print run [] 1 statements) =
      .ok ⟨.program, 0, "", Node.renumber 1 statements⟩ := by
  obtain ⟨stack, hfold, hlt, hclose⟩ :=
    build_print run tidy printable 1 [] (innermost_self .root []) rfl rfl
  have hroot : closeBlocks stack.length stack =
      [append .root (Node.renumber 1 statements)] := by
    have hsplit : stack.length = 1 + (stack.length - (0 + 1)) := by
      rw [List.length_nil] at hlt
      omega
    rw [hsplit, closeBlocks_add]
    rw [List.length_nil] at hclose
    rw [hclose]
    rfl
  refine bind_eq_ok hfold ?_
  rw [hroot]
  rfl

theorem tidy_of_grammar {place : Place} {s : Scope} {nodes : List Node}
    (h : Grammar place s nodes) {previous : Option NodeKind}
    (hplace : previous = some .doLoop → place = .closing) : Tidy previous nodes := by
  induction h generalizing previous with
  | nil => exact .nil
  | text _ ih => exact .cons nofun (fun _ => rfl) nofun .nil (ih nofun)
  | pass _ ih => exact .cons nofun (fun _ => rfl) nofun .nil (ih nofun)
  | breakJump _ _ ih => exact .cons nofun (fun _ => rfl) nofun .nil (ih nofun)
  | continueJump _ _ ih => exact .cons nofun (fun _ => rfl) nofun .nil (ih nofun)
  | ifTest _ _ ihb ihr => exact .cons nofun nofun nofun (ihb nofun) (ihr nofun)
  | whileLoop _ _ ihb ihr =>
      exact .cons nofun nofun (fun _ hdo => nomatch hplace hdo) (ihb nofun) (ihr nofun)
  | doLoop _ _ ihb ihr => exact .cons nofun nofun nofun (ihb nofun) (ihr fun _ => rfl)
  | switch _ _ ihb ihr => exact .cons nofun nofun nofun (ihb nofun) (ihr nofun)
  | tryBlock _ _ ihb ihr => exact .cons nofun nofun nofun (ihb nofun) (ihr nofun)
  | elifTest _ _ ihb ihr => exact .cons nofun nofun nofun (ihb nofun) (ihr nofun)
  | elseBlock _ _ ihb ihr => exact .cons nofun nofun nofun (ihb nofun) (ihr nofun)
  | chainEnd _ ih => exact ih fun hdo => nomatch hplace hdo
  | closing _ ih => exact .cons nofun nofun (fun _ _ => rfl) .nil (ih nofun)
  | firstCase _ _ ihb ihr => exact .cons nofun nofun nofun (ihb nofun) (ihr nofun)
  | nextCase _ ih => exact ih fun hdo => nomatch hplace hdo
  | lastCase => exact .nil
  | except _ _ ihb ihr => exact .cons nofun nofun nofun (ihb nofun) (ihr nofun)
  | nextHandler _ ih => exact ih fun hdo => nomatch hplace hdo
  | lastHandler _ ih => exact ih fun hdo => nomatch hplace hdo

theorem grammar_renumber {place : Place} {s : Scope} {nodes : List Node}
    (h : Grammar place s nodes) (number : Nat) :
    Grammar place s (Node.renumber number nodes) := by
  induction h generalizing number with
  | nil => rw [Node.renumber]; exact .nil
  | text _ ih => rw [Node.renumber, Node.renumber]; exact .text (ih _)
  | pass _ ih => rw [Node.renumber, Node.renumber]; exact .pass (ih _)
  | breakJump hs _ ih => rw [Node.renumber, Node.renumber]; exact .breakJump hs (ih _)
  | continueJump hs _ ih => rw [Node.renumber, Node.renumber]; exact .continueJump hs (ih _)
  | ifTest _ _ ihb ihr => rw [Node.renumber]; exact .ifTest (ihb _) (ihr _)
  | whileLoop _ _ ihb ihr => rw [Node.renumber]; exact .whileLoop (ihb _) (ihr _)
  | doLoop _ _ ihb ihr => rw [Node.renumber]; exact .doLoop (ihb _) (ihr _)
  | switch _ _ ihb ihr => rw [Node.renumber]; exact .switch (ihb _) (ihr _)
  | tryBlock _ _ ihb ihr => rw [Node.renumber]; exact .tryBlock (ihb _) (ihr _)
  | elifTest _ _ ihb ihr => rw [Node.renumber]; exact .elifTest (ihb _) (ihr _)
  | elseBlock _ _ ihb ihr => rw [Node.renumber]; exact .elseBlock (ihb _) (ihr _)
  | chainEnd _ ih => exact .chainEnd (ih _)
  | closing _ ih => rw [Node.renumber, Node.renumber]; exact .closing (ih _)
  | firstCase _ _ ihb ihr => rw [Node.renumber]; exact .firstCase (ihb _) (ihr _)
  | nextCase _ ih => exact .nextCase (ih _)
  | lastCase => rw [Node.renumber]; exact .lastCase
  | except _ _ ihb ihr => rw [Node.renumber]; exact .except (ihb _) (ihr _)
  | nextHandler _ ih => exact .nextHandler (ih _)
  | lastHandler _ ih => exact .lastHandler (ih _)

end Tree

namespace Lexis
variable {x : Lexis}

theorem laid_print (hx : x.comment = ['#']) {run : Nat → String} (hrun : ∀ n, x.IsLevel (run n))
    (nesting : List String) (number : Nat) {nodes : List Node} (printable : Node.Printable nodes)
    {previous : List String} (hnests : x.Nests previous nesting) {tail : List Line}
    (htail : ∀ last, last = previous ∨ nesting <+: last →
      x.Laid (number + Node.countAll nodes) last tail) :
    x.Laid number previous (Node.print run nesting number nodes ++ tail) := by
  fun_induction Node.print run nesting number nodes generalizing previous tail with
  | case1 nesting number => exact htail previous (.inl rfl)
  | case2 nesting number kind line content children rest ihc ihr =>
      unfold Node.Printable at printable
      obtain ⟨hprintable, hbelow, hrest⟩ := printable
      rw [List.cons_append, List.append_assoc]
      refine .cons hnests (NodeKind.plain_lineText hx hprintable) ?_
      refine ihc hbelow (.under (hrun number)) fun last hlast => ?_
      have hextends : nesting <+: last := by
        rcases hlast with rfl | hlast
        · exact List.prefix_refl _
        · exact (List.prefix_append _ _).trans hlast
      refine ihr hrest (.close hextends) fun final hfinal => ?_
      have hcount : number + 1 + Node.countAll children + Node.countAll rest =
          number + Node.countAll (⟨kind, line, content, children⟩ :: rest) := by
        simp only [Node.countAll, Node.count]
        omega
      rw [hcount]
      refine htail final (.inr ?_)
      rcases hfinal with rfl | hfinal
      · exact hextends
      · exact hfinal

/-- A program is read back from the lines that print it. -/
theorem parse_source (hx : x.comment = ['#'])
    (hindent : ∀ c, x.indents c = true → Text.isBlank c = true) (hfeed : x.indents '\n' = false)
    {run : Nat → String} (hrun : ∀ n, x.IsLevel (run n)) {statements : List Node}
    (grammar : Grammar .block .outermost statements) (printable : Node.Printable statements) :
    x.parse (Node.source run statements) =
      .ok ⟨.program, 0, "", Node.renumber 1 statements⟩ := by
  have hlaid : x.Laid 1 [] (Node.print run [] 1 statements) := by
    rw [← List.append_nil (Node.print run [] 1 statements)]
    exact laid_print hx hrun [] 1 printable (.close (List.prefix_refl [])) fun _ _ => .nil
  have hfirst : ∀ l ∈ (Node.print run [] 1 statements).head?, l.nesting = [] := by
    intro l hl
    cases statements with
    | nil => rw [Node.print] at hl; cases hl
    | cons node rest =>
        obtain ⟨kind, line, content, children⟩ := node
        rw [Node.print] at hl
        cases hl
        rfl
  have hkeep : Rules.Keep .program none [.program] (Node.renumber 1 statements) :=
    Rules.keep_of_grammar (Tree.grammar_renumber grammar 1) rfl trivial
  have hcheck : Rules.check [] ⟨.program, 0, "", Node.renumber 1 statements⟩ = .ok () :=
    (Rules.check_eq ..).trans (bind_eq_ok rfl (bind_eq_ok rfl (bind_eq_ok hkeep.1 hkeep.2)))
  refine bind_eq_ok (lines_written hindent hfeed hlaid hfirst) ?_
  refine bind_eq_ok (Tree.build_source run (Tree.tidy_of_grammar grammar fun h => by cases h) printable) ?_
  exact bind_eq_ok hcheck rfl

end Lexis

def Lexis.classic : Lexis := (Config.classic : Config Float32).lexis

theorem indents_classic (c : Char) : Lexis.classic.indents c = true ↔ c = ' ' ∨ c = '\t' := by
  change [' ', '\t'].contains c = true ↔ _
  simp

theorem parse_source_classic {run : Nat → String} {statements : List Node}
    (hrun : ∀ n, run n ≠ "" ∧ ∀ c ∈ (run n).toList, c = ' ' ∨ c = '\t')
    (grammar : Grammar .block .outermost statements) (printable : Node.Printable statements) :
    Lexis.classic.parse (Node.source run statements) =
      .ok ⟨.program, 0, "", Node.renumber 1 statements⟩ := by
  have hblank (c : Char) (hc : Lexis.classic.indents c = true) : Text.isBlank c = true := by
    rcases (indents_classic c).mp hc with rfl | rfl <;> decide
  have hlevel (n : Nat) : Lexis.classic.IsLevel (run n) :=
    ⟨mt String.toList_eq_nil_iff.mp (hrun n).1,
      fun c hc => (indents_classic c).mpr ((hrun n).2 c hc)⟩
  exact Lexis.parse_source (by decide) hblank (by decide) hlevel grammar printable

/-- The parser recognises the grammar: a program printed with any run of spaces and tabs for each of
its blocks is read back, every line under the number at which it was printed; and what is read from
a source, whatever it is, is a program. -/
theorem parse_recognises_grammar :
    (∀ (run : Nat → String) (statements : List Node),
      (∀ n, run n ≠ "" ∧ ∀ c ∈ (run n).toList, c = ' ' ∨ c = '\t') →
      Grammar .block .outermost statements → Node.Printable statements →
      Lexis.classic.parse (Node.source run statements) =
        .ok ⟨.program, 0, "", Node.renumber 1 statements⟩) ∧
    ∀ (source : String) (program : Node),
      Lexis.classic.parse source = .ok program → program.IsProgram :=
  ⟨fun _ _ hrun grammar printable => parse_source_classic hrun grammar printable,
    fun _ _ h => Rules.isProgram_of_parse h⟩

namespace Sample

def run (n : Nat) : String := if n = 1 then "  " else "\t"

def statements : List Node :=
  [⟨.doLoop, 0, "", [⟨.ifTest, 0, "full", [⟨.breakJump, 0, "", []⟩]⟩]⟩,
    ⟨.whileLoop, 0, "not empty", []⟩, ⟨.text, 0, "stop", []⟩]

def source : String := Node.source run statements

def program : Node := ⟨.program, 0, "", Node.renumber 1 statements⟩

theorem grammar_statements : Grammar .block .outermost statements :=
  .doLoop (.ifTest (.breakJump rfl .nil) (.chainEnd .nil)) (.closing (.text .nil))

theorem printable_statements : Node.Printable statements := by
  simp only [statements, Node.Printable]
  refine ⟨?_, ⟨?_, ⟨?_, trivial, trivial⟩, trivial⟩, ?_, trivial, ?_, trivial, trivial⟩
  all_goals exact ⟨by decide, by decide, by decide, by decide⟩

theorem run_blank (n : Nat) : run n ≠ "" ∧ ∀ c ∈ (run n).toList, c = ' ' ∨ c = '\t' := by
  have hblank : (run n).toList.all (fun c => c == ' ' || c == '\t') = true := by
    unfold run
    split <;> decide
  refine ⟨?_, fun c hc => ?_⟩
  · unfold run
    split <;> decide
  · simpa using List.all_eq_true.mp hblank c hc

theorem parse_source : Lexis.classic.parse source = .ok program :=
  parse_source_classic run_blank grammar_statements printable_statements

/-- A loop around a chain of tests, two of which jump; `log` is never reached. -/
def branching : List Node :=
  [⟨.whileLoop, 0, "more",
      [⟨.ifTest, 0, "bad", [⟨.breakJump, 0, "", []⟩, ⟨.text, 0, "log", []⟩]⟩,
        ⟨.elifTest, 0, "odd", [⟨.continueJump, 0, "", []⟩]⟩,
        ⟨.elseBlock, 0, "", [⟨.text, 0, "use", []⟩]⟩]⟩,
    ⟨.text, 0, "stop", []⟩]

def branchingSource : String := Node.source run branching

def branchingProgram : Node := ⟨.program, 0, "", Node.renumber 1 branching⟩

theorem grammar_branching : Grammar .block .outermost branching :=
  .whileLoop (.ifTest (.breakJump rfl (.text .nil)) (.elifTest (.continueJump rfl .nil)
    (.elseBlock (.text .nil) .nil))) (.text .nil)

theorem printable_branching : Node.Printable branching := by
  simp only [branching, Node.Printable]
  refine ⟨?_, ⟨?_, ⟨?_, trivial, ?_, trivial, trivial⟩, ?_, ⟨?_, trivial, trivial⟩, ?_,
    ⟨?_, trivial, trivial⟩, trivial⟩, ?_, trivial, trivial⟩
  all_goals exact ⟨by decide, by decide, by decide, by decide⟩

theorem parse_branching : Lexis.classic.parse branchingSource = .ok branchingProgram :=
  parse_source_classic run_blank grammar_branching printable_branching

end Sample

theorem parse_recognises_sample :
    Sample.source = "do\n  if full\n  \tbreak\nwhile not empty\nstop\n" ∧
    Lexis.classic.parse Sample.source = .ok Sample.program ∧ Sample.program.IsProgram := by
  have h := parse_recognises_grammar.1 Sample.run Sample.statements Sample.run_blank
    Sample.grammar_statements Sample.printable_statements
  refine ⟨?_, h, parse_recognises_grammar.2 _ _ h⟩
  simp [Sample.source, Node.source, Sample.statements, Node.print, Line.written, Line.indent,
    NodeKind.lineText, NodeKind.word, Sample.run, Node.countAll, Node.count]

end Flowchart
