import Flowchart.Proofs.Chart.Progress
import Flowchart.Proofs.Pseudocode.RoundTrip
/-! An `elif` is an `if` in an `else`. The layout of an `elif` puts its test straight on the arm of
the test before it; that of an `else` lays out a block, which may begin with a test. Both stand for
the same statements, by which every layout can be read, so a program in which every `elif`, with the
rest of its chain, is put into an `else` of its own has the same layout. -/
namespace Flowchart

namespace Node

mutual

/-- Siblings with the chains of their tests nested, less the lines at their front that belong to a
test before them. -/
def nestAll (after : Continuation) : List Node → List Node
  | [] => []
  | ⟨kind, line, content, children⟩ :: rest =>
    match after.take? kind with
    | some next => nestAll next rest
    | none =>
      match kind with
      | .ifTest =>
        ⟨.ifTest, line, content, nestAll .none children⟩ :: (nestElse rest ++ nestAll .chain rest)
      | kind => ⟨kind, line, content, nestAll .none children⟩ :: nestAll .none rest

/-- The `elif` and `else` lines at the front of these siblings as one `else`. -/
def nestElse : List Node → List Node
  | [] => []
  | ⟨kind, line, content, children⟩ :: rest =>
    match kind with
    | .elifTest =>
      [⟨.elseBlock, line, "", ⟨.ifTest, line, content, nestAll .none children⟩ :: nestElse rest⟩]
    | .elseBlock => [⟨.elseBlock, line, content, nestAll .none children⟩]
    | _ => []

end

def nest (program : Node) : Node := { program with children := nestAll .none program.children }

mutual

def mentions (kind : NodeKind) : Node → Bool
  | ⟨k, _, _, children⟩ => k == kind || mentionsAny kind children

def mentionsAny (kind : NodeKind) : List Node → Bool
  | [] => false
  | node :: rest => mentions kind node || mentionsAny kind rest

end

theorem mentionsAny_cons {kind other : NodeKind} {line : Nat} {content : String}
    {children rest : List Node} (hkind : (other == kind) = false)
    (hchildren : mentionsAny kind children = false) (hrest : mentionsAny kind rest = false) :
    mentionsAny kind (⟨other, line, content, children⟩ :: rest) = false := by
  simp only [mentionsAny, mentions, hkind, hchildren, hrest, Bool.or_false]

theorem nest_of_block {s : Scope} {nodes : List Node} (h : Grammar .block s nodes) :
    nestElse nodes = [] ∧ nestAll .chain nodes = nestAll .none nodes := by
  cases h <;> refine ⟨?_, ?_⟩ <;> simp [nestElse, nestAll, Continuation.take?]

end Node

/-- Siblings at a place that no longer have an `elif`. -/
structure Place.Flat (s : Scope) (nodes : List Node) (place : Place) : Prop where
  grammar : Grammar place s nodes
  flat : Node.mentionsAny .elifTest nodes = false

open Node in
/-- What nesting the siblings at a place leaves: the same grammar, no `elif`, and the same blocks.
The `else` of a chain may be followed by whatever may follow the chain. -/
def Place.Nests (s : Scope) (nodes : List Node) : Place → Prop
  | .block => Flat s (nestAll .none nodes) .block ∧
      Block.ofNodes .none (nestAll .none nodes) = Block.ofNodes .none nodes
  | .chain => (∀ rest, Flat s rest .block → Flat s (nestElse nodes ++ rest) .chain ∧
        Block.alternative (nestElse nodes ++ rest) = Block.alternative nodes ∧
        Block.ofNodes .chain (nestElse nodes ++ rest) = Block.ofNodes .none rest) ∧
      Flat s (nestAll .chain nodes) .block ∧
      Block.ofNodes .none (nestAll .chain nodes) = Block.ofNodes .chain nodes
  | .closing => Flat s (nestAll .none nodes) .closing ∧
      Node.closing? (nestAll .none nodes) = Node.closing? nodes ∧
      Block.ofNodes .closing (nestAll .none nodes) = Block.ofNodes .closing nodes
  | .firstCase => Flat s (nestAll .none nodes) .firstCase ∧
      Block.branches (nestAll .none nodes) = Block.branches nodes
  | .cases => Flat s (nestAll .none nodes) .cases ∧
      Block.branches (nestAll .none nodes) = Block.branches nodes
  | .firstHandler => Flat s (nestAll .none nodes) .firstHandler ∧
      Block.handlers (nestAll .none nodes) = Block.handlers nodes ∧
      Block.ofNodes .handlers (nestAll .none nodes) = Block.ofNodes .handlers nodes
  | .handlers => Flat s (nestAll .none nodes) .handlers ∧
      Block.handlers (nestAll .none nodes) = Block.handlers nodes ∧
      Block.ofNodes .handlers (nestAll .none nodes) = Block.ofNodes .handlers nodes

theorem nests_of_grammar {place : Place} {s : Scope} {nodes : List Node}
    (h : Grammar place s nodes) : place.Nests s nodes := by
  induction h with
  | nil =>
      simp only [Place.Nests, Node.nestAll, and_true]
      exact ⟨.nil, rfl⟩
  | text _ ih =>
      obtain ⟨⟨hgrammar, hflat⟩, hblock⟩ := ih
      simp only [Place.Nests, Node.nestAll, Continuation.take?, Block.ofNodes, hblock, and_true]
      exact ⟨.text hgrammar, Node.mentionsAny_cons rfl rfl hflat⟩
  | pass _ ih =>
      obtain ⟨⟨hgrammar, hflat⟩, hblock⟩ := ih
      simp only [Place.Nests, Node.nestAll, Continuation.take?, Block.ofNodes, hblock, and_true]
      exact ⟨.pass hgrammar, Node.mentionsAny_cons rfl rfl hflat⟩
  | breakJump hs _ ih =>
      obtain ⟨⟨hgrammar, hflat⟩, hblock⟩ := ih
      simp only [Place.Nests, Node.nestAll, Continuation.take?, Block.ofNodes, hblock, and_true]
      exact ⟨.breakJump hs hgrammar, Node.mentionsAny_cons rfl rfl hflat⟩
  | continueJump hs _ ih =>
      obtain ⟨⟨hgrammar, hflat⟩, hblock⟩ := ih
      simp only [Place.Nests, Node.nestAll, Continuation.take?, Block.ofNodes, hblock, and_true]
      exact ⟨.continueJump hs hgrammar, Node.mentionsAny_cons rfl rfl hflat⟩
  | ifTest _ _ ihb ihr =>
      obtain ⟨⟨hbody, hbodyFlat⟩, hbodyBlock⟩ := ihb
      obtain ⟨hchain, hafter, hafterBlock⟩ := ihr
      obtain ⟨⟨hrest, hrestFlat⟩, hno, hrestBlock⟩ := hchain _ hafter
      simp only [Place.Nests, Node.nestAll, Continuation.take?, Block.ofNodes, hbodyBlock, hno,
        hrestBlock, hafterBlock, and_true]
      exact ⟨.ifTest hbody hrest, Node.mentionsAny_cons rfl hbodyFlat hrestFlat⟩
  | whileLoop _ _ ihb ihr =>
      obtain ⟨⟨hbody, hbodyFlat⟩, hbodyBlock⟩ := ihb
      obtain ⟨⟨hgrammar, hflat⟩, hblock⟩ := ihr
      simp only [Place.Nests, Node.nestAll, Continuation.take?, Block.ofNodes, hbodyBlock, hblock,
        and_true]
      exact ⟨.whileLoop hbody hgrammar, Node.mentionsAny_cons rfl hbodyFlat hflat⟩
  | doLoop _ hclosing ihb ihr =>
      obtain ⟨⟨hbody, hbodyFlat⟩, hbodyBlock⟩ := ihb
      obtain ⟨⟨hgrammar, hflat⟩, -, hblock⟩ := ihr
      cases hclosing with
      | closing =>
          simp only [Node.nestAll, Continuation.take?, Block.ofNodes] at hgrammar hflat hblock
          simp only [Place.Nests, Node.nestAll, Continuation.take?, Block.ofNodes, Node.closing?,
            if_true, hbodyBlock, hblock, and_true]
          exact ⟨.doLoop hbody hgrammar, Node.mentionsAny_cons rfl hbodyFlat hflat⟩
  | switch _ _ ihb ihr =>
      obtain ⟨⟨hcases, hcasesFlat⟩, hbranches⟩ := ihb
      obtain ⟨⟨hgrammar, hflat⟩, hblock⟩ := ihr
      simp only [Place.Nests, Node.nestAll, Continuation.take?, Block.ofNodes, hbranches, hblock,
        and_true]
      exact ⟨.switch hcases hgrammar, Node.mentionsAny_cons rfl hcasesFlat hflat⟩
  | tryBlock _ _ ihb ihr =>
      obtain ⟨⟨hbody, hbodyFlat⟩, hbodyBlock⟩ := ihb
      obtain ⟨⟨hgrammar, hflat⟩, hhandlers, hblock⟩ := ihr
      simp only [Place.Nests, Node.nestAll, Continuation.take?, Block.ofNodes, hbodyBlock,
        hhandlers, hblock, and_true]
      exact ⟨.tryBlock hbody hgrammar, Node.mentionsAny_cons rfl hbodyFlat hflat⟩
  | elifTest _ _ ihb ihr =>
      obtain ⟨⟨hbody, hbodyFlat⟩, hbodyBlock⟩ := ihb
      obtain ⟨hchain, hafter⟩ := ihr
      -- the `else` holds an `if` with the rest of the chain, after which nothing follows in it
      obtain ⟨⟨hrest, hrestFlat⟩, hno, hrestBlock⟩ := hchain [] ⟨.nil, rfl⟩
      rw [List.append_nil] at hrest hrestFlat hno hrestBlock
      simp only [Place.Nests, Node.nestAll, Node.nestElse, Continuation.take?, Block.ofNodes,
        Block.alternative, List.cons_append, List.nil_append, hbodyBlock, hno, hrestBlock, and_true]
      refine ⟨fun rest htail => ⟨.elseBlock (.ifTest hbody hrest) htail.grammar, ?_⟩, hafter⟩
      exact Node.mentionsAny_cons rfl (Node.mentionsAny_cons rfl hbodyFlat hrestFlat) htail.flat
  | elseBlock _ _ ihb ihr =>
      obtain ⟨⟨hbody, hbodyFlat⟩, hbodyBlock⟩ := ihb
      simp only [Place.Nests, Node.nestAll, Node.nestElse, Continuation.take?, Block.ofNodes,
        Block.alternative, List.cons_append, List.nil_append, hbodyBlock, and_true]
      refine ⟨fun rest htail => ⟨.elseBlock hbody htail.grammar, ?_⟩, ihr⟩
      exact Node.mentionsAny_cons rfl hbodyFlat htail.flat
  | chainEnd hrest ih =>
      obtain ⟨hnone, hsame⟩ := Node.nest_of_block hrest
      obtain ⟨hchain, halternative, -, -⟩ := Block.ofNodes_of_block hrest
      simp only [Place.Nests, hnone, hsame, hchain, halternative, List.nil_append]
      refine ⟨fun rest hrest => ?_, ih⟩
      obtain ⟨hchain, halternative, -, -⟩ := Block.ofNodes_of_block hrest.grammar
      exact ⟨⟨.chainEnd hrest.grammar, hrest.flat⟩, halternative, hchain⟩
  | closing _ ih =>
      obtain ⟨⟨hgrammar, hflat⟩, hblock⟩ := ih
      simp only [Place.Nests, Node.nestAll, Continuation.take?, Block.ofNodes, Node.closing?, hblock,
        and_true]
      exact ⟨.closing hgrammar, Node.mentionsAny_cons rfl rfl hflat⟩
  | firstCase _ _ ihb ihr =>
      obtain ⟨⟨hbody, hbodyFlat⟩, hbodyBlock⟩ := ihb
      obtain ⟨⟨hgrammar, hflat⟩, hbranches⟩ := ihr
      simp only [Place.Nests, Node.nestAll, Continuation.take?, Block.branches, hbodyBlock, hbranches,
        and_true]
      exact ⟨.firstCase hbody hgrammar, Node.mentionsAny_cons rfl hbodyFlat hflat⟩
  | nextCase _ ih => exact ⟨⟨.nextCase ih.1.grammar, ih.1.flat⟩, ih.2⟩
  | lastCase =>
      simp only [Place.Nests, Node.nestAll, and_true]
      exact ⟨.lastCase, rfl⟩
  | except _ _ ihb ihr =>
      obtain ⟨⟨hbody, hbodyFlat⟩, hbodyBlock⟩ := ihb
      obtain ⟨⟨hgrammar, hflat⟩, hhandlers, hblock⟩ := ihr
      simp only [Place.Nests, Node.nestAll, Continuation.take?, Block.handlers, Block.ofNodes,
        hbodyBlock, hhandlers, hblock, and_true]
      exact ⟨.except hbody hgrammar, Node.mentionsAny_cons rfl hbodyFlat hflat⟩
  | nextHandler _ ih => exact ⟨⟨.nextHandler ih.1.grammar, ih.1.flat⟩, ih.2⟩
  | lastHandler hrest ih =>
      obtain ⟨⟨hgrammar, hflat⟩, hblock⟩ := ih
      obtain ⟨-, -, hafter, hhandlers⟩ := Block.ofNodes_of_block hrest
      obtain ⟨-, -, hafter', hhandlers'⟩ := Block.ofNodes_of_block hgrammar
      simp only [Place.Nests, hafter, hhandlers, hafter', hhandlers', hblock, and_true]
      exact ⟨.lastHandler hgrammar, hflat⟩

/-- Nesting keeps a program a program, with the same statements and without any `elif`. -/
theorem Node.nest_of_isProgram {program : Node} (h : program.IsProgram) :
    program.nest.IsProgram ∧ program.nest.mentions .elifTest = false ∧
      Block.ofProgram program.nest = Block.ofProgram program := by
  obtain ⟨statements, rfl, hgrammar⟩ := h
  obtain ⟨⟨hnested, hflat⟩, hblock⟩ := nests_of_grammar hgrammar
  refine ⟨⟨_, rfl, hnested⟩, ?_, hblock⟩
  unfold nest mentions
  rw [hflat]
  rfl

/-- A source that the parser accepts has the same layout as the program in which every `elif` is an
`if` in an `else`. -/
theorem layout_of_nest {α : Type} [Scalar α] [LawfulScalar α] (config : Config α)
    (measure : Measure α) (source : String) (program : Node)
    (h : config.lexis.parse source = .ok program) :
    program.nest.IsProgram ∧ program.nest.mentions .elifTest = false ∧
      ∃ l, Layout.ofProgram config measure program = .ok l ∧
        Layout.ofProgram config measure program.nest = .ok l := by
  have hprogram := Rules.isProgram_of_parse h
  obtain ⟨hnested, hflat, hblock⟩ := Node.nest_of_isProgram hprogram
  obtain ⟨l, hl⟩ := Context.ofProgram_ok config measure hprogram
  refine ⟨hnested, hflat, l, hl, ?_⟩
  -- both layouts are those of their statements, however their chains are written
  rw [Layout.ofProgram_eq] at hl ⊢
  rw [hblock]
  exact hl

/-- The `elif` of the sample becomes a second decision in the `else` of the first one, with the old
`else` as its own. -/
theorem layout_of_nest_branching :
    (Config.classic : Config Float32).lexis.parse Sample.branchingSource =
      .ok Sample.branchingProgram ∧
    Sample.branchingProgram.nest = ⟨.program, 0, "",
      [⟨.whileLoop, 1, "more",
          [⟨.ifTest, 2, "bad", [⟨.breakJump, 3, "", []⟩, ⟨.text, 4, "log", []⟩]⟩,
            ⟨.elseBlock, 5, "",
              [⟨.ifTest, 5, "odd", [⟨.continueJump, 6, "", []⟩]⟩,
                ⟨.elseBlock, 7, "", [⟨.text, 8, "use", []⟩]⟩]⟩]⟩,
        ⟨.text, 9, "stop", []⟩]⟩ ∧
    ∃ l, Layout.ofProgram (Config.classic : Config Float32) (fun _ _ => ⟨30.0, 10.0⟩)
        Sample.branchingProgram = .ok l ∧
      Layout.ofProgram (Config.classic : Config Float32) (fun _ _ => ⟨30.0, 10.0⟩)
        Sample.branchingProgram.nest = .ok l := by
  refine ⟨Sample.parse_branching, ?_, (layout_of_nest Config.classic (fun _ _ => ⟨30.0, 10.0⟩)
    Sample.branchingSource Sample.branchingProgram Sample.parse_branching).2.2⟩
  simp [Sample.branchingProgram, Sample.branching, Node.renumber, Node.nest, Node.nestAll,
    Node.nestElse, Continuation.take?, Node.countAll, Node.count]

end Flowchart
