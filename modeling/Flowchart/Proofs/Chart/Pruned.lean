import Flowchart.Proofs.Chart.Flow
/-! Dead code has no influence on a chart. A program whose blocks stop at the first statement that
control cannot fall out of has the same layout as before. -/
namespace Flowchart

/-- No words at the exits: where control goes does not depend on them. -/
def Words.bare : Words := ⟨"", ""⟩

namespace Statement

/-- Whether control falls out of a statement. -/
def fallsThrough (s : Statement) : Bool := (s.picture .bare).alive

mutual

/-- A statement without the dead code in its blocks. -/
def prune : Statement → Statement
  | .text content => .text content
  | .pass => .pass
  | .decision test yes no => .decision test (pruneAll yes) (pruneAll no)
  | .whileLoop test body => .whileLoop test (pruneAll body)
  | .doLoop body test => .doLoop (pruneAll body) test
  | .switch subject cases => .switch subject (pruneBranches cases)
  | .tryBlock body handlers => .tryBlock (pruneAll body) (pruneBranches handlers)
  | .jump j => .jump j
  | .flaw fault => .flaw fault

/-- A block up to the first statement that control does not fall out of. -/
def pruneAll : List Statement → List Statement
  | [] => []
  | s :: rest => prune s :: if s.fallsThrough then pruneAll rest else []

def pruneBranches : List (String × List Statement) → List (String × List Statement)
  | [] => []
  | (label, block) :: rest => (label, pruneAll block) :: pruneBranches rest

end

theorem pruneAll_cons {s : Statement} (h : s.fallsThrough = true) (rest : Block) :
    pruneAll (s :: rest) = s.prune :: pruneAll rest := by
  rw [pruneAll, if_pos h]

theorem pruneAll_stop {s : Statement} (h : s.fallsThrough = false) (rest : Block) :
    pruneAll (s :: rest) = [s.prune] := by
  rw [pruneAll, if_neg (Bool.eq_false_iff.mp h)]

mutual

theorem picture_prune (s : Statement) : s.prune.picture .bare = s.picture .bare := by
  match s with
  | .text _ | .pass | .jump _ | .flaw _ => rw [prune]
  | .decision test yes no => simp only [prune, picture, pictureAll_prune yes, pictureAll_prune no]
  | .whileLoop test body => simp only [prune, picture, pictureAll_prune body]
  | .doLoop body test => simp only [prune, picture, pictureAll_prune body]
  | .switch subject cases => simp only [prune, picture, pictureBranches_prune cases]
  | .tryBlock body handlers =>
      simp only [prune, picture, pictureAll_prune body, pictureBranches_prune handlers]

theorem pictureAll_prune (block : List Statement) :
    pictureAll .bare (pruneAll block) = pictureAll .bare block := by
  match block with
  | [] => rw [pruneAll]
  | s :: rest =>
      cases hfalls : s.fallsThrough with
      | true =>
          rw [pruneAll_cons hfalls, pictureAll, pictureAll, picture_prune s, pictureAll_prune rest]
      | false =>
          have hdead : (s.picture .bare).alive = false := hfalls
          simp only [pruneAll_stop hfalls, pictureAll, picture_prune s,
            Picture.followedBy_of_dead hdead]

theorem pictureBranches_prune (branches : List (String × List Statement)) :
    pictureBranches .bare (pruneBranches branches) = pictureBranches .bare branches := by
  match branches with
  | [] => rw [pruneBranches]
  | (label, block) :: rest =>
      simp only [pruneBranches, pictureBranches, pictureAll_prune block, pictureBranches_prune rest]

end

theorem fallsThrough_prune (s : Statement) : s.prune.fallsThrough = s.fallsThrough :=
  congrArg Picture.alive s.picture_prune

mutual

theorem prune_prune (s : Statement) : s.prune.prune = s.prune := by
  match s with
  | .text _ | .pass | .jump _ | .flaw _ => simp only [prune]
  | .decision test yes no => simp only [prune, pruneAll_pruneAll yes, pruneAll_pruneAll no]
  | .whileLoop test body => simp only [prune, pruneAll_pruneAll body]
  | .doLoop body test => simp only [prune, pruneAll_pruneAll body]
  | .switch subject cases => simp only [prune, pruneBranches_pruneBranches cases]
  | .tryBlock body handlers =>
      simp only [prune, pruneAll_pruneAll body, pruneBranches_pruneBranches handlers]

theorem pruneAll_pruneAll (block : List Statement) :
    pruneAll (pruneAll block) = pruneAll block := by
  match block with
  | [] => simp only [pruneAll]
  | s :: rest =>
      have hfalls := s.fallsThrough_prune
      cases h : s.fallsThrough with
      | true =>
          rw [pruneAll_cons h, pruneAll_cons (hfalls.trans h), prune_prune s, pruneAll_pruneAll rest]
      | false => rw [pruneAll_stop h, pruneAll_stop (hfalls.trans h), prune_prune s]

theorem pruneBranches_pruneBranches (branches : List (String × List Statement)) :
    pruneBranches (pruneBranches branches) = pruneBranches branches := by
  match branches with
  | [] => simp only [pruneBranches]
  | (label, block) :: rest =>
      simp only [pruneBranches, pruneAll_pruneAll block, pruneBranches_pruneBranches rest]

end

theorem soleJump?_prune (block : Block) :
    Block.soleJump? (pruneAll block) = Block.soleJump? block := by
  cases block with
  | nil => rw [pruneAll]
  | cons s rest =>
      rw [pruneAll]
      cases s <;> rfl

end Statement

namespace Context
open Statement
variable {α : Type} [Scalar α] {x : Context α}

mutual

/-- Pruned statements are laid out as before, on whatever strand. -/
theorem arrange_prune (s : Statement) (c : Strand α) : x.arrange s.prune c = x.arrange s c := by
  match s with
  | .text _ | .pass | .jump _ | .flaw _ => rw [prune]
  | .decision test yes no =>
      rw [prune, arrange, arrange, soleJump?_prune, soleJump?_prune, funext (arrangeAll_prune yes),
        funext (arrangeAll_prune no)]
  | .whileLoop test body => rw [prune, arrange, arrange, funext (arrangeAll_prune body)]
  | .doLoop body test => rw [prune, arrange, arrange, funext (arrangeAll_prune body)]
  | .switch subject cases => rw [prune, arrange, arrange, arrangeBranches_prune cases]
  | .tryBlock body handlers =>
      rw [prune, arrange, arrange, funext (arrangeAll_prune body), arrangeBranches_prune handlers]

theorem arrangeAll_prune (block : List Statement) (c : Strand α) :
    x.arrangeAll (pruneAll block) c = x.arrangeAll block c := by
  match block with
  | [] => rw [pruneAll]
  | s :: rest =>
      rw [pruneAll, arrangeAll, arrangeAll, arrange_prune s]
      split
      · next alive =>
          cases hs : x.arrange s c with
          | error fault => rfl
          | ok mid =>
              change x.arrangeAll _ mid = x.arrangeAll rest mid
              split
              · exact arrangeAll_prune rest mid
              · next hstop =>
                  have dead := (alive_of_arrange hs alive .bare).trans (Bool.eq_false_iff.mpr hstop)
                  rw [arrangeAll_of_dead dead, arrangeAll_of_dead dead]
      · rfl

theorem arrangeBranches_prune (branches : List (String × List Statement)) (index : Nat) :
    x.arrangeBranches index (pruneBranches branches) = x.arrangeBranches index branches := by
  match branches with
  | [] => rw [pruneBranches]
  | (label, block) :: rest =>
      funext plan f
      rw [pruneBranches, arrangeBranches, arrangeBranches, arrangeAll_prune block,
        arrangeBranches_prune rest]

end

end Context

/-- Which siblings belong to the statement that a line of this kind begins. -/
def Continuation.of : NodeKind → Continuation
  | .ifTest => .chain
  | .doLoop => .closing
  | .tryBlock => .handlers
  | _ => .none

namespace Node

/-- Whether control falls out of the statement that a line begins, given the siblings after it: not
out of a jump; out of a decision or a `try` through any of its blocks, and out of a decision without
an `else` in any case; out of a switch through one of its cases or by a break in one; and out of
everything else. -/
def fallsThrough (kind : NodeKind) (children rest : List Node) : Bool :=
  match kind with
  | .breakJump | .continueJump => false
  | .ifTest => (Picture.ofBlock .bare children).alive || (Picture.ofElse .bare rest).alive
  | .tryBlock =>
    (Picture.ofBlock .bare children).alive || (Picture.ofBranches .bare .except rest).alive
  | .switch =>
    let cases := Picture.ofBranches .bare .case children
    cases.alive || cases.breaks
  | _ => true

/-- Siblings without dead code, after some that belong to the statement before them. No statement is
kept unless control is `live`, or after one that control does not fall out of. -/
def pruneAll (live : Bool) (after : Continuation) : List Node → List Node
  | [] => []
  | ⟨kind, line, content, children⟩ :: rest =>
    match after.take? kind with
    | some next => ⟨kind, line, content, pruneAll true .none children⟩ :: pruneAll live next rest
    | none =>
      if live then
        ⟨kind, line, content, pruneAll true .none children⟩ ::
          pruneAll (fallsThrough kind children rest) (.of kind) rest
      else []

def prune (program : Node) : Node :=
  { program with children := pruneAll true .none program.children }

theorem pruneAll_dead (nodes : List Node) : pruneAll false .none nodes = [] := by
  cases nodes with
  | nil => rw [pruneAll]
  | cons node rest =>
      obtain ⟨kind, line, content, children⟩ := node
      cases kind <;> simp [pruneAll, Continuation.take?]

end Node

open Node in
/-- What pruning the siblings at a place leaves: the same grammar, and pruned blocks. -/
def Place.Prunes (s : Scope) (nodes : List Node) : Place → Prop
  | .block => Grammar .block s (pruneAll true .none nodes) ∧
      Block.ofNodes .none (pruneAll true .none nodes) =
        Statement.pruneAll (Block.ofNodes .none nodes)
  | .chain => ∀ live, Grammar .chain s (pruneAll live .chain nodes) ∧
      Block.alternative (pruneAll live .chain nodes) =
        Statement.pruneAll (Block.alternative nodes) ∧
      Block.ofNodes .chain (pruneAll live .chain nodes) =
        if live then Statement.pruneAll (Block.ofNodes .chain nodes) else []
  | .closing => Grammar .closing s (pruneAll true .closing nodes) ∧
      Node.closing? (pruneAll true .closing nodes) = Node.closing? nodes ∧
      Block.ofNodes .closing (pruneAll true .closing nodes) =
        Statement.pruneAll (Block.ofNodes .closing nodes)
  | .firstCase => Grammar .firstCase s (pruneAll true .none nodes) ∧
      Block.branches (pruneAll true .none nodes) = Statement.pruneBranches (Block.branches nodes)
  | .cases => Grammar .cases s (pruneAll true .none nodes) ∧
      Block.branches (pruneAll true .none nodes) = Statement.pruneBranches (Block.branches nodes)
  | .firstHandler => ∀ live, Grammar .firstHandler s (pruneAll live .handlers nodes) ∧
      Block.handlers (pruneAll live .handlers nodes) =
        Statement.pruneBranches (Block.handlers nodes) ∧
      Block.ofNodes .handlers (pruneAll live .handlers nodes) =
        if live then Statement.pruneAll (Block.ofNodes .handlers nodes) else []
  | .handlers => ∀ live, Grammar .handlers s (pruneAll live .handlers nodes) ∧
      Block.handlers (pruneAll live .handlers nodes) =
        Statement.pruneBranches (Block.handlers nodes) ∧
      Block.ofNodes .handlers (pruneAll live .handlers nodes) =
        if live then Statement.pruneAll (Block.ofNodes .handlers nodes) else []

/-- Where a statement begins, the rest of the siblings is pruned if control is live, and cut if not. -/
theorem cut_of_block {s : Scope} {nodes : List Node} (h : Grammar .block s nodes)
    (ih : Place.Prunes s nodes .block) (live : Bool) :
    ∃ cut, Node.pruneAll live .chain nodes = cut ∧ Node.pruneAll live .handlers nodes = cut ∧
      Grammar .block s cut ∧ Block.ofNodes .none cut =
        if live then Statement.pruneAll (Block.ofNodes .none nodes) else [] := by
  have hsame : Node.pruneAll live .chain nodes = Node.pruneAll live .none nodes ∧
      Node.pruneAll live .handlers nodes = Node.pruneAll live .none nodes := by
    cases h <;> refine ⟨?_, ?_⟩ <;> simp [Node.pruneAll, Continuation.take?]
  refine ⟨Node.pruneAll live .none nodes, hsame.1, hsame.2, ?_⟩
  cases live with
  | true => exact ih
  | false =>
      rw [Node.pruneAll_dead]
      exact ⟨.nil, by rw [Block.ofNodes]; rfl⟩

/-- Control falls out of a construct exactly if it falls out of its statement. -/
theorem Node.fallsThrough_ifTest {s : Scope} {body rest : List Node} (hbody : Grammar .block s body)
    (hrest : Grammar .chain s rest) (content : String) :
    Node.fallsThrough .ifTest body rest =
      (Statement.decision content (Block.ofNodes .none body) (Block.alternative rest)).fallsThrough := by
  unfold Node.fallsThrough Statement.fallsThrough
  dsimp only
  rw [agrees_of_grammar _ hbody, (agrees_of_grammar _ hrest).1, Statement.picture]
  rfl

theorem Node.fallsThrough_switch {s : Scope} {cases : List Node} (hcases : Grammar .firstCase s cases)
    (rest : List Node) (content : String) :
    Node.fallsThrough .switch cases rest =
      (Statement.switch content (Block.branches cases)).fallsThrough := by
  unfold Node.fallsThrough Statement.fallsThrough
  dsimp only
  rw [agrees_of_grammar _ hcases, Statement.picture]
  rfl

theorem Node.fallsThrough_tryBlock {s : Scope} {body rest : List Node}
    (hbody : Grammar .block s body) (hrest : Grammar .firstHandler s rest) :
    Node.fallsThrough .tryBlock body rest =
      (Statement.tryBlock (Block.ofNodes .none body) (Block.handlers rest)).fallsThrough := by
  unfold Node.fallsThrough Statement.fallsThrough
  dsimp only
  rw [agrees_of_grammar _ hbody, (agrees_of_grammar _ hrest).1, Statement.picture]
  rfl

theorem prunes_of_grammar {place : Place} {s : Scope} {nodes : List Node}
    (h : Grammar place s nodes) : place.Prunes s nodes := by
  induction h with
  | nil =>
      simp only [Place.Prunes, Node.pruneAll, Block.ofNodes, Statement.pruneAll, and_true]
      exact .nil
  | text _ ih =>
      obtain ⟨hgrammar, hblock⟩ := ih
      simp only [Place.Prunes, Node.pruneAll, Continuation.take?, Continuation.of, Node.fallsThrough,
        Block.ofNodes, if_true, hblock]
      refine ⟨.text hgrammar, ?_⟩
      rw [Statement.pruneAll_cons rfl, Statement.prune]
  | pass _ ih =>
      obtain ⟨hgrammar, hblock⟩ := ih
      simp only [Place.Prunes, Node.pruneAll, Continuation.take?, Continuation.of, Node.fallsThrough,
        Block.ofNodes, if_true, hblock]
      refine ⟨.pass hgrammar, ?_⟩
      rw [Statement.pruneAll_cons rfl, Statement.prune]
  | breakJump hs _ _ =>
      simp only [Place.Prunes, Node.pruneAll, Continuation.take?, Continuation.of, Node.fallsThrough,
        Block.ofNodes, if_true, Node.pruneAll_dead]
      refine ⟨.breakJump hs .nil, ?_⟩
      rw [Statement.pruneAll_stop rfl, Statement.prune]
  | continueJump hs _ _ =>
      simp only [Place.Prunes, Node.pruneAll, Continuation.take?, Continuation.of, Node.fallsThrough,
        Block.ofNodes, if_true, Node.pruneAll_dead]
      refine ⟨.continueJump hs .nil, ?_⟩
      rw [Statement.pruneAll_stop rfl, Statement.prune]
  | @ifTest s line content body rest hbody hrest ihb ihr =>
      obtain ⟨hpruned, hblock⟩ := ihb
      obtain ⟨hgrammar, hno, hafter⟩ := ihr (Node.fallsThrough .ifTest body rest)
      simp only [Place.Prunes, Node.pruneAll, Continuation.take?, Continuation.of, Block.ofNodes,
        if_true, hblock, hno, hafter]
      refine ⟨.ifTest hpruned hgrammar, ?_⟩
      rw [Statement.pruneAll, Statement.prune, Node.fallsThrough_ifTest hbody hrest content]
  | whileLoop _ _ ihb ihr =>
      obtain ⟨hbody, hbodyBlock⟩ := ihb
      obtain ⟨hgrammar, hblock⟩ := ihr
      simp only [Place.Prunes, Node.pruneAll, Continuation.take?, Continuation.of, Node.fallsThrough,
        Block.ofNodes, if_true, hbodyBlock, hblock]
      refine ⟨.whileLoop hbody hgrammar, ?_⟩
      rw [Statement.pruneAll_cons rfl, Statement.prune]
  | doLoop _ hclosing ihb ihr =>
      obtain ⟨hbody, hbodyBlock⟩ := ihb
      obtain ⟨hgrammar, htest, hblock⟩ := ihr
      obtain ⟨⟨test, hsome⟩, -⟩ := fits_of_grammar hclosing
      simp only [Place.Prunes, Node.pruneAll, Continuation.take?, Continuation.of, Node.fallsThrough,
        Block.ofNodes, if_true, htest, hsome, hbodyBlock, hblock]
      refine ⟨.doLoop hbody hgrammar, ?_⟩
      rw [Statement.pruneAll_cons rfl, Statement.prune]
  | @switch s line content cases rest hcases _ ihb ihr =>
      obtain ⟨hpruned, hbranches⟩ := ihb
      obtain ⟨hgrammar, hblock⟩ := ihr
      simp only [Place.Prunes, Node.pruneAll, Continuation.take?, Continuation.of, Block.ofNodes,
        if_true, hbranches]
      rw [Node.fallsThrough_switch hcases rest content, Statement.pruneAll, Statement.prune]
      cases (Statement.switch content (Block.branches cases)).fallsThrough with
      | true => exact ⟨.switch hpruned hgrammar, congrArg _ hblock⟩
      | false =>
          rw [Node.pruneAll_dead]
          exact ⟨.switch hpruned .nil, by rw [Block.ofNodes]; rfl⟩
  | @tryBlock s line content body rest hbody hrest ihb ihr =>
      obtain ⟨hpruned, hblock⟩ := ihb
      obtain ⟨hgrammar, hhandlers, hafter⟩ := ihr (Node.fallsThrough .tryBlock body rest)
      simp only [Place.Prunes, Node.pruneAll, Continuation.take?, Continuation.of, Block.ofNodes,
        if_true, hblock, hhandlers, hafter]
      refine ⟨.tryBlock hpruned hgrammar, ?_⟩
      rw [Statement.pruneAll, Statement.prune, Node.fallsThrough_tryBlock hbody hrest]
  | elifTest _ _ ihb ihr =>
      obtain ⟨hbody, hblock⟩ := ihb
      intro live
      obtain ⟨hgrammar, hno, hafter⟩ := ihr live
      simp only [Node.pruneAll, Continuation.take?, Block.alternative, Block.ofNodes, hblock, hno,
        hafter, and_true]
      refine ⟨.elifTest hbody hgrammar, ?_⟩
      rw [Statement.pruneAll, Statement.prune, Statement.pruneAll, ite_self]
  | elseBlock _ _ ihb ihr =>
      obtain ⟨hbody, hblock⟩ := ihb
      obtain ⟨hgrammar, hafter⟩ := ihr
      intro live
      simp only [Node.pruneAll, Continuation.take?, Block.alternative, Block.ofNodes, hblock, true_and]
      cases live with
      | true => exact ⟨.elseBlock hbody hgrammar, hafter⟩
      | false =>
          rw [Node.pruneAll_dead]
          exact ⟨.elseBlock hbody .nil, by rw [Block.ofNodes]; rfl⟩
  | chainEnd hrest ih =>
      intro live
      obtain ⟨cut, hcut, -, hgrammar, hblock⟩ := cut_of_block hrest ih live
      obtain ⟨hchain, halternative, -, -⟩ := Block.ofNodes_of_block hrest
      obtain ⟨hcutChain, hcutAlternative, -, -⟩ := Block.ofNodes_of_block hgrammar
      rw [hcut, hcutChain, hcutAlternative, hchain, halternative]
      exact ⟨.chainEnd hgrammar, by rw [Statement.pruneAll], hblock⟩
  | closing _ ih =>
      obtain ⟨hgrammar, hblock⟩ := ih
      simp only [Place.Prunes, Node.pruneAll, Continuation.take?, Block.ofNodes, Node.closing?,
        if_true, hblock, and_true]
      exact .closing hgrammar
  | firstCase _ _ ihb ihr =>
      obtain ⟨hbody, hblock⟩ := ihb
      obtain ⟨hgrammar, hbranches⟩ := ihr
      simp only [Place.Prunes, Node.pruneAll, Continuation.take?, Continuation.of, Node.fallsThrough,
        Block.branches, if_true, hblock, hbranches]
      refine ⟨.firstCase hbody hgrammar, ?_⟩
      rw [Statement.pruneBranches]
  | nextCase _ ih => exact ⟨.nextCase ih.1, ih.2⟩
  | lastCase =>
      simp only [Place.Prunes, Node.pruneAll, Block.branches, Statement.pruneBranches, and_true]
      exact .lastCase
  | except _ _ ihb ihr =>
      obtain ⟨hbody, hblock⟩ := ihb
      intro live
      obtain ⟨hgrammar, hhandlers, hafter⟩ := ihr live
      simp only [Node.pruneAll, Continuation.take?, Block.handlers, Block.ofNodes, hblock, hhandlers,
        hafter, and_true]
      refine ⟨.except hbody hgrammar, ?_⟩
      rw [Statement.pruneBranches]
  | nextHandler _ ih => exact fun live => ⟨.nextHandler (ih live).1, (ih live).2⟩
  | lastHandler hrest ih =>
      intro live
      obtain ⟨cut, -, hcut, hgrammar, hblock⟩ := cut_of_block hrest ih live
      obtain ⟨-, -, hafter, hhandlers⟩ := Block.ofNodes_of_block hrest
      obtain ⟨-, -, hcutAfter, hcutHandlers⟩ := Block.ofNodes_of_block hgrammar
      rw [hcut, hcutAfter, hcutHandlers, hafter, hhandlers]
      exact ⟨.lastHandler hgrammar, by rw [Statement.pruneBranches], hblock⟩

theorem Node.prune_of_isProgram {program : Node} (h : program.IsProgram) :
    program.prune.IsProgram ∧
      Block.ofProgram program.prune = Statement.pruneAll (Block.ofProgram program) := by
  obtain ⟨statements, rfl, hgrammar⟩ := h
  obtain ⟨hpruned, hblock⟩ := prunes_of_grammar hgrammar
  exact ⟨⟨_, rfl, hpruned⟩, hblock⟩

/-- A source that the parser accepts has the same layout as the program without its dead code, from
which nothing more can be pruned. -/
theorem layout_of_prune {α : Type} [Scalar α] [LawfulScalar α] (config : Config α)
    (measure : Measure α) (source : String) (program : Node)
    (h : config.lexis.parse source = .ok program) :
    program.prune.IsProgram ∧
      Statement.pruneAll (Block.ofProgram program.prune) = Block.ofProgram program.prune ∧
      ∃ l, Layout.ofProgram config measure program = .ok l ∧
        Layout.ofProgram config measure program.prune = .ok l := by
  have hprogram := Rules.isProgram_of_parse h
  obtain ⟨hpruned, hblock⟩ := Node.prune_of_isProgram hprogram
  obtain ⟨l, hl⟩ := Context.ofProgram_ok config measure hprogram
  refine ⟨hpruned, ?_, l, hl, ?_⟩
  · rw [hblock, Statement.pruneAll_pruneAll]
  · rw [Layout.ofProgram_eq] at hl ⊢
    rw [hblock, Context.arrangeAll_prune]
    exact hl

/-- The line after the break is never reached; without it the sample has the same layout. -/
theorem layout_of_prune_branching :
    (Config.classic : Config Float32).lexis.parse Sample.branchingSource =
      .ok Sample.branchingProgram ∧
    Sample.branchingProgram.prune = ⟨.program, 0, "",
      [⟨.whileLoop, 1, "more",
          [⟨.ifTest, 2, "bad", [⟨.breakJump, 3, "", []⟩]⟩,
            ⟨.elifTest, 5, "odd", [⟨.continueJump, 6, "", []⟩]⟩,
            ⟨.elseBlock, 7, "", [⟨.text, 8, "use", []⟩]⟩]⟩,
        ⟨.text, 9, "stop", []⟩]⟩ ∧
    ∃ l, Layout.ofProgram (Config.classic : Config Float32) (fun _ _ => ⟨30.0, 10.0⟩)
        Sample.branchingProgram = .ok l ∧
      Layout.ofProgram (Config.classic : Config Float32) (fun _ _ => ⟨30.0, 10.0⟩)
        Sample.branchingProgram.prune = .ok l := by
  refine ⟨Sample.parse_branching, ?_, (layout_of_prune Config.classic (fun _ _ => ⟨30.0, 10.0⟩)
    Sample.branchingSource Sample.branchingProgram Sample.parse_branching).2.2⟩
  simp [Sample.branchingProgram, Sample.branching, Node.renumber, Node.prune, Node.pruneAll,
    Node.fallsThrough, Continuation.take?, Continuation.of, Node.countAll, Node.count,
    Picture.ofBlock, Picture.ofElse, Picture.decision, Picture.below, Picture.beside,
    Picture.followedBy, Picture.of, Picture.nowhere, Picture.blank]

end Flowchart
