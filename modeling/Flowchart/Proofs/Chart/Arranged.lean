import Flowchart.Proofs.Chart.Block
/-! Laying out statements. What siblings begin is laid out as the statements that they stand for. An
`elif` is laid out straight on the arm of the test before it, which comes to the same as a block with
an `if` of its own. -/
namespace Flowchart
variable {α : Type} [Scalar α]

def Strand.soleJump (c : Strand α) (block : Block) :
    Except LayoutFault (Option (Jump × Direction)) :=
  c.aim block.soleJump?

namespace Context
variable (x : Context α)

mutual

def arrange (s : Statement) (c : Strand α) : Except LayoutFault (Strand α) :=
  match s with
  | .text content => .ok (x.arrangeText content c)
  | .pass => .ok { c with reach := c.reach + x.config.stepY }
  | .jump j => x.arrangeJump j c
  | .flaw fault => .error fault
  | .decision test yes no =>
    x.arrangeTest test (Block.soleJump? yes) (Block.soleJump? no) (arrangeAll yes) (arrangeAll no) c
  | .whileLoop test body => x.arrangeWhile test (arrangeAll body) c
  | .doLoop body test => x.arrangeDo (arrangeAll body) test c
  | .switch subject cases => x.arrangeSwitch subject (arrangeBranches 0 cases) c
  | .tryBlock body handlers => x.arrangeTry (arrangeAll body) (arrangeBranches 0 handlers) c

/-- Lays out a block as long as control falls out of its statements. -/
def arrangeAll (block : Block) (c : Strand α) : Except LayoutFault (Strand α) :=
  match block with
  | [] => .ok c
  | s :: rest =>
    if c.alive then do
      let c ← arrange s c
      arrangeAll rest c
    else .ok c

def arrangeBranches (index : Nat) (branches : Branches) (plan : FanPlan α) (f : Fan α) :
    Except LayoutFault (Fan α) :=
  match branches with
  | [] => .ok f
  | (label, block) :: rest => do
    let arm ← arrangeAll block (x.openBranch plan label f)
    arrangeBranches (index + 1) rest plan (x.closeBranch plan index arm f)

end

variable {x} {c : Strand α}

theorem arrangeAll_of_dead (dead : c.alive = false) (block : Block) : x.arrangeAll block c = .ok c := by
  cases block with
  | nil => rfl
  | cons s rest => rw [arrangeAll, if_neg (Bool.eq_false_iff.mp dead)]

theorem arrangeAll_singleton (alive : c.alive = true) (s : Statement) :
    x.arrangeAll [s] c = x.arrange s c := by
  rw [arrangeAll, if_pos alive]
  cases x.arrange s c <;> rfl

theorem arrangeTest_congr {test : String} {yesJump noJump : Option Jump}
    {yes no no' : Strand α → Except LayoutFault (Strand α)}
    (same : ∀ d : Strand α, d.alive = true → no d = no' d) :
    x.arrangeTest test yesJump noJump yes no = x.arrangeTest test yesJump noJump yes no' := by
  funext c
  unfold arrangeTest
  have arms (d : Strand α) (tip : α) : no (d.armFrom tip) = no' (d.armFrom tip) := same _ rfl
  simp only [arms]

end Context

theorem Block.soleJump?_ofNodes (nodes : List Node) :
    Block.soleJump? (Block.ofNodes .none nodes) = Node.soleJump? nodes := by
  unfold ofNodes
  cases nodes with
  | nil => rfl
  | cons node rest =>
      obtain ⟨kind, line, content, children⟩ := node
      cases kind with
      | doLoop =>
          dsimp only [Continuation.take?]
          cases Node.closing? rest <;> rfl
      | _ => rfl

theorem Block.soleJump?_alternative (nodes : List Node) :
    Block.soleJump? (Block.alternative nodes) = Node.elseJump? nodes := by
  unfold alternative
  cases nodes with
  | nil => rfl
  | cons node rest =>
      obtain ⟨kind, line, content, children⟩ := node
      cases kind with
      | elseBlock => exact soleJump?_ofNodes children
      | _ => rfl

namespace Context
variable {x : Context α}

theorem arrangeTest_eq {children rest : List Node} (test : String)
    (hyes : ∀ c, x.arrangeNodes .none children c = x.arrangeAll (Block.ofNodes .none children) c)
    (hno : ∀ c : Strand α, c.alive = true →
      x.arrangeAlternative rest c = x.arrangeAll (Block.alternative rest) c) :
    x.arrangeTest test (Node.soleJump? children) (Node.elseJump? rest) (x.arrangeNodes .none children)
        (x.arrangeAlternative rest) =
      x.arrange (.decision test (Block.ofNodes .none children) (Block.alternative rest)) := by
  funext c
  rw [arrange, Block.soleJump?_ofNodes, Block.soleJump?_alternative, arrangeTest_congr hno,
    funext hyes]

mutual

theorem arrangeNodes_eq (after : Continuation) (nodes : List Node) (c : Strand α) :
    x.arrangeNodes after nodes c = x.arrangeAll (Block.ofNodes after nodes) c := by
  match nodes with
  | [] => rw [arrangeNodes, Block.ofNodes, arrangeAll]
  | ⟨kind, line, content, children⟩ :: rest =>
    have hchildren := arrangeNodes_eq .none children
    have hrest := fun next => funext (arrangeNodes_eq next rest)
    unfold arrangeNodes Block.ofNodes
    cases after.take? kind with
    | some next => exact congrFun (hrest next) c
    | none =>
      dsimp only
      by_cases alive : c.alive = true
      case neg => rw [if_neg alive, arrangeAll_of_dead (eq_false_of_ne_true alive)]
      rw [if_pos alive]
      cases kind with
      | text | pass => rw [hrest, arrangeAll, if_pos alive, arrange]; rfl
      | breakJump | continueJump => rw [hrest, arrangeAll, if_pos alive, arrange]
      | ifTest =>
        dsimp only
        rw [arrangeTest_eq content hchildren (arrangeAlternative_eq rest), hrest, arrangeAll,
          if_pos alive]
      | whileLoop => rw [funext hchildren, hrest, arrangeAll, if_pos alive, arrange]
      | doLoop =>
        dsimp only
        cases Node.closing? rest with
        | none => rw [arrangeAll, if_pos alive, arrange]; rfl
        | some test => rw [funext hchildren, hrest, arrangeAll, if_pos alive, arrange]
      | switch =>
        rw [arrangeArms_cases 0 children, hrest, arrangeAll, if_pos alive, arrange]
      | tryBlock =>
        dsimp only
        rw [funext hchildren, arrangeArms_handlers 0 rest, hrest, arrangeAll, if_pos alive, arrange]
      | forLoop | program | elifTest | elseBlock | case | except =>
        rw [arrangeAll, if_pos alive, arrange]; rfl

/-- The rest of a chain is laid out as a block that consists of it. -/
theorem arrangeAlternative_eq (nodes : List Node) (c : Strand α) (alive : c.alive = true) :
    x.arrangeAlternative nodes c = x.arrangeAll (Block.alternative nodes) c := by
  match nodes with
  | [] => rw [arrangeAlternative, Block.alternative, arrangeAll]
  | ⟨kind, line, content, children⟩ :: rest =>
    unfold arrangeAlternative Block.alternative
    cases kind with
    | elseBlock => exact arrangeNodes_eq .none children c
    | elifTest =>
      dsimp only
      rw [arrangeTest_eq content (arrangeNodes_eq .none children) (arrangeAlternative_eq rest),
        arrangeAll_singleton alive]
    | _ => rfl

theorem arrangeArms_cases (index : Nat) (nodes : List Node) :
    x.arrangeArms false index nodes = x.arrangeBranches index (Block.branches nodes) := by
  match nodes with
  | [] => funext plan f; rw [arrangeArms, Block.branches, arrangeBranches]
  | ⟨kind, line, label, children⟩ :: rest =>
    funext plan f
    rw [arrangeArms, Block.branches, arrangeBranches, arrangeArms_cases (index + 1) rest,
      funext (arrangeNodes_eq .none children)]
    rfl

theorem arrangeArms_handlers (index : Nat) (nodes : List Node) :
    x.arrangeArms true index nodes = x.arrangeBranches index (Block.handlers nodes) := by
  match nodes with
  | [] => funext plan f; rw [arrangeArms, Block.handlers, arrangeBranches]
  | ⟨kind, line, label, children⟩ :: rest =>
    funext plan f
    unfold arrangeArms Block.handlers
    cases kind with
    | except =>
      dsimp only
      rw [arrangeBranches, arrangeArms_handlers (index + 1) rest,
        funext (arrangeNodes_eq .none children)]
      rfl
    | _ => rfl

end

theorem trunk_eq (program : Node) :
    x.trunk program = x.arrangeAll (Block.ofProgram program) x.root :=
  arrangeNodes_eq .none program.children x.root

end Context

/-- The layout of a program is that of its statements. -/
theorem Layout.ofProgram_eq (config : Config α) (measure : Measure α) (program : Node) :
    Layout.ofProgram config measure program =
      (Context.arrangeAll ⟨config, measure⟩ (Block.ofProgram program) (Context.root ⟨config, measure⟩)).map
        fun c => Context.canvas ⟨config, measure⟩ c.group := by
  unfold Layout.ofProgram
  dsimp only
  rw [Context.trunk_eq]
  rfl

theorem Layout.ofProgram_eq_ok_iff {config : Config α} {measure : Measure α} {program : Node}
    {l : Layout α} : Layout.ofProgram config measure program = .ok l ↔
      ∃ c, Context.arrangeAll ⟨config, measure⟩ (Block.ofProgram program)
          (Context.root ⟨config, measure⟩) = .ok c ∧
        Context.canvas ⟨config, measure⟩ c.group = l := by
  rw [ofProgram_eq]
  cases Context.arrangeAll ⟨config, measure⟩ (Block.ofProgram program)
    (Context.root ⟨config, measure⟩) with
  | error fault => simp [Except.map]
  | ok c => simp [Except.map]

end Flowchart
