import Flowchart.Chart.Arrange
/-!
Statements: a program with its constructs put together. In the syntax tree an `else` is a sibling of
its `if`; here a decision holds both of its blocks. An `elif` is a decision in the block for "no",
and a missing `else` is an empty block.
-/
namespace Flowchart

/-- A statement, with its blocks. A `flaw` stands for a line that has no place where it is; it does
no harm as long as control does not reach it. -/
inductive Statement where
  | text (content : String)
  | pass
  | decision (test : String) (yes no : List Statement)
  | whileLoop (test : String) (body : List Statement)
  | doLoop (body : List Statement) (test : String)
  | switch (subject : String) (cases : List (String × List Statement))
  | tryBlock (body : List Statement) (handlers : List (String × List Statement))
  | jump (j : Jump)
  | flaw (fault : LayoutFault)
deriving Repr

abbrev Block := List Statement

/-- Labelled blocks side by side: the cases of a switch, the handlers of a try. -/
abbrev Branches := List (String × Block)

namespace Block

mutual

/-- The statements of a run of siblings, less those that belong to the construct before them. -/
def ofNodes (after : Continuation) : List Node → Block
  | [] => []
  | ⟨kind, line, content, children⟩ :: rest =>
    match after.take? kind with
    | some next => ofNodes next rest
    | none =>
      match kind with
      | .text => .text content :: ofNodes .none rest
      | .pass => .pass :: ofNodes .none rest
      | .ifTest =>
        .decision content (ofNodes .none children) (alternative rest) :: ofNodes .chain rest
      | .whileLoop => .whileLoop content (ofNodes .none children) :: ofNodes .none rest
      | .doLoop =>
        match Node.closing? rest with
        | some test => .doLoop (ofNodes .none children) test :: ofNodes .closing rest
        | none => .flaw (.unclosedDo line) :: ofNodes .none rest
      | .switch => .switch content (branches children) :: ofNodes .none rest
      | .tryBlock =>
        .tryBlock (ofNodes .none children) (handlers rest) :: ofNodes .handlers rest
      | .breakJump => .jump .leave :: ofNodes .none rest
      | .continueJump => .jump .resume :: ofNodes .none rest
      | .forLoop => .flaw (.forLoop line) :: ofNodes .none rest
      | .program | .elifTest | .elseBlock | .case | .except =>
        .flaw (.misplaced kind line) :: ofNodes .none rest

/-- What happens if the test before these siblings fails: the `elif` and `else` lines that follow
it, up to the first `else`. -/
def alternative : List Node → Block
  | [] => []
  | ⟨kind, _, content, children⟩ :: rest =>
    match kind with
    | .elifTest => [.decision content (ofNodes .none children) (alternative rest)]
    | .elseBlock => ofNodes .none children
    | _ => []

def handlers : List Node → Branches
  | [] => []
  | ⟨kind, _, content, children⟩ :: rest =>
    match kind with
    | .except => (content, ofNodes .none children) :: handlers rest
    | _ => []

/-- Every child as a branch, whatever its kind. -/
def branches : List Node → Branches
  | [] => []
  | ⟨_, _, content, children⟩ :: rest => (content, ofNodes .none children) :: branches rest

end

def ofProgram (program : Node) : Block := ofNodes .none program.children

/-- The jump that a block consists of as far as control can see. -/
def soleJump? : Block → Option Jump
  | .jump j :: _ => some j
  | _ => none

end Block
end Flowchart
