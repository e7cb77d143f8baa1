/-!
The syntax tree of a pseudocode program. A node is one line together with the block indented
below it; what belongs to which construct is left to the order of siblings.
-/
namespace Flowchart

inductive NodeKind where
  | program
  | text
  | ifTest
  | elifTest
  | elseBlock
  | whileLoop
  | doLoop
  | forLoop
  | switch
  | case
  | tryBlock
  | except
  | breakJump
  | continueJump
  | pass
deriving DecidableEq, Repr, Inhabited

namespace NodeKind

def word : NodeKind → String
  | .program => "program"
  | .text => "text"
  | .ifTest => "if"
  | .elifTest => "elif"
  | .elseBlock => "else"
  | .whileLoop => "while"
  | .doLoop => "do"
  | .forLoop => "for"
  | .switch => "switch"
  | .case => "case"
  | .tryBlock => "try"
  | .except => "except"
  | .breakJump => "break"
  | .continueJump => "continue"
  | .pass => "pass"

/-- The kinds that a line names with its first word. -/
def keywords : List NodeKind :=
  [.ifTest, .elifTest, .elseBlock, .whileLoop, .doLoop, .forLoop, .switch, .case, .tryBlock,
    .except, .breakJump, .continueJump, .pass]

def ofKeyword? (token : String) : Option NodeKind :=
  keywords.find? (·.word == token)

theorem ofKeyword?_word : ∀ k ∈ keywords, ofKeyword? k.word = some k := by
  decide

def isLoop : NodeKind → Bool
  | .whileLoop | .doLoop | .forLoop => true
  | _ => false

def isJump : NodeKind → Bool
  | .breakJump | .continueJump => true
  | _ => false

end NodeKind

/-- A line of a program, by its number in the source, and the block below it. -/
structure Node where
  kind : NodeKind
  line : Nat
  content : String
  children : List Node
deriving BEq, Repr, Inhabited

namespace Node

def root : Node := ⟨.program, 0, "", []⟩

def push (parent child : Node) : Node := { parent with children := parent.children ++ [child] }

mutual

def count : Node → Nat
  | ⟨_, _, _, children⟩ => 1 + countAll children

def countAll : List Node → Nat
  | [] => 0
  | node :: rest => count node + countAll rest

end

end Node
end Flowchart
