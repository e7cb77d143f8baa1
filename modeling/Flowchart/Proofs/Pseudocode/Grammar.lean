import Flowchart.Pseudocode.Parse
/-! The block grammar. What may stand next among siblings depends on the sibling before, so the
grammar is given by places: a derivation at a place tells what the remaining siblings are. -/
namespace Flowchart

structure Scope where
  leave : Bool
  resume : Bool
deriving DecidableEq, Repr

namespace Scope

def outermost : Scope := ⟨false, false⟩

def inLoop : Scope := ⟨true, true⟩

def inSwitch (s : Scope) : Scope := { s with leave := true }

end Scope

/-- Places among siblings: where a statement begins, after the arm of a decision, after a `do`, in a
switch before its first and after some case, after a `try` and after one of its handlers. -/
inductive Place where
  | block
  | chain
  | closing
  | firstCase
  | cases
  | firstHandler
  | handlers
deriving DecidableEq, Repr

/-- The siblings that may follow at a place, with their blocks. -/
inductive Grammar : Place → Scope → List Node → Prop
  | nil {s} : Grammar .block s []
  | text {s line content rest} : Grammar .block s rest →
      Grammar .block s (⟨.text, line, content, []⟩ :: rest)
  | pass {s line content rest} : Grammar .block s rest →
      Grammar .block s (⟨.pass, line, content, []⟩ :: rest)
  | breakJump {s line content rest} : s.leave = true → Grammar .block s rest →
      Grammar .block s (⟨.breakJump, line, content, []⟩ :: rest)
  | continueJump {s line content rest} : s.resume = true → Grammar .block s rest →
      Grammar .block s (⟨.continueJump, line, content, []⟩ :: rest)
  | ifTest {s line content body rest} : Grammar .block s body → Grammar .chain s rest →
      Grammar .block s (⟨.ifTest, line, content, body⟩ :: rest)
  | whileLoop {s line content body rest} : Grammar .block .inLoop body → Grammar .block s rest →
      Grammar .block s (⟨.whileLoop, line, content, body⟩ :: rest)
  | doLoop {s line content body rest} : Grammar .block .inLoop body → Grammar .closing s rest →
      Grammar .block s (⟨.doLoop, line, content, body⟩ :: rest)
  | switch {s line content cases rest} : Grammar .firstCase s.inSwitch cases →
      Grammar .block s rest → Grammar .block s (⟨.switch, line, content, cases⟩ :: rest)
  | tryBlock {s line content body rest} : Grammar .block s body → Grammar .firstHandler s rest →
      Grammar .block s (⟨.tryBlock, line, content, body⟩ :: rest)
  | elifTest {s line content body rest} : Grammar .block s body → Grammar .chain s rest →
      Grammar .chain s (⟨.elifTest, line, content, body⟩ :: rest)
  | elseBlock {s line content body rest} : Grammar .block s body → Grammar .block s rest →
      Grammar .chain s (⟨.elseBlock, line, content, body⟩ :: rest)
  | chainEnd {s rest} : Grammar .block s rest → Grammar .chain s rest
  | closing {s line content rest} : Grammar .block s rest →
      Grammar .closing s (⟨.whileLoop, line, content, []⟩ :: rest)
  | firstCase {s line content body rest} : Grammar .block s body → Grammar .cases s rest →
      Grammar .firstCase s (⟨.case, line, content, body⟩ :: rest)
  | nextCase {s rest} : Grammar .firstCase s rest → Grammar .cases s rest
  | lastCase {s} : Grammar .cases s []
  | except {s line content body rest} : Grammar .block s body → Grammar .handlers s rest →
      Grammar .firstHandler s (⟨.except, line, content, body⟩ :: rest)
  | nextHandler {s rest} : Grammar .firstHandler s rest → Grammar .handlers s rest
  | lastHandler {s rest} : Grammar .block s rest → Grammar .handlers s rest

def Node.IsProgram (node : Node) : Prop :=
  ∃ statements, node = ⟨.program, 0, "", statements⟩ ∧ Grammar .block .outermost statements

end Flowchart
