import Flowchart.Pseudocode.Node
/-! Jumps, the directions in which connectors lead, and the faults of a layout. -/
namespace Flowchart

/-- The two ways to leave a block early. -/
inductive Jump where
  | leave
  | resume
deriving DecidableEq, Repr

namespace Jump

def kind : Jump → NodeKind
  | .leave => .breakJump
  | .resume => .continueJump

def ofKind? : NodeKind → Option Jump
  | .breakJump => some .leave
  | .continueJump => some .resume
  | _ => none

end Jump

/-- Where a connector leaves a decision, or a jump its branch. -/
inductive Direction where
  | south
  | east
  | west
deriving DecidableEq, Repr

def Direction.word : Direction → String
  | .south => "South"
  | .east => "East"
  | .west => "West"

/-- Why a tree cannot be drawn. None of these arises from a tree that keeps the rules. An endless
search is one for a free position that two sets of ranges never agree on. -/
inductive LayoutFault where
  | misplaced (kind : NodeKind) (line : Nat)
  | forLoop (line : Nat)
  | unclosedDo (line : Nat)
  | breakOutside
  | continueOutside
  | continueInSwitch
  | notJump (kind : NodeKind)
  | exitsAlike (d : Direction)
  | endlessSearch
deriving DecidableEq, Repr

def LayoutFault.message : LayoutFault → String
  | .misplaced kind line => "misplaced `" ++ kind.word ++ s!"` on line {line} reached layout"
  | .forLoop line => s!"`for` on line {line} reached layout"
  | .unclosedDo line => s!"`do` on line {line} has no closing `while`"
  | .breakOutside => "`break` reached layout with no enclosing scope"
  | .continueOutside => "`continue` reached layout with no enclosing loop"
  | .continueInSwitch => "`switch` is not a continue target"
  | .notJump kind => "`" ++ kind.word ++ "` is not a jump"
  | .exitsAlike d => "assertion `left != right` failed: both exits of a decision point the same way\n"
    ++ "  left: " ++ d.word ++ "\n right: " ++ d.word
  | .endlessSearch => "no position is free in both lanes"

end Flowchart
