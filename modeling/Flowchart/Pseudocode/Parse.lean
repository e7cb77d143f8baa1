import Flowchart.Pseudocode.Tree
import Flowchart.Pseudocode.Rules
/-!
Reading a program: its lines, their tree, and the rules that the tree has to keep.
-/
namespace Flowchart

def Lexis.parse (x : Lexis) (source : String) : Except ParseError Node := do
  let lines ← x.lines source
  let program ← Tree.build lines
  Rules.check [] program
  .ok program

end Flowchart
