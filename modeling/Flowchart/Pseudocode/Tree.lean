import Flowchart.Pseudocode.Node
import Flowchart.Pseudocode.Line
/-!
From lines to a tree. The open blocks form a stack, innermost first and the program last; a line
closes the blocks that are deeper than itself and joins the innermost one left.
-/
namespace Flowchart.Tree

/-- Closes the innermost open block as many times as told; the program stays open. -/
def closeBlocks : Nat → List Node → List Node
  | n + 1, child :: parent :: outer => closeBlocks n (parent.push child :: outer)
  | _, stack => stack

def addLeaf (node : Node) : List Node → List Node
  | parent :: outer => parent.push node :: outer
  | [] => []

/-- A `while` right after a `do` closes that loop and has no block of its own. -/
def closesDo (kind : NodeKind) (parent : Node) : Bool :=
  kind == .whileLoop && parent.children.getLast?.map Node.kind == some .doLoop

def nodeOf (l : Line) : Node :=
  let (token, rest) := Text.splitWord l.content.toList
  match NodeKind.ofKeyword? (.ofList token) with
  | some kind => ⟨kind, l.number, .ofList rest, []⟩
  | none => ⟨.text, l.number, .ofList (Text.trim l.content.toList), []⟩

def opensBlock (node parent : Node) : Bool :=
  node.kind != .text && !closesDo node.kind parent

def addLine (stack : List Node) (l : Line) : Except ParseError (List Node) :=
  if stack.length ≤ l.depth then .error ⟨l.number, .unexpectedIndent⟩
  else
    match closeBlocks (stack.length - (l.depth + 1)) stack with
    | parent :: outer =>
      let node := nodeOf l
      .ok (if opensBlock node parent then node :: parent :: outer
        else addLeaf node (parent :: outer))
    | [] => .ok []

def build (lines : List Line) : Except ParseError Node := do
  let stack ← lines.foldlM addLine [.root]
  match closeBlocks stack.length stack with
  | root :: _ => .ok root
  | [] => .ok .root

end Flowchart.Tree
