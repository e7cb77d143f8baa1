import Flowchart.Text.Blank
/-!
Programs in Markdown: the bodies of fenced blocks that are tagged as pseudocode.
-/
namespace Flowchart.Markdown

/-- The two kinds of fence; three of its marks make one. -/
inductive Fence where
  | backticks
  | tildes
deriving DecidableEq, Repr

def Fence.mark : Fence → Char
  | .backticks => '`'
  | .tildes => '~'

def Fence.text (f : Fence) : List Char := List.replicate 3 f.mark

def tags : List (List Char) := ["pseudo".toList, "flow".toList]

/-- Whether a trimmed line opens a block with this fence: any number of further marks, and a tag as
the first word after them. -/
def opensWith (line : List Char) (f : Fence) : Bool :=
  match Text.dropStart? f.text line with
  | some rest => tags.contains (Text.splitWord (rest.dropWhile (· == f.mark))).1
  | none => false

def opening? (line : List Char) : Option Fence :=
  [Fence.backticks, .tildes].find? (opensWith line)

/-- Whether a trimmed line closes a block: the fence, and nothing else. -/
def closes (line : List Char) (f : Fence) : Bool := line == f.text

/-- The block that is being read: its fence, and its lines so far. -/
structure Open where
  fence : Fence
  lines : List (List Char)

def joinLines (lines : List (List Char)) : String :=
  .ofList (['\n'].intercalate lines)

/-- The bodies of the blocks in a run of lines; one that is not closed is left out. -/
def bodies : Option Open → List (List Char) → List String
  | _, [] => []
  | none, line :: rest =>
    bodies ((opening? (Text.trim line)).map fun fence => ⟨fence, []⟩) rest
  | some block, line :: rest =>
    if closes (Text.trim line) block.fence then joinLines block.lines :: bodies none rest
    else bodies (some { block with lines := block.lines ++ [line] }) rest

def blocks (text : String) : List String := bodies none (Text.lines text.toList)

end Flowchart.Markdown
