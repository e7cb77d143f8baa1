import Flowchart.Pseudocode.Node
import Flowchart.Pseudocode.ParseError
/-!
The rules that only a finished tree can break. They are checked from the root downwards, all rules
of a node before those of its children, and the first violation is reported.
-/
namespace Flowchart.Rules

/-- What a node of its kind demands of its own block. -/
def checkBlock (node : Node) : Except ParseError Unit :=
  match node.kind with
  | .forLoop => .error ⟨node.line, .forLoop⟩
  | .switch =>
    if node.children.isEmpty then .error ⟨node.line, .emptySwitch⟩
    else match node.children.find? (·.kind != .case) with
      | some stray => .error ⟨stray.line, .strayInSwitch⟩
      | none => .ok ()
  | .breakJump | .continueJump | .pass =>
    match node.children with
    | child :: _ => .error ⟨child.line, .unexpectedIndent⟩
    | [] => .ok ()
  | _ => .ok ()

/-- A jump needs a construct around it that it can leave or repeat. -/
def checkScope (ancestors : List NodeKind) (node : Node) : Except ParseError Unit :=
  match node.kind with
  | .breakJump =>
    if ancestors.any fun k => k.isLoop || k == .switch then .ok ()
    else .error ⟨node.line, .breakOutside⟩
  | .continueJump =>
    if ancestors.any NodeKind.isLoop then .ok () else .error ⟨node.line, .continueOutside⟩
  | _ => .ok ()

def followsTest (previous : Option NodeKind) : Bool :=
  previous == some .ifTest || previous == some .elifTest

/-- What a child demands of its parent and its neighbours. -/
def checkPlace (parent : NodeKind) (previous next : Option NodeKind) (child : Node) :
    Except ParseError Unit :=
  match child.kind with
  | .doLoop => if next = some .whileLoop then .ok () else .error ⟨child.line, .doWithoutWhile⟩
  | .tryBlock => if next = some .except then .ok () else .error ⟨child.line, .tryWithoutExcept⟩
  | .except =>
    if previous = some .tryBlock ∨ previous = some .except then .ok ()
    else .error ⟨child.line, .exceptWithoutTry⟩
  | .elifTest => if followsTest previous then .ok () else .error ⟨child.line, .danglingElif⟩
  | .elseBlock => if followsTest previous then .ok () else .error ⟨child.line, .danglingElse⟩
  | .case => if parent = .switch then .ok () else .error ⟨child.line, .caseOutsideSwitch⟩
  | _ => .ok ()

def checkPlaces (parent : NodeKind) (previous : Option NodeKind) :
    List Node → Except ParseError Unit
  | [] => .ok ()
  | child :: rest => do
    checkPlace parent previous (rest.head?.map Node.kind) child
    checkPlaces parent (some child.kind) rest

mutual

/-- Checks a tree. The state is the trail: the ancestors of the tree, the nearest first, and a node
for as long as its children are checked. -/
def visit : Node → StateT (List NodeKind) (Except ParseError) Unit
  | ⟨kind, line, content, children⟩ => do
    checkBlock ⟨kind, line, content, children⟩
    checkScope (← get) ⟨kind, line, content, children⟩
    checkPlaces kind none children
    modify (kind :: ·)
    visitAll children
    modify List.tail

def visitAll : List Node → StateT (List NodeKind) (Except ParseError) Unit
  | [] => pure ()
  | node :: rest => do
    visit node
    visitAll rest

end

/-- The verdict on a tree below the given ancestors. -/
def check (ancestors : List NodeKind) (node : Node) : Except ParseError Unit :=
  (visit node).run' ancestors

def checkAll (ancestors : List NodeKind) (nodes : List Node) : Except ParseError Unit :=
  (visitAll nodes).run' ancestors

end Flowchart.Rules
