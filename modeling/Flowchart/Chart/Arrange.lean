import Flowchart.Chart.Decision
import Flowchart.Chart.Loop
import Flowchart.Chart.Fan
/-!
Laying out a program. The children of a line are laid out one after the other down one trunk, until
control can no longer fall out of the last one; what follows is never drawn. Siblings that belong
together, such as an `if` with its `elif` and `else` lines, are laid out with the first of them.
-/
namespace Flowchart

/-- Which siblings at the front of a run still belong to the construct before them. -/
inductive Continuation where
  | none
  | chain
  | closing
  | handlers
deriving DecidableEq, Repr

/-- What still belongs to the construct after a sibling of the given kind; none if the sibling itself
begins something new. -/
def Continuation.take? : Continuation → NodeKind → Option Continuation
  | .chain, .elifTest => some .chain
  | .chain, .elseBlock => some .none
  | .closing, .whileLoop => some .none
  | .handlers, .except => some .handlers
  | _, _ => Option.none

namespace Node

/-- The jump that children consist of as far as control can see. -/
def soleJump? : List Node → Option Jump
  | [] => none
  | child :: _ => Jump.ofKind? child.kind

/-- The jump that the `else` at the front of these siblings consists of. An `elif` is never led
around. -/
def elseJump? : List Node → Option Jump
  | [] => none
  | node :: _ => if node.kind = .elseBlock then soleJump? node.children else none

/-- The test that closes the `do` before these siblings. -/
def closing? : List Node → Option String
  | [] => none
  | node :: _ => if node.kind = .whileLoop then some node.content else none

end Node

variable {α : Type} [Scalar α]

namespace Context
variable (x : Context α)

def arrangeText (content : String) (c : Strand α) : Strand α :=
  let style := x.config.rect
  let size := x.captionSize content
  let box := Group.boxAround content size.width size.height style.padX style.padY
  let width := box.bounds.width
  let height := box.bounds.height
  let (pos, c) := c.takeBand (c.startBelow x.config.stepY) (height + 2.0 * c.pad)
  let top := pos + c.pad
  let c := (c.trunkTo top true).draw (box.shift (-width / 2.0) top).toShape
  { c with tip := some (top + height) }

def arrangeJump (j : Jump) (c : Strand α) : Except LayoutFault (Strand α) := do
  let d ← c.headingOf j
  let (pos, c) ← c.takeExit (c.startBelow x.halfGap) (2.0 * c.pad) (d == .east)
  let y := pos + c.pad
  .ok { (c.trunkTo y false).noteJump j (0, y) with alive := false }

/-- Lays out a test with what follows if it succeeds and if it fails. An arm that is a jump is not
laid out if the test can lead into its lane. -/
def arrangeTest (test : String) (yesJump noJump : Option Jump)
    (yes no : Strand α → Except LayoutFault (Strand α)) (c : Strand α) :
    Except LayoutFault (Strand α) := do
  let yesJump ← c.aim yesJump
  let noJump ← c.aim noJump
  let exits ← Exit.chosen yesJump noJump
  let (box, c) ← x.openDecision test exits c
  match exits with
  | (.south, .east) => do
    let south ← yes (c.armFrom box.bottom)
    let east ← no ((c.share south).armFrom box.middle)
    .ok (x.closeBeside box south east (closeBelow south c))
  | (.south, _) => do
    let arm ← yes (c.armFrom box.bottom)
    .ok (closeBelow arm c)
  | (_, .south) => do
    let arm ← no (c.armFrom box.bottom)
    .ok (closeBelow arm c)
  | _ => .ok { c with alive := false }

def arrangeWhile (test : String) (body : Strand α → Except LayoutFault (Strand α))
    (c : Strand α) : Except LayoutFault (Strand α) := do
  let (entry, c) := x.enter c
  let (box, inner) := x.openWhile test c
  let inner ← body inner
  let (back, inner) ← x.gatherBack inner
  .ok (x.closeWhile entry box back inner c)

def arrangeDo (body : Strand α → Except LayoutFault (Strand α)) (test : String)
    (c : Strand α) : Except LayoutFault (Strand α) := do
  let (entry, c) := x.enter c
  let inner ← body (c.loopBody .doWhile)
  .ok (x.closeDo test entry inner c)

def arrangeSwitch (subject : String) (cases : FanPlan α → Fan α → Except LayoutFault (Fan α))
    (c : Strand α) : Except LayoutFault (Strand α) := do
  let (box, tap, holder) := x.openSwitch subject c
  let fan ← cases ⟨tap, some 0, true⟩ (.start holder (box.width / 2.0))
  .ok (x.closeSwitch tap fan c)

def arrangeTry (body : Strand α → Except LayoutFault (Strand α))
    (handlers : FanPlan α → Fan α → Except LayoutFault (Fan α)) (c : Strand α) :
    Except LayoutFault (Strand α) := do
  let (top, holder, inner) := x.openTry c
  let inner ← body inner
  let framed := x.closeFrame top inner holder
  let (tap, holder) := framed.holder.takeLine framed.holder.reach
  let fan ← handlers ⟨tap, none, false⟩ (.start holder framed.right)
  .ok (closeTry tap framed fan c)

mutual

/-- Lays out siblings as long as control falls out of what they begin, less those that belong to the
construct before them. -/
def arrangeNodes (after : Continuation) (nodes : List Node) (c : Strand α) :
    Except LayoutFault (Strand α) :=
  match nodes with
  | [] => .ok c
  | ⟨kind, line, content, children⟩ :: rest =>
    match after.take? kind with
    | some next => arrangeNodes next rest c
    | none =>
      if c.alive then
        match kind with
        | .text => arrangeNodes .none rest (x.arrangeText content c)
        | .pass => arrangeNodes .none rest { c with reach := c.reach + x.config.stepY }
        | .ifTest => do
          let c ← x.arrangeTest content (Node.soleJump? children) (Node.elseJump? rest)
            (arrangeNodes .none children) (arrangeAlternative rest) c
          arrangeNodes .chain rest c
        | .whileLoop => do
          let c ← x.arrangeWhile content (arrangeNodes .none children) c
          arrangeNodes .none rest c
        | .doLoop =>
          match Node.closing? rest with
          | some test => do
            let c ← x.arrangeDo (arrangeNodes .none children) test c
            arrangeNodes .closing rest c
          | none => .error (.unclosedDo line)
        | .switch => do
          let c ← x.arrangeSwitch content (arrangeArms false 0 children) c
          arrangeNodes .none rest c
        | .tryBlock => do
          let c ← x.arrangeTry (arrangeNodes .none children) (arrangeArms true 0 rest) c
          arrangeNodes .handlers rest c
        | .breakJump => do
          let c ← x.arrangeJump .leave c
          arrangeNodes .none rest c
        | .continueJump => do
          let c ← x.arrangeJump .resume c
          arrangeNodes .none rest c
        | .forLoop => .error (.forLoop line)
        | .program | .elifTest | .elseBlock | .case | .except => .error (.misplaced kind line)
      else .ok c

/-- Lays out what follows if the test before these siblings fails. The rest of a chain is laid out
straight on the arm, not as a block. -/
def arrangeAlternative (nodes : List Node) (c : Strand α) : Except LayoutFault (Strand α) :=
  match nodes with
  | [] => .ok c
  | ⟨kind, _, content, children⟩ :: rest =>
    match kind with
    | .elseBlock => arrangeNodes .none children c
    | .elifTest =>
      x.arrangeTest content (Node.soleJump? children) (Node.elseJump? rest)
        (arrangeNodes .none children) (arrangeAlternative rest) c
    | _ => .ok c

/-- Lays out branches from west to east, counted from `index`: all of these siblings, or the handlers
at their front. -/
def arrangeArms (handlers : Bool) (index : Nat) (nodes : List Node) (plan : FanPlan α) (f : Fan α) :
    Except LayoutFault (Fan α) :=
  match nodes with
  | [] => .ok f
  | ⟨kind, _, label, children⟩ :: rest =>
    if handlers && kind != .except then .ok f
    else do
      let arm ← arrangeNodes .none children (x.openBranch plan label f)
      arrangeArms handlers (index + 1) rest plan (x.closeBranch plan index arm f)

end

def root : Strand α := .root (x.config.hlineMargin / 2.0) x.config.debug

def trunk (program : Node) : Except LayoutFault (Strand α) :=
  x.arrangeNodes .none program.children x.root

/-- Moves a drawing to the margins of its canvas. -/
def canvas (drawing : Group α) : Layout α :=
  let b := drawing.extent
  { root := drawing.shift (x.config.marginX - b.minX) (x.config.marginY - b.minY)
    width := b.width + 2.0 * x.config.marginX
    height := b.height + 2.0 * x.config.marginY }

end Context

/-- The layout of a program. It fails only on trees that break the rules. -/
def Layout.ofProgram (config : Config α) (measure : Measure α) (program : Node) :
    Except LayoutFault (Layout α) := do
  let x : Context α := ⟨config, measure⟩
  let c ← x.trunk program
  .ok (x.canvas c.group)

end Flowchart
