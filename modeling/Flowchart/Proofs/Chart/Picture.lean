import Flowchart.Proofs.Chart.Statements
import Flowchart.Shape.Layout
import Flowchart.Style.Config
/-! What a chart shows. The boxes and texts of a drawing are compared with a recursion on the syntax
tree that stops each block at the first statement that control cannot fall out of. -/
namespace Flowchart

/-- A box, a frame or a text, without its place. -/
inductive Mark where
  | rect
  | diamond
  | frame
  | text (content : String) (isLabel : Bool)
deriving DecidableEq, Repr

/-- What is shown of a piece of a program, whether control falls out of its end, and whether a break
that control reaches leaves it. -/
@[ext]
structure Picture where
  marks : List Mark
  alive : Bool
  breaks : Bool
deriving DecidableEq, Repr

/-- The words at the exits of a decision. -/
structure Words where
  yes : String
  no : String
deriving DecidableEq, Repr

def Config.words {α : Type} (c : Config α) : Words := ⟨c.yesText, c.noText⟩

namespace Mark

def label (text : String) : List Mark := if text.isEmpty then [] else [.text text true]

def test (content : String) : List Mark := [.diamond, .text content false]

end Mark

def Words.labels (w : Words) : List Mark := Mark.label w.yes ++ Mark.label w.no

namespace Picture

def blank : Picture := ⟨[], true, false⟩

def of (marks : List Mark) : Picture := ⟨marks, true, false⟩

/-- A piece and what comes after it, which is shown if control falls out of the first one. -/
def followedBy (p q : Picture) : Picture :=
  if p.alive then ⟨p.marks ++ q.marks, q.alive, p.breaks || q.breaks⟩ else p

def beside (p q : Picture) : Picture :=
  ⟨p.marks ++ q.marks, p.alive || q.alive, p.breaks || q.breaks⟩

def below (marks : List Mark) (p : Picture) : Picture := { p with marks := marks ++ p.marks }

def decision (w : Words) (content : String) (yes no : Picture) : Picture :=
  below (Mark.test content ++ w.labels) (yes.beside no)

def whileLoop (w : Words) (content : String) (body : Picture) : Picture :=
  of (Mark.test content ++ w.labels ++ body.marks)

def doLoop (w : Words) (body : Picture) (content : String) : Picture :=
  of (body.marks ++ Mark.test content ++ w.labels)

def switch (content : String) (cases : Picture) : Picture :=
  ⟨Mark.test content ++ cases.marks, cases.alive || cases.breaks, false⟩

def tryBlock (body handlers : Picture) : Picture :=
  beside { body with marks := body.marks ++ [.frame] } handlers

def nowhere : Picture := ⟨[], false, false⟩

mutual

/-- A block of siblings. Those that belong to the construct before them are passed over. -/
def ofBlock (w : Words) : List Node → Picture
  | [] => blank
  | ⟨kind, _, content, children⟩ :: rest =>
    match kind with
    | .text => (of [.rect, .text content false]).followedBy (ofBlock w rest)
    | .breakJump => ⟨[], false, true⟩
    | .continueJump => nowhere
    | .ifTest =>
      (decision w content (ofBlock w children) (ofElse w rest)).followedBy (ofBlock w rest)
    | .whileLoop => (whileLoop w content (ofBlock w children)).followedBy (ofBlock w rest)
    | .doLoop =>
      match rest with
      | ⟨_, _, test, _⟩ :: after =>
        (doLoop w (ofBlock w children) test).followedBy (ofBlock w after)
      | [] => blank
    | .switch => (switch content (ofBranches w .case children)).followedBy (ofBlock w rest)
    | .tryBlock =>
      (tryBlock (ofBlock w children) (ofBranches w .except rest)).followedBy (ofBlock w rest)
    | _ => ofBlock w rest

/-- What happens if the test before these siblings fails. Without an `else` control goes on. -/
def ofElse (w : Words) : List Node → Picture
  | [] => blank
  | ⟨kind, _, content, children⟩ :: rest =>
    match kind with
    | .elifTest => decision w content (ofBlock w children) (ofElse w rest)
    | .elseBlock => ofBlock w children
    | _ => blank

/-- The branches of a kind at the front of these siblings, each below its label. -/
def ofBranches (w : Words) (kind : NodeKind) : List Node → Picture
  | [] => nowhere
  | ⟨k, _, content, children⟩ :: rest =>
    if k = kind then (below (Mark.label content) (ofBlock w children)).beside (ofBranches w kind rest)
    else nowhere

end

def ofProgram (w : Words) (program : Node) : Picture := ofBlock w program.children

end Picture

mutual

def Statement.picture (w : Words) : Statement → Picture
  | .text content => .of [.rect, .text content false]
  | .pass => .blank
  | .decision test yes no =>
    .decision w test (Statement.pictureAll w yes) (Statement.pictureAll w no)
  | .whileLoop test body => .whileLoop w test (Statement.pictureAll w body)
  | .doLoop body test => .doLoop w (Statement.pictureAll w body) test
  | .switch subject cases => .switch subject (Statement.pictureBranches w cases)
  | .tryBlock body handlers =>
    .tryBlock (Statement.pictureAll w body) (Statement.pictureBranches w handlers)
  | .jump j => ⟨[], false, j == .leave⟩
  | .flaw _ => .nowhere

def Statement.pictureAll (w : Words) : List Statement → Picture
  | [] => .blank
  | s :: rest => (Statement.picture w s).followedBy (Statement.pictureAll w rest)

def Statement.pictureBranches (w : Words) : List (String × List Statement) → Picture
  | [] => .nowhere
  | (label, block) :: rest =>
    ((Statement.pictureAll w block).below (Mark.label label)).beside
      (Statement.pictureBranches w rest)

end

namespace Picture

@[simp]
theorem blank_followedBy (p : Picture) : blank.followedBy p = p := rfl

@[simp]
theorem followedBy_blank (p : Picture) : p.followedBy blank = p := by
  obtain ⟨marks, alive, breaks⟩ := p
  cases alive <;> simp [followedBy, blank]

theorem of_block {w : Words} {s : Scope} {nodes : List Node} (h : Grammar .block s nodes) :
    ofElse w nodes = blank ∧ ofBranches w .except nodes = nowhere := by
  cases h <;> refine ⟨?_, ?_⟩ <;> simp [ofElse, ofBranches]

end Picture

/-- The recursion on the tree and that on the statements agree on the siblings at a place. -/
def Place.Agrees (w : Words) (nodes : List Node) : Place → Prop
  | .block => Picture.ofBlock w nodes = Statement.pictureAll w (Block.ofNodes .none nodes)
  | .chain => Picture.ofElse w nodes = Statement.pictureAll w (Block.alternative nodes) ∧
      Picture.ofBlock w nodes = Statement.pictureAll w (Block.ofNodes .chain nodes)
  | .closing => ∃ line test rest, nodes = ⟨.whileLoop, line, test, []⟩ :: rest ∧
      Picture.ofBlock w rest = Statement.pictureAll w (Block.ofNodes .closing nodes)
  | .firstCase | .cases =>
    Picture.ofBranches w .case nodes = Statement.pictureBranches w (Block.branches nodes)
  | .firstHandler | .handlers =>
    Picture.ofBranches w .except nodes = Statement.pictureBranches w (Block.handlers nodes) ∧
      Picture.ofBlock w nodes = Statement.pictureAll w (Block.ofNodes .handlers nodes)

theorem agrees_of_grammar (w : Words) {place : Place} {s : Scope} {nodes : List Node}
    (h : Grammar place s nodes) : place.Agrees w nodes := by
  induction h with
  | nil => simp only [Place.Agrees, Picture.ofBlock, Block.ofNodes, Statement.pictureAll]
  | text _ ih =>
      simp only [Place.Agrees] at ih ⊢
      simp only [Picture.ofBlock, Block.ofNodes, Continuation.take?, Statement.pictureAll,
        Statement.picture, ih]
  | pass _ ih =>
      simp only [Place.Agrees] at ih ⊢
      simp only [Picture.ofBlock, Block.ofNodes, Continuation.take?, Statement.pictureAll,
        Statement.picture, ih, Picture.blank_followedBy]
  | breakJump =>
      simp only [Place.Agrees, Picture.ofBlock, Block.ofNodes, Continuation.take?,
        Statement.pictureAll, Statement.picture]
      rfl
  | continueJump =>
      simp only [Place.Agrees, Picture.ofBlock, Block.ofNodes, Continuation.take?,
        Statement.pictureAll, Statement.picture]
      rfl
  | ifTest _ _ ihb ihr =>
      simp only [Place.Agrees] at ihb ihr ⊢
      simp only [Picture.ofBlock, Block.ofNodes, Continuation.take?, Statement.pictureAll,
        Statement.picture, ihb, ihr.1, ihr.2]
  | whileLoop _ _ ihb ihr =>
      simp only [Place.Agrees] at ihb ihr ⊢
      simp only [Picture.ofBlock, Block.ofNodes, Continuation.take?, Statement.pictureAll,
        Statement.picture, ihb, ihr]
  | doLoop _ _ ihb ihr =>
      obtain ⟨line, test, after, rfl, hafter⟩ := ihr
      simp only [Place.Agrees] at ihb ⊢
      simp only [Picture.ofBlock, Block.ofNodes, Node.closing?, Continuation.take?, if_true,
        Statement.pictureAll, Statement.picture, ihb, hafter]
  | switch _ _ ihb ihr =>
      simp only [Place.Agrees] at ihb ihr ⊢
      simp only [Picture.ofBlock, Block.ofNodes, Continuation.take?, Statement.pictureAll,
        Statement.picture, ihb, ihr]
  | tryBlock _ _ ihb ihr =>
      simp only [Place.Agrees] at ihb ihr ⊢
      simp only [Picture.ofBlock, Block.ofNodes, Continuation.take?, Statement.pictureAll,
        Statement.picture, ihb, ihr.1, ihr.2]
  | elifTest _ _ ihb ihr =>
      simp only [Place.Agrees] at ihb ihr ⊢
      simp only [Picture.ofElse, Picture.ofBlock, Block.alternative, Block.ofNodes,
        Continuation.take?, Statement.pictureAll, Statement.picture, ihb, ihr.1, ihr.2,
        Picture.followedBy_blank, and_self]
  | elseBlock _ _ ihb ihr =>
      simp only [Place.Agrees] at ihb ihr ⊢
      simp only [Picture.ofElse, Picture.ofBlock, Block.alternative, Block.ofNodes,
        Continuation.take?, ihb, ihr, and_self]
  | chainEnd hrest ih =>
      obtain ⟨hchain, halternative, -, -⟩ := Block.ofNodes_of_block hrest
      unfold Place.Agrees
      rw [halternative, hchain, (Picture.of_block hrest).1, Statement.pictureAll]
      exact ⟨rfl, ih⟩
  | @closing s line content rest _ ih =>
      refine ⟨line, content, rest, rfl, ?_⟩
      simp only [Place.Agrees] at ih
      simp only [Block.ofNodes, Continuation.take?, ih]
  | firstCase _ _ ihb ihr =>
      simp only [Place.Agrees] at ihb ihr ⊢
      simp only [Picture.ofBranches, Block.branches, Statement.pictureBranches, ihb, ihr, if_true]
  | nextCase _ ih => exact ih
  | lastCase =>
      simp only [Place.Agrees, Picture.ofBranches, Block.branches, Statement.pictureBranches]
  | except _ _ ihb ihr =>
      simp only [Place.Agrees] at ihb ihr ⊢
      simp only [Picture.ofBranches, Picture.ofBlock, Block.handlers, Block.ofNodes,
        Continuation.take?, Statement.pictureBranches, ihb, ihr.1, ihr.2, if_true, and_self]
  | nextHandler _ ih => exact ih
  | lastHandler hrest ih =>
      obtain ⟨-, -, hafter, hhandlers⟩ := Block.ofNodes_of_block hrest
      unfold Place.Agrees
      rw [hhandlers, hafter, (Picture.of_block hrest).2, Statement.pictureBranches]
      exact ⟨rfl, ih⟩

end Flowchart
