import Flowchart.Proofs.Chart.Shown
import Mathlib.Data.List.Infix
import Mathlib.Data.Multiset.Bind
import Mathlib.Tactic.Abel
/-! Where the jumps of a program lead. The story of a piece of a program tells, without coordinates,
what is drawn of it, where jumps leave it, and which points its connectors bring together. -/
namespace Flowchart

/-- The numbers of a statement and of the blocks and statements around it, the innermost first. -/
abbrev Address := List Nat

/-- Where a connector begins: at the end of a trunk, or at a side of a test. -/
inductive Origin where
  | turn (a : Address)
  | side (a : Address) (d : Direction)
deriving DecidableEq, Repr

def Origin.address : Origin → Address
  | .turn a => a
  | .side a _ => a

inductive Token where
  | caption (content : String)
  | test (a : Address) (content : String)
  | turn (a : Address)
deriving DecidableEq, Repr

/-- A test or an end of a trunk, by its address. -/
def Token.place? : Token → Option Origin
  | .caption _ => none
  | .test a _ => some (.side a .south)
  | .turn a => some (.turn a)

/-- A connector of the construct at `site` brings together points that the construct has of its own
and points at which jumps left. `told` is what the drawing tells before the connector is drawn. -/
structure Connector where
  role : RouteRole
  site : Address
  own : List Origin
  jumps : List Origin
  told : List Token
deriving Repr

/-- The points in order. The end of the body that falls back to the head of a loop comes last. -/
def Connector.origins (k : Connector) : List Origin :=
  if k.role = .back then k.jumps ++ k.own else k.own ++ k.jumps

/-- A connector is drawn if there are points to bring together. -/
def Connector.ifNeeded (k : Connector) : List Connector := if k.origins.isEmpty then [] else [k]

/-- A jump that control reaches, where it leaves its branch, and the construct that it refers to. -/
structure Departure where
  jump : Jump
  origin : Origin
  site : Option Address
deriving DecidableEq, Repr

/-- The jumps whose points a connector brings together. -/
def RouteRole.jump : RouteRole → Jump
  | .out => .leave
  | .back | .onward | .again => .resume

def Connector.led (k : Connector) : List Departure := k.jumps.map fun o => ⟨k.role.jump, o, some k.site⟩

/-- What a piece of a program tells, whether control falls out of its end, and where the breaks and
continues that control reaches leave it. `jumps` holds all jumps that control reaches, those inside
constructs too. -/
structure Story where
  tokens : List Token
  alive : Bool
  leaving : List Origin
  resuming : List Origin
  jumps : List Departure
  connectors : List Connector
deriving Repr

/-- What surrounds a piece of a program: where continues lead, and the innermost construct that takes
each kind of jump. -/
structure Around where
  toward : Direction
  taker : Jump → Option Address

namespace Around

/-- Outside of loops no continue leads anywhere. -/
def outermost : Around := ⟨.south, fun _ => none⟩

/-- A loop takes all jumps of its body. -/
def inLoop (toward : Direction) (a : Address) : Around := ⟨toward, fun _ => some a⟩

/-- A switch takes the breaks of its cases. -/
def inSwitch (r : Around) (a : Address) : Around where
  toward := r.toward
  taker
    | .leave => some a
    | .resume => r.taker .resume

def heading (r : Around) : Jump → Direction
  | .leave => .east
  | .resume => r.toward

/-- The jump of a block that begins with one, and where it leads. -/
def soleJump (r : Around) (block : Block) : Option (Jump × Direction) :=
  block.soleJump?.map fun j => (j, r.heading j)

end Around

namespace Story

/-- What belongs to the jumps of one kind. -/
def leftBy {β : Type} (j : Jump) (points : List (Jump × β)) : List β :=
  (points.filter (·.1 == j)).map Prod.snd

/-- Tokens with jumps at them. -/
def of (r : Around) (tokens : List Token) (points : List (Jump × Origin)) : Story where
  tokens := tokens
  alive := true
  leaving := leftBy .leave points
  resuming := leftBy .resume points
  jumps := points.map fun p => ⟨p.1, p.2, r.taker p.1⟩
  connectors := []

def blank : Story := of .outermost [] []

def nowhere : Story := { blank with alive := false }

def caption (content : String) : Story := of .outermost [.caption content] []

def jump (r : Around) (a : Address) (j : Jump) : Story :=
  { of r [.turn a] [(j, .turn a)] with alive := false }

def test (r : Around) (a : Address) (content : String) (exits : List (Jump × Direction)) : Story :=
  of r [.test a content, .caption content] (exits.map fun e => (e.1, .side a e.2))

def append (s t : Story) : Story where
  tokens := s.tokens ++ t.tokens
  alive := t.alive
  leaving := s.leaving ++ t.leaving
  resuming := s.resuming ++ t.resuming
  jumps := s.jumps ++ t.jumps
  connectors := s.connectors ++ t.connectors

def followedBy (s t : Story) : Story := if s.alive then s.append t else s

def beside (s t : Story) : Story := { s.append t with alive := s.alive || t.alive }

/-- A decision. A block that begins with a jump is left at a side of the test; of two that lead in
one direction, the second is drawn as a block. -/
def decision (r : Around) (a : Address) (content : String)
    (yesJump noJump : Option (Jump × Direction)) (yes no : Story) : Story :=
  match yesJump, noJump with
  | some j, some k =>
    if j.2 = k.2 then (test r a content [j]).append no
    else { test r a content [j, k] with alive := false }
  | some j, none => (test r a content [j]).append no
  | none, some k => (test r a content [k]).append yes
  | none, none => (test r a content []).append (yes.beside no)

/-- The continues of the body of a `while`, and its end if control falls out of it, lead back to the
head; the east side of the test and the breaks of the body lead out. -/
def whileLoop (a : Address) (content : String) (body : Story) : Story :=
  let fall : List Origin := if body.alive then [.turn a] else []
  let told := [.test a content, .caption content] ++ body.tokens ++
    if body.alive then [.turn a] else []
  let back : Connector := ⟨.back, a, fall, body.resuming, told⟩
  { tokens := told
    alive := true
    leaving := []
    resuming := []
    jumps := body.jumps
    connectors := body.connectors ++ back.ifNeeded ++
      [⟨.out, a, [.side a .east], body.leaving, told⟩] }

/-- The continues of the body of a `do` lead on to its test, the west side of the test leads back to
the entry, and the breaks lead out. -/
def doLoop (a : Address) (body : Story) (content : String) : Story :=
  let told := body.tokens ++ [.test a content, .caption content]
  let onward : Connector := ⟨.onward, a, [], body.resuming, body.tokens⟩
  let out : Connector := ⟨.out, a, [], body.leaving, told⟩
  { tokens := told
    alive := true
    leaving := []
    resuming := []
    jumps := body.jumps
    connectors := body.connectors ++ onward.ifNeeded ++ [⟨.again, a, [.side a .west], [], told⟩] ++
      out.ifNeeded }

/-- The breaks of the cases of a switch lead out of it; their continues pass it. -/
def switch (a : Address) (content : String) (cases : Story) : Story :=
  let told := [.test a content, .caption content] ++ cases.tokens
  let out : Connector := ⟨.out, a, [], cases.leaving, told⟩
  { tokens := told
    alive := cases.alive || !cases.leaving.isEmpty
    leaving := []
    resuming := cases.resuming
    jumps := cases.jumps
    connectors := cases.connectors ++ out.ifNeeded }

end Story

mutual

/-- The story of a statement at an address. -/
def Statement.story (r : Around) (a : Address) : Statement → Story
  | .text content => .caption content
  | .pass => .blank
  | .jump j => .jump r a j
  | .decision test yes no =>
    .decision r a test (r.soleJump yes) (r.soleJump no)
      (Statement.storyAll r (0 :: a) 0 yes) (Statement.storyAll r (1 :: a) 0 no)
  | .whileLoop test body => .whileLoop a test (Statement.storyAll (.inLoop .west a) a 0 body)
  | .doLoop body test => .doLoop a (Statement.storyAll (.inLoop .east a) a 0 body) test
  | .switch subject cases =>
    .switch a subject (Statement.storyBranches (r.inSwitch a) a 0 cases)
  | .tryBlock body handlers =>
    (Statement.storyAll r (0 :: a) 0 body).beside (Statement.storyBranches r (1 :: a) 0 handlers)
  | .flaw _ => .nowhere

def Statement.storyAll (r : Around) (a : Address) (number : Nat) : List Statement → Story
  | [] => .blank
  | s :: rest =>
    (Statement.story r (number :: a) s).followedBy (Statement.storyAll r a (number + 1) rest)

def Statement.storyBranches (r : Around) (a : Address) (number : Nat) :
    List (String × List Statement) → Story
  | [] => .nowhere
  | (_, block) :: rest =>
    (Statement.storyAll r (number :: a) 0 block).beside
      (Statement.storyBranches r a (number + 1) rest)

end

def Story.ofProgram (program : Node) : Story :=
  Statement.storyAll .outermost [] 0 (Block.ofProgram program)

namespace Story
variable {s t u : Story}

theorem followedBy_of_alive (h : s.alive = true) (t : Story) : s.followedBy t = s.append t := if_pos h

theorem followedBy_of_dead (h : s.alive = false) (t : Story) : s.followedBy t = s :=
  if_neg (by simp [h])

theorem append_assoc (s t u : Story) : (s.append t).append u = s.append (t.append u) := by
  simp only [append, List.append_assoc]

theorem followedBy_assoc (s t u : Story) :
    (s.followedBy t).followedBy u = s.followedBy (t.followedBy u) := by
  unfold followedBy
  cases hs : s.alive <;> cases ht : t.alive <;> simp [hs, ht, append, List.append_assoc]

theorem append_blank (h : s.alive = true) : s.append blank = s := by
  simp only [append, blank, of, leftBy, List.filter_nil, List.map_nil, List.append_nil, ← h]

theorem followedBy_blank (s : Story) : s.followedBy blank = s := by
  cases h : s.alive with
  | true => rw [followedBy_of_alive h, append_blank h]
  | false => exact followedBy_of_dead h blank

/-- A story agrees with a picture on where control goes. -/
structure Agrees (s : Story) (p : Picture) : Prop where
  alive : s.alive = p.alive
  breaks : (!s.leaving.isEmpty) = p.breaks

theorem Agrees.append {p q : Picture} (hs : s.Agrees p) (ht : t.Agrees q) :
    (!(s.append t).leaving.isEmpty) = (p.breaks || q.breaks) := by
  rw [← hs.breaks, ← ht.breaks]
  unfold Story.append
  cases s.leaving <;> cases t.leaving <;> rfl

theorem Agrees.followedBy {p q : Picture} (hs : s.Agrees p) (ht : t.Agrees q) :
    (s.followedBy t).Agrees (p.followedBy q) := by
  cases h : s.alive with
  | true =>
      rw [followedBy_of_alive h, Picture.followedBy_of_alive (hs.alive ▸ h)]
      exact ⟨ht.alive, hs.append ht⟩
  | false =>
      rw [followedBy_of_dead h, Picture.followedBy_of_dead (hs.alive ▸ h)]
      exact hs

theorem Agrees.beside {p q : Picture} (hs : s.Agrees p) (ht : t.Agrees q) :
    (s.beside t).Agrees (p.beside q) where
  alive := by rw [Story.beside, Picture.beside, hs.alive, ht.alive]
  breaks := hs.append ht

theorem breaks_of (r : Around) (tokens : List Token) (points : List (Jump × Origin)) :
    (!(of r tokens points).leaving.isEmpty) = points.any (·.1 == .leave) := by
  unfold of leftBy
  dsimp only
  induction points with
  | nil => rfl
  | cons point rest ih =>
      rw [List.filter_cons, List.any_cons]
      cases point.1 == Jump.leave with
      | true => rfl
      | false => exact ih

theorem breaks_test (r : Around) (a : Address) (content : String)
    (exits : List (Jump × Direction)) :
    (!(test r a content exits).leaving.isEmpty) = exits.any (·.1 == .leave) := by
  rw [test, breaks_of, List.any_map]
  rfl

theorem agrees_decision {w : Words} {r : Around} {a : Address} {content : String}
    {yesJump noJump : Option (Jump × Direction)} {yes no : Story} {p q : Picture}
    (hyes : yes.Agrees p) (hno : no.Agrees q)
    (hyesJump : ∀ j ∈ yesJump, p = ⟨[], false, j.1 == .leave⟩)
    (hnoJump : ∀ j ∈ noJump, q = ⟨[], false, j.1 == .leave⟩) :
    (decision r a content yesJump noJump yes no).Agrees (.decision w content p q) := by
  have hbelow : ∀ (exits : List (Jump × Direction)) {arm : Story} {p : Picture}, arm.Agrees p →
      (!((test r a content exits).append arm).leaving.isEmpty) =
        (exits.any (·.1 == .leave) || p.breaks) := fun exits arm p h =>
    Agrees.append (p := ⟨[], true, exits.any (·.1 == .leave)⟩) ⟨rfl, breaks_test _ _ _ _⟩ h
  unfold decision
  split
  · next j k =>
      have hp := hyesJump j rfl
      have hq := hnoJump k rfl
      split
      · refine ⟨?_, (hbelow [j] hno).trans ?_⟩
        · rw [hp]
          exact hno.alive
        · rw [hp]
          simp [Picture.decision, Picture.below, Picture.beside]
      · refine ⟨?_, (breaks_test r a content [j, k]).trans ?_⟩
        · rw [hp, hq]
          rfl
        · rw [hp, hq]
          simp [Picture.decision, Picture.below, Picture.beside]
  · next j =>
      have hp := hyesJump j rfl
      refine ⟨?_, (hbelow [j] hno).trans ?_⟩
      · rw [hp]
        exact hno.alive
      · rw [hp]
        simp [Picture.decision, Picture.below, Picture.beside]
  · next k =>
      have hq := hnoJump k rfl
      refine ⟨?_, (hbelow [k] hyes).trans ?_⟩
      · rw [hq]
        exact hyes.alive.trans (Bool.or_false _).symm
      · rw [hq]
        simp [Picture.decision, Picture.below, Picture.beside, Bool.or_comm]
  · exact ⟨(hyes.beside hno).alive, (hbelow [] (hyes.beside hno)).trans (Bool.false_or _)⟩

end Story

theorem Around.picture_of_soleJump {w : Words} {r : Around} {block : Block} {j : Jump × Direction}
    (h : j ∈ r.soleJump block) :
    Statement.pictureAll w block = ⟨[], false, j.1 == .leave⟩ := by
  obtain ⟨k, hk, rfl⟩ := Option.map_eq_some_iff.mp h
  exact Block.picture_of_soleJump hk

mutual

/-- Control goes where the picture says. -/
theorem Statement.story_agrees (w : Words) (r : Around) (a : Address) (s : Statement) :
    (s.story r a).Agrees (s.picture w) := by
  match s with
  | .text content => exact ⟨rfl, rfl⟩
  | .pass => exact ⟨rfl, rfl⟩
  | .jump j =>
      rw [Statement.story, Statement.picture]
      exact ⟨rfl, (Story.breaks_of r [.turn a] [(j, .turn a)]).trans (Bool.or_false _)⟩
  | .flaw fault => exact ⟨rfl, rfl⟩
  | .decision test yes no =>
      rw [Statement.story, Statement.picture]
      exact Story.agrees_decision (Statement.storyAll_agrees w r _ 0 yes)
        (Statement.storyAll_agrees w r _ 0 no) (fun _ h => Around.picture_of_soleJump h)
        fun _ h => Around.picture_of_soleJump h
  | .whileLoop test body => exact ⟨rfl, rfl⟩
  | .doLoop body test => exact ⟨rfl, rfl⟩
  | .switch subject cases =>
      have hcases := Statement.storyBranches_agrees w (r.inSwitch a) a 0 cases
      rw [Statement.story, Statement.picture]
      exact ⟨by rw [Story.switch, Picture.switch, hcases.alive, hcases.breaks], rfl⟩
  | .tryBlock body handlers =>
      have hbody := Statement.storyAll_agrees w r (0 :: a) 0 body
      have hhandlers := Statement.storyBranches_agrees w r (1 :: a) 0 handlers
      rw [Statement.story, Statement.picture]
      exact Story.Agrees.beside ⟨hbody.alive, hbody.breaks⟩ hhandlers

theorem Statement.storyAll_agrees (w : Words) (r : Around) (a : Address) (number : Nat)
    (b : List Statement) :
    (Statement.storyAll r a number b).Agrees (Statement.pictureAll w b) := by
  match b with
  | [] => exact ⟨rfl, rfl⟩
  | s :: rest =>
      rw [Statement.storyAll, Statement.pictureAll]
      exact (Statement.story_agrees w r _ s).followedBy
        (Statement.storyAll_agrees w r a (number + 1) rest)

theorem Statement.storyBranches_agrees (w : Words) (r : Around) (a : Address) (number : Nat)
    (bs : List (String × List Statement)) :
    (Statement.storyBranches r a number bs).Agrees (Statement.pictureBranches w bs) := by
  match bs with
  | [] => exact ⟨rfl, rfl⟩
  | (label, block) :: rest =>
      have hblock := Statement.storyAll_agrees w r (number :: a) 0 block
      rw [Statement.storyBranches, Statement.pictureBranches]
      exact Story.Agrees.beside ⟨hblock.alive, hblock.breaks⟩
        (Statement.storyBranches_agrees w r a (number + 1) rest)

end

namespace Strand
variable {r : Around} {c d : Strand α}

/-- Jumps lead where the surroundings say; breaks lead east everywhere. -/
def Turns (r : Around) (c : Strand α) : Prop := ∀ d, c.headingOf .resume = .ok d → d = r.toward

theorem Turns.of_keeps (h : c.Turns r) (keeps : c.Keeps d) : d.Turns r :=
  fun e he => h e ((keeps.headingOf .resume).symm.trans he)

theorem Turns.heading (h : c.Turns r) {j : Jump} {d : Direction} (hd : c.headingOf j = .ok d) :
    d = r.heading j := by
  cases j with
  | leave =>
      unfold headingOf at hd
      dsimp only at hd
      split at hd
      · cases hd
        rfl
      · cases hd
  | resume => exact h d hd

theorem Turns.soleJump (h : c.Turns r) {block : Block} {found : Option (Jump × Direction)}
    (hfound : c.soleJump block = .ok found) : r.soleJump block = found := by
  unfold Strand.soleJump Strand.aim at hfound
  unfold Around.soleJump
  split at hfound
  · next j hj =>
      obtain ⟨d, hd, hfound⟩ := exists_of_bind_eq_ok hfound
      cases hfound
      rw [hj, Option.map_some, h.heading hd]
  · next hnone =>
      cases hfound
      rw [hnone, Option.map_none]

theorem loopBody_turns [Scalar α] (c : Strand α) {kind : JumpTarget} {toward : Direction}
    (h : kind.resumeDirection = .ok toward) (htoward : r.toward = toward) :
    (c.loopBody kind).Turns r := by
  intro d hd
  have hsame : Except.ok toward = Except.ok d := h.symm.trans hd
  cases hsame
  exact htoward.symm

end Strand

end Flowchart
