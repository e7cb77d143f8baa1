import Flowchart.Proofs.Chart.Arranged
/-! Laying out with a record. A recording goes through the steps of a layout one by one and notes every
change of a strand, every y to which a trunk is drawn, and the strands at which a statement begins and
a block ends. What it lays out is what is laid out without it. -/
namespace Flowchart
variable {α β γ : Type}

/-- What a recording notes. `trunk c y` stands before the change that it makes. -/
inductive Event (α : Type) where
  | change (before after : Strand α)
  | trunk (c : Strand α) (y : α)
  | begins (s : Statement) (c : Strand α)
  | ends (c : Strand α)

abbrev Recording (α : Type) := StateT (List (Event α)) (Except LayoutFault)

namespace Recording

def note (e : Event α) : Recording α Unit := modify (· ++ [e])

def become (c d : Strand α) : Recording α (Strand α) := do
  note (.change c d)
  return d

section Steps
variable [Scalar α]

def takeBand (c : Strand α) (start size : α) : Recording α (α × Strand α) := do
  let (pos, d) := c.takeBand start size
  let d ← become c d
  return (pos, d)

def takeExit (c : Strand α) (start size : α) (alsoEast : Bool) : Recording α (α × Strand α) := do
  let (pos, d) ← liftM (c.takeExit start size alsoEast)
  let d ← become c d
  return (pos, d)

def takeLine (c : Strand α) (start : α) : Recording α (α × Strand α) := do
  let (pos, c) ← takeBand c start (2.0 * c.pad)
  return (pos + c.pad, c)

def trunkTo (c : Strand α) (y : α) (arrow : Bool) : Recording α (Strand α) := do
  note (.trunk c y)
  become c (c.trunkTo y arrow)

def drawDecision (c : Strand α) (diamond : Group α) (top : α) :
    Recording α (DecisionBox α × Strand α) := do
  let width := diamond.bounds.width
  let height := diamond.bounds.height
  let c ← trunkTo c top true
  let c ← become c (c.draw (diamond.shift (-width / 2.0) top).toShape)
  return (⟨width, top + height / 2.0, top + height⟩, c)

end Steps

/-- A recording ends as the layout does, with a result of some kind, and notes good events only. -/
structure Tells (good : Event α → Prop) (post : β → Prop) (m : Recording α β)
    (r : Except LayoutFault β) : Prop where
  run : ∀ log, ∃ more, (∀ e ∈ more, good e) ∧ m.run log = r.map fun v => (v, log ++ more)
  post : ∀ v, r = .ok v → post v

variable {good : Event α → Prop} {post : β → Prop} {last : γ → Prop} {m : Recording α β}
  {next : β → Recording α γ}

theorem Tells.pure {v : β} (h : post v) : Tells good post (pure v) (.ok v) := by
  refine ⟨fun log => ⟨[], List.forall_mem_nil _, ?_⟩, fun w same => Except.ok.inj same ▸ h⟩
  rw [List.append_nil]
  rfl

theorem Tells.note {e : Event α} (h : good e) :
    Tells good (fun _ => True) (Recording.note e) (.ok ()) :=
  ⟨fun _ => ⟨[e], List.forall_mem_singleton.mpr h, rfl⟩, fun _ _ => trivial⟩

theorem Tells.lift (r : Except LayoutFault β) :
    Tells good (fun v => r = .ok v) (liftM r : Recording α β) r := by
  refine ⟨fun log => ⟨[], List.forall_mem_nil _, ?_⟩, fun v same => same⟩
  cases r with
  | error fault => rfl
  | ok v =>
      rw [List.append_nil]
      rfl

theorem Tells.throw (fault : LayoutFault) :
    Tells good post (throw fault : Recording α β) (.error fault) :=
  ⟨fun _ => ⟨[], List.forall_mem_nil _, rfl⟩, fun _ same => by cases same⟩

theorem Tells.andThen {v : β} {r : Except LayoutFault γ} (h : Tells good post m (.ok v))
    (k : ∀ w, v = w → post w → Tells good last (next w) r) : Tells good last (m >>= next) r := by
  have later := k v rfl (h.post v rfl)
  refine ⟨fun log => ?_, later.post⟩
  obtain ⟨more, told, ran⟩ := h.run log
  obtain ⟨others, retold, ran'⟩ := later.run (log ++ more)
  refine ⟨more ++ others, List.forall_mem_append.mpr ⟨told, retold⟩, ?_⟩
  rw [StateT.run_bind, ran]
  change (next v).run (log ++ more) = _
  rw [ran', List.append_assoc]

theorem Tells.bind {r : Except LayoutFault β} {rest : β → Except LayoutFault γ}
    (h : Tells good post m r) (k : ∀ v, post v → Tells good last (next v) (rest v)) :
    Tells good last (m >>= next) (r >>= rest) := by
  cases r with
  | error fault =>
      refine ⟨fun log => ?_, fun v same => by cases same⟩
      obtain ⟨more, -, ran⟩ := h.run log
      refine ⟨[], List.forall_mem_nil _, ?_⟩
      rw [StateT.run_bind, ran]
      rfl
  | ok v =>
      refine h.andThen fun w same told => ?_
      subst same
      exact k v told

theorem Tells.of_eq {v w : β} (h : Tells good post m (.ok v)) (same : v = w) :
    Tells good post m (.ok w) := same ▸ h

theorem Tells.mono {r : Except LayoutFault β} {weaker : β → Prop} (h : Tells good post m r)
    (imp : ∀ v, post v → weaker v) : Tells good weaker m r :=
  ⟨h.run, fun v same => imp v (h.post v same)⟩

end Recording

namespace Context
open Recording
variable [Scalar α] (x : Context α)

def recordText (content : String) (c : Strand α) : Recording α (Strand α) := do
  let style := x.config.rect
  let size := x.captionSize content
  let box := Group.boxAround content size.width size.height style.padX style.padY
  let width := box.bounds.width
  let height := box.bounds.height
  let (pos, c) ← takeBand c (c.startBelow x.config.stepY) (height + 2.0 * c.pad)
  let top := pos + c.pad
  let c ← trunkTo c top true
  let c ← become c (c.draw (box.shift (-width / 2.0) top).toShape)
  become c { c with tip := some (top + height) }

def recordJump (j : Jump) (c : Strand α) : Recording α (Strand α) := do
  let d ← liftM (c.headingOf j)
  let (pos, c) ← takeExit c (c.startBelow x.halfGap) (2.0 * c.pad) (d == .east)
  let y := pos + c.pad
  let c ← trunkTo c y false
  let c ← become c (c.noteJump j (0, y))
  become c { c with alive := false }

def recordBand (test : String) (exits : Exit × Exit) (c : Strand α) :
    Recording α (α × Strand α) :=
  let band := (x.diamond test).bounds.height + 2.0 * c.pad + max x.yesSize.height x.noSize.height
  let start := c.startBelow x.config.stepY
  if (exitJumps exits).isEmpty then takeBand c start band else takeExit c start band false

def recordExits (test : String) (exits : Exit × Exit) (top : α) (c : Strand α) :
    Recording α (DecisionBox α × Strand α) := do
  let (box, c) ← drawDecision c (x.diamond test) top
  let c ← become c (c.labelExit x.config.yesText x.yesSize exits.1.direction box)
  let c ← become c (c.labelExit x.config.noText x.noSize exits.2.direction box)
  let c ← become c ((exitJumps exits).foldl (fun c (j, d) =>
    c.noteJump j (if d = .east then box.width / 2.0 else -box.width / 2.0, box.middle)) c)
  return (box, c)

def recordDecision (test : String) (exits : Exit × Exit) (c : Strand α) :
    Recording α (DecisionBox α × Strand α) := do
  let (pos, c) ← x.recordBand test exits c
  let top := pos + c.pad
  let c ← become c (claimEast exits (top + (x.diamond test).bounds.height / 2.0) c)
  x.recordExits test exits top c

def recordBeside (box : DecisionBox α) (below arm c : Strand α) : Recording α (Strand α) := do
  let half := box.width / 2.0
  let dx := x.eastShift box (max half below.group.extent.maxX) arm
  let merged ← become c
    { (c.draw (.path (Path.across half box.middle (dx - half)))).absorb arm dx with
      reach := max c.reach arm.reach
      lanes := arm.lanes }
  if arm.alive then
    let tip := arm.tip.getD box.middle
    let (y, c) ← takeLine merged merged.reach
    let c ← become c
      (c.draw (.path (((Path.start dx tip).vertical (y - tip)).horizontal (-dx)).withArrow))
    let c ← become c { c with tip := below.liveTip }
    let c ← trunkTo c y false
    become c { c with alive := true }
  else return merged

def recordEnter (c : Strand α) : Recording α (α × Strand α) := do
  let (entry, c) ← takeLine c (c.startBelow x.halfGap)
  let c ← trunkTo c entry false
  return (entry, c)

def recordOpenWhile (test : String) (c : Strand α) : Recording α (DecisionBox α × Strand α) := do
  let body := c.loopBody .whileLoop
  let diamond := x.diamond test
  let band := diamond.bounds.height + 2.0 * c.pad + x.yesSize.height
  let (pos, body) ← takeBand body (body.reach + x.halfGap) band
  let (box, body) ← drawDecision body diamond (pos + c.pad)
  let body ← become body (body.labelExit x.config.yesText x.yesSize .south box)
  let body ← become body (body.labelExit x.config.noText x.noSize .east box)
  let body ← become body { body with tip := some box.bottom }
  return (box, body)

def recordGatherBack (body : Strand α) : Recording α (List (α × α) × Strand α) := do
  let points := body.continues
  let body ← become body { body with continues := [] }
  if body.alive then
    let (pos, body) ← takeExit body (body.reach + x.halfGap) (2.0 * body.pad) false
    let y := pos + body.pad
    let body ← trunkTo body y false
    return (points ++ [(0, y)], body)
  else return (points, body)

def recordCloseWhile (entry : α) (box : DecisionBox α) (back : List (α × α)) (body c : Strand α) :
    Recording α (Strand α) := do
  let body ← become body (x.routeBack back entry body)
  let exits := (box.width / 2.0, box.middle) :: body.breaks
  let body ← become body { body with breaks := [] }
  let c ← become c (c.reclaim body)
  let lane := body.eastLane x.config.stepX
  let (exit, c) ← takeLine c c.reach
  let body ← become body (body.route .out exits lane exit)
  let c ← become c (c.absorb body 0)
  become c { c with tip := some exit, alive := true }

def recordGatherOnward (body : Strand α) : Recording α (Strand α) := do
  let skips := body.continues
  let body ← become body { body with continues := [] }
  if skips.isEmpty then return body
  else
    let lane := body.eastLane x.config.stepX
    let (y, body) ← takeLine body (body.reach + x.halfGap)
    let body ← become body body.dropDeadTip
    let body ← trunkTo body y false
    let body ← become body (body.route .onward skips lane y)
    become body { body with alive := true }

def recordTestDo (test : String) (entry : α) (body : Strand α) :
    Recording α (DecisionBox α × Strand α) := do
  let diamond := x.diamond test
  let band := diamond.bounds.height + 2.0 * body.pad + x.noSize.height
  let (pos, body) ← takeBand body (body.reach + x.config.stepY) band
  let top := pos + body.pad
  let body ← become body body.dropDeadTip
  let (box, body) ← drawDecision body diamond top
  let body ← become body (body.labelExit x.config.yesText x.yesSize .west box)
  let body ← become body (body.labelExit x.config.noText x.noSize .south box)
  let lane := body.westLane x.config.stepX
  let body ← become body (body.route .again [(-box.width / 2.0, box.middle)] lane entry)
  let body ← become body { body with tip := some box.bottom }
  return (box, body)

def recordCloseDo (test : String) (entry : α) (body c : Strand α) : Recording α (Strand α) := do
  let body ← x.recordGatherOnward body
  let (box, body) ← x.recordTestDo test entry body
  let breaks := body.breaks
  let body ← become body { body with breaks := [] }
  let c ← become c (c.reclaim body)
  if breaks.isEmpty then
    let c ← become c (c.absorb body 0)
    become c { c with tip := some box.bottom, alive := true }
  else
    let lane := body.eastLane x.config.stepX
    let (exit, c) ← takeLine c c.reach
    let body ← trunkTo body exit false
    let body ← become body (body.route .out breaks lane exit)
    let c ← become c (c.absorb body 0)
    become c { c with tip := some exit, alive := true }

def recordLabel (text : String) (arm : Strand α) : Recording α (Strand α) :=
  if text.isEmpty then return arm
  else do
    let size := x.labelSize text
    let (pos, arm) ← takeBand arm (arm.reach + labelGap) size.height
    become arm (arm.drawLabel text size (size.width / 2.0 + labelGap) (pos + size.height / 2.0))

def recordBranch (plan : FanPlan α) (index : Nat) (arm : Strand α) (f : Fan α) :
    Recording α (Fan α) := do
  let holder ← become f.holder (x.closeBranch plan index arm f).holder
  return { x.closeBranch plan index arm f with holder }

def recordJoin (ends : List (α × α)) (holder : Strand α) : Recording α (Strand α) := do
  let (y, holder) ← takeLine holder holder.reach
  let far := (ends.map Prod.fst).foldl max 0
  let holder ← become holder (ends.foldl (fun h (dx, tip) =>
    if dx == far && decide (0 < dx) then
      h.draw (.path (((Path.start dx tip).vertical (y - tip)).horizontal (-dx)).withArrow)
    else h.draw (.path (Path.down dx tip (y - tip)))) holder)
  become holder { holder with tip := some y, alive := true }

def recordOpenSwitch (subject : String) (c : Strand α) :
    Recording α (DecisionBox α × α × Strand α) := do
  let holder := c.switchHolder
  let diamond := x.diamond subject
  let start := holder.startBelow x.config.stepY
  let (pos, holder) ← takeBand holder start (diamond.bounds.height + 2.0 * c.pad)
  let (box, holder) ← drawDecision holder diamond (pos + c.pad)
  let holder ← become holder { holder with tip := some box.bottom }
  let (tap, holder) ← takeLine holder holder.reach
  let holder ← trunkTo holder tap false
  return (box, tap, holder)

def recordSettle (ends : List (BranchEnd α)) (holder : Strand α) : Recording α (Strand α) :=
  match ends with
  | [] => become holder { holder with alive := false }
  | [⟨0, _, tip⟩] => become holder { holder with tip := some tip }
  | ends => recordJoin (ends.map fun e => (e.dx, e.tip)) holder

def recordGatherBreaks (breaks : List (α × α)) (holder : Strand α) : Recording α (Strand α) :=
  if breaks.isEmpty then return holder
  else do
    let lane := holder.eastLane x.config.stepX
    let (exit, holder) ← takeLine holder holder.reach
    let holder ← become holder holder.dropDeadTip
    let holder ← trunkTo holder exit false
    let holder ← become holder (holder.route .out breaks lane exit)
    become holder { holder with alive := true }

def recordCloseSwitch (tap : α) (f : Fan α) (c : Strand α) : Recording α (Strand α) := do
  let holder ← become f.holder f.finish
  let holder ← become holder (drawTap tap f.lastDx holder)
  let holder ← recordSettle f.ends holder
  let holder ← x.recordGatherBreaks f.breaks holder
  become c (adopt holder c)

def recordOpenTry (c : Strand α) : Recording α (α × Strand α × Strand α) := do
  let holder := c.fork
  let (top, holder) ← takeLine holder (holder.startBelow x.config.stepY)
  let entered := holder.tip.isSome
  let holder ← trunkTo holder top false
  let body := holder.fork
  let body ← become body
    { body with
      reach := body.reach + x.config.frame.padY
      tip := if entered then some top else none }
  return (top, holder, body)

/-- A trunk that control falls out of goes on to the lower side of its frame. -/
def recordFoot (bottom : α) (body : Strand α) : Recording α (Strand α) :=
  if body.alive then trunkTo body bottom false else return body

def recordCloseFrame (top : α) (body holder : Strand α) : Recording α (Framed α) := do
  let padX := x.config.frame.padX
  let (bottom, body) ← takeLine body (body.reach + x.config.frame.padY)
  let ends := if body.alive then [(0, bottom)] else []
  let body ← recordFoot bottom body
  let bounds := body.group.extent
  let left := min bounds.minX 0 - padX
  let right := max bounds.maxX 0 + padX
  let holder ← become holder { holder with reach := max holder.reach body.reach, lanes := body.lanes }
  let holder ← become holder (holder.absorb body 0)
  let holder ← become holder (holder.draw (.frame ⟨left, top, right - left, bottom - top⟩))
  return { holder, bottom, right, ends }

def recordEnds (ends : List (α × α)) (holder : Strand α) : Recording α (Strand α) :=
  if ends.isEmpty then become holder { holder with alive := false } else recordJoin ends holder

def recordCloseTry (tap : α) (framed : Framed α) (f : Fan α) (c : Strand α) :
    Recording α (Strand α) := do
  let bus := (Path.start framed.right framed.bottom).vertical (tap - framed.bottom)
  let holder ← become f.holder f.finish
  let holder ← become holder (holder.draw (.path (bus.horizontal (f.lastDx - framed.right))))
  let ends := framed.ends ++ f.ends.map fun e => (e.dx, e.tip)
  let holder ← recordEnds ends holder
  become c (adopt holder c)

mutual

def record (s : Statement) (c : Strand α) : Recording α (Strand α) := do
  note (.begins s c)
  match s with
  | .text content => x.recordText content c
  | .pass => become c { c with reach := c.reach + x.config.stepY }
  | .jump j => x.recordJump j c
  | .flaw fault => throw fault
  | .decision test yes no =>
    let yesJump ← liftM (c.soleJump yes)
    let noJump ← liftM (c.soleJump no)
    let exits ← liftM (Exit.chosen yesJump noJump)
    let (box, c) ← x.recordDecision test exits c
    match exits with
    | (.south, .east) =>
      let south ← recordAll yes (c.armFrom box.bottom)
      let east ← recordAll no ((c.share south).armFrom box.middle)
      let c ← become c (closeBelow south c)
      x.recordBeside box south east c
    | (.south, _) =>
      let arm ← recordAll yes (c.armFrom box.bottom)
      become c (closeBelow arm c)
    | (_, .south) =>
      let arm ← recordAll no (c.armFrom box.bottom)
      become c (closeBelow arm c)
    | _ => become c { c with alive := false }
  | .whileLoop test body =>
    let (entry, c) ← x.recordEnter c
    let (box, inner) ← x.recordOpenWhile test c
    let inner ← recordAll body inner
    let (back, inner) ← x.recordGatherBack inner
    x.recordCloseWhile entry box back inner c
  | .doLoop body test =>
    let (entry, c) ← x.recordEnter c
    let inner ← recordAll body (c.loopBody .doWhile)
    x.recordCloseDo test entry inner c
  | .switch subject cases =>
    let (box, tap, holder) ← x.recordOpenSwitch subject c
    let fan ← recordBranches ⟨tap, some 0, true⟩ 0 cases (.start holder (box.width / 2.0))
    x.recordCloseSwitch tap fan c
  | .tryBlock body handlers =>
    let (top, holder, inner) ← x.recordOpenTry c
    let inner ← recordAll body inner
    let framed ← x.recordCloseFrame top inner holder
    let (tap, holder) ← takeLine framed.holder framed.holder.reach
    let fan ← recordBranches ⟨tap, none, false⟩ 0 handlers (.start holder framed.right)
    recordCloseTry tap framed fan c

def recordAll (block : Block) (c : Strand α) : Recording α (Strand α) :=
  match block with
  | [] => do
    note (.ends c)
    return c
  | s :: rest =>
    if c.alive then do
      let c ← record s c
      recordAll rest c
    else do
      note (.ends c)
      return c

def recordBranches (plan : FanPlan α) (index : Nat) (branches : Branches) (f : Fan α) :
    Recording α (Fan α) :=
  match branches with
  | [] => return f
  | (label, block) :: rest => do
    let arm ← x.recordLabel label { f.holder.fork with tip := some plan.tap }
    let arm ← recordAll block arm
    let f ← x.recordBranch plan index arm f
    recordBranches plan (index + 1) rest f

end

def recordTrunk (block : Block) : Recording α (Strand α) :=
  x.recordAll block (.root (x.config.hlineMargin / 2.0) x.config.debug)

end Context
end Flowchart
