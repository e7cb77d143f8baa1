import Flowchart.Proofs.Chart.Lines
import Flowchart.Proofs.Chart.Margins
import Flowchart.Proofs.Chart.Story
/-! How the groups of a chart are put together. Every statement brings its groups, in the order of its
parts, and a group that is laid out on a strand of its own holds the groups of its parts in turn. What
is asked of groups that belong together is left open: one rule a kind of statement. -/
namespace Flowchart
variable {α : Type}

namespace Shape

def isGroup : Shape α → Bool
  | .group .. => true
  | _ => false

def groupsOf (shapes : List (Shape α)) : List (Shape α) := shapes.filter isGroup

/-- What a group holds, less its placeholder. -/
def parts : Shape α → List (Shape α)
  | .group _ _ children _ => children.filter fun s => !s.isPlaceholder
  | _ => []

def groups (s : Shape α) : List (Shape α) := groupsOf s.parts

end Shape

namespace Group

def parts (g : Group α) : List (Shape α) := g.children.filter fun s => !s.isPlaceholder

def groups (g : Group α) : List (Shape α) := Shape.groupsOf g.parts

@[simp]
theorem parts_toShape (g : Group α) : g.toShape.parts = g.parts := rfl

variable [Scalar α]

@[simp]
theorem parts_shift (g : Group α) (dx dy : α) : (g.shift dx dy).parts = g.parts := rfl

theorem parts_push (g : Group α) {s : Shape α} (hs : s.isPlaceholder = false) :
    (g.push s).parts = g.parts ++ [s] := by
  have hpush := collect_push (List.filter fun s : Shape α => !s.isPlaceholder)
    (fun _ _ => List.filter_append _ _) (fun t ht => by simp [ht]) g s
  rwa [List.filter_cons_of_pos (by simp [hs]), List.filter_nil] at hpush

end Group

/-- The frame that is drawn around a branch when debug markers are on. -/
def Group.outline [Scalar α] (debug : Bool) (g : Group α) : List (Shape α) :=
  if debug && !g.isEmpty then
    [.frame ⟨g.extent.minX, g.extent.minY, g.extent.width, g.extent.height⟩]
  else []

inductive Piece where
  | statement (s : Statement)
  | block (b : Block)
  | branches (bs : Branches)

/-- What is asked of the groups of a statement: of a decision and the arms below and beside it, of the
cases of a switch, and of the frame of a try, the group of its body and those of its handlers. -/
structure Siblings (α : Type) where
  beside : (test below beside : Shape α) → Prop
  cases : List (Shape α) → Prop
  framed : (frame : Outline α) → (body : Shape α) → List (Shape α) → Prop

/-- The groups that a piece of a program brings, in drawing order, each of them with the groups of its
own parts, all of them in the coordinates of the group around them. -/
inductive Laid [Scalar α] (config : Config α) (rule : Siblings α) :
    Around → Piece → List (Shape α) → Prop
  | text {r content node} : node.marks = [.rect, .text content false] →
      Laid config rule r (.statement (.text content)) [node]
  | pass {r} : Laid config rule r (.statement .pass) []
  | jump {r j} : Laid config rule r (.statement (.jump j)) []
  | twoJumps {r test yes no j k node} : r.soleJump yes = some j → r.soleJump no = some k →
      j.2 ≠ k.2 → node.marks = Mark.test test →
      Laid config rule r (.statement (.decision test yes no)) [node]
  | yesBelow {r test yes no k node arm} : r.soleJump yes = none → r.soleJump no = some k →
      node.marks = Mark.test test → Laid config rule r (.block yes) arm.groups →
      Laid config rule r (.statement (.decision test yes no)) [node, arm]
  | noBelow {r test yes no j node arm} : r.soleJump yes = some j →
      (∀ k, r.soleJump no = some k → j.2 = k.2) → node.marks = Mark.test test →
      Laid config rule r (.block no) arm.groups →
      Laid config rule r (.statement (.decision test yes no)) [node, arm]
  | twoArms {r test yes no node below beside} : r.soleJump yes = none → r.soleJump no = none →
      node.marks = Mark.test test → Laid config rule r (.block yes) below.groups →
      Laid config rule r (.block no) beside.groups → rule.beside node below beside →
      Laid config rule r (.statement (.decision test yes no)) [node, below, beside]
  | whileLoop {r test body loop node inner} : loop.groups = node :: inner →
      node.marks = Mark.test test → Laid config rule { r with toward := .west } (.block body) inner →
      Laid config rule r (.statement (.whileLoop test body)) [loop]
  | doLoop {r body test loop inner node} : loop.groups = inner ++ [node] →
      Laid config rule { r with toward := .east } (.block body) inner →
      node.marks = Mark.test test →
      Laid config rule r (.statement (.doLoop body test)) [loop]
  | switch {r subject cases holder node arms} : holder.groups = node :: arms →
      node.marks = Mark.test subject → Laid config rule r (.branches cases) arms → rule.cases arms →
      Laid config rule r (.statement (.switch subject cases)) [holder]
  | tryBlock {r body handlers holder before after} {inner : Group α} {frame : Outline α} :
      holder.parts =
        before ++ inner.toShape :: inner.outline config.debug ++ .frame frame :: after →
      Shape.groupsOf before = [] → Laid config rule r (.block body) inner.groups →
      Laid config rule r (.branches handlers) (Shape.groupsOf after) →
      rule.framed frame inner.toShape (Shape.groupsOf after) →
      Laid config rule r (.statement (.tryBlock body handlers)) [holder]
  | nothing {r} : Laid config rule r (.block []) []
  | last {r s rest groups} : Laid config rule r (.statement s) groups →
      (s.picture config.words).alive = false → Laid config rule r (.block (s :: rest)) groups
  | next {r s rest groups others} : Laid config rule r (.statement s) groups →
      (s.picture config.words).alive = true → Laid config rule r (.block rest) others →
      Laid config rule r (.block (s :: rest)) (groups ++ others)
  | noBranch {r} : Laid config rule r (.branches []) []
  | branch {r label block rest arm arms} : Laid config rule r (.block block) arm.groups →
      Laid config rule r (.branches rest) arms →
      Laid config rule r (.branches ((label, block) :: rest)) (arm :: arms)

theorem Laid.imp [Scalar α] {config : Config α} {rule other : Siblings α}
    (hbeside : ∀ node below beside, rule.beside node below beside → other.beside node below beside)
    (hcases : ∀ arms, rule.cases arms → other.cases arms)
    (hframed : ∀ frame body arms, rule.framed frame body arms → other.framed frame body arms)
    {r : Around} {piece : Piece} {groups : List (Shape α)} (h : Laid config rule r piece groups) :
    Laid config other r piece groups := by
  induction h with
  | text hnode => exact .text hnode
  | pass => exact .pass
  | jump => exact .jump
  | twoJumps hyes hno hparts hnode => exact .twoJumps hyes hno hparts hnode
  | yesBelow hyes hno hnode _ ih => exact .yesBelow hyes hno hnode ih
  | noBelow hyes hno hnode _ ih => exact .noBelow hyes hno hnode ih
  | twoArms hyes hno hnode _ _ hrule ihBelow ihBeside =>
      exact .twoArms hyes hno hnode ihBelow ihBeside (hbeside _ _ _ hrule)
  | whileLoop hloop hnode _ ih => exact .whileLoop hloop hnode ih
  | doLoop hloop _ hnode ih => exact .doLoop hloop ih hnode
  | switch hholder hnode _ hrule ih => exact .switch hholder hnode ih (hcases _ hrule)
  | tryBlock hholder hbefore _ _ hrule ihBody ihHandlers =>
      exact .tryBlock hholder hbefore ihBody ihHandlers (hframed _ _ _ hrule)
  | nothing => exact .nothing
  | last _ hdead ih => exact .last ih hdead
  | next _ hlive _ ih ihRest => exact .next ih hlive ihRest
  | noBranch => exact .noBranch
  | branch _ _ ihBlock ihRest => exact .branch ihBlock ihRest

namespace Strand

/-- The second strand has drawn more than the first, and these groups are among it. -/
def Adjoins (groups : List (Shape α)) (c d : Strand α) : Prop :=
  ∃ more, d.group.parts = c.group.parts ++ more ∧ Shape.groupsOf more = groups

variable {c d e : Strand α} {gs hs : List (Shape α)}

theorem Adjoins.refl (c : Strand α) : c.Adjoins [] c := ⟨[], (List.append_nil _).symm, rfl⟩

theorem Adjoins.trans (h : c.Adjoins gs d) (k : d.Adjoins hs e) : c.Adjoins (gs ++ hs) e := by
  obtain ⟨more, hmore, rfl⟩ := h
  obtain ⟨rest, hrest, rfl⟩ := k
  exact ⟨more ++ rest, by rw [hrest, hmore, List.append_assoc], List.filter_append _ _⟩

theorem Adjoins.quiet (h : c.Adjoins gs d) (k : d.Adjoins [] e) : c.Adjoins gs e := by
  have hboth := h.trans k
  rwa [List.append_nil] at hboth

theorem Adjoins.groups (h : c.Adjoins gs d) : d.group.groups = c.group.groups ++ gs := by
  obtain ⟨more, hmore, rfl⟩ := h
  unfold Group.groups Shape.groupsOf
  rw [hmore, List.filter_append]

theorem Adjoins.same (h : c.Adjoins [] d) : d.group.groups = c.group.groups :=
  h.groups.trans (List.append_nil _)

theorem Adjoins.revise (h : c.Adjoins gs d) {reach : α} {tip : Option α} {lanes : Lanes α}
    {breakTarget continueTarget : Option JumpTarget} {breaks continues : List (α × α)}
    {alive : Bool} {pad : α} {debug : Bool} {journal : List (Stroke α)} :
    c.Adjoins gs ⟨d.group, reach, tip, lanes, breakTarget, continueTarget, breaks, continues,
      alive, pad, debug, journal⟩ := h

theorem foldl_adjoins {β : Type} (f : Strand α → β → Strand α) (hf : ∀ c b, Adjoins [] c (f c b))
    (l : List β) (c : Strand α) : c.Adjoins [] (l.foldl f c) := by
  induction l generalizing c with
  | nil => exact .refl c
  | cons b rest ih => exact (hf c b).trans (ih (f c b))

theorem dropDeadTip_adjoins (c : Strand α) : c.Adjoins [] c.dropDeadTip := by
  unfold dropDeadTip
  split
  · exact .refl c
  · exact (Adjoins.refl c).revise

variable [Scalar α]

theorem draw_adjoins (c : Strand α) {s : Shape α} (hs : s.isPlaceholder = false) :
    c.Adjoins (Shape.groupsOf [s]) (c.draw s) := ⟨[s], c.group.parts_push hs, rfl⟩

theorem drawPath_adjoins (c : Strand α) (p : Path α) : c.Adjoins [] (c.draw (.path p)) :=
  c.draw_adjoins rfl

theorem drawLabel_adjoins (c : Strand α) (text : String) (size : Size α) (x y : α) :
    c.Adjoins [] (c.drawLabel text size x y) := draw_adjoins c rfl

theorem drawGroup_adjoins (c : Strand α) (g : Group α) : c.Adjoins [g.toShape] (c.draw g.toShape) :=
  c.draw_adjoins rfl

theorem trunkTo_adjoins (c : Strand α) (y : α) (arrow : Bool) : c.Adjoins [] (c.trunkTo y arrow) := by
  unfold trunkTo
  split
  · exact (c.drawPath_adjoins _).revise
  · exact (Adjoins.refl c).revise

theorem noteJump_adjoins (c : Strand α) (j : Jump) (p : α × α) : c.Adjoins [] (c.noteJump j p) := by
  unfold noteJump
  cases j <;> dsimp only <;> split
  · exact (Adjoins.refl c).revise.trans (draw_adjoins _ rfl)
  · exact (Adjoins.refl c).revise
  · exact (Adjoins.refl c).revise.trans (draw_adjoins _ rfl)
  · exact (Adjoins.refl c).revise

theorem takeBand_adjoins (c : Strand α) (start size : α) : c.Adjoins [] (c.takeBand start size).2 :=
  (Adjoins.refl c).revise

theorem takeLine_adjoins (c : Strand α) (start : α) : c.Adjoins [] (c.takeLine start).2 :=
  (Adjoins.refl c).revise

theorem takeExit_adjoins {start size y : α} {east : Bool}
    (h : c.takeExit start size east = .ok (y, d)) : c.Adjoins [] d := by
  unfold takeExit at h
  split at h
  · cases h
    exact (Adjoins.refl c).revise
  · cases h

theorem labelExit_adjoins (c : Strand α) (text : String) (size : Size α) (d : Direction)
    (box : DecisionBox α) : c.Adjoins [] (c.labelExit text size d box) := by
  unfold labelExit
  split
  · exact .refl c
  · cases d <;> exact drawLabel_adjoins _ _ _ _ _

theorem route_adjoins (c : Strand α) (role : RouteRole) (points : List (α × α)) (lane target : α) :
    c.Adjoins [] (c.route role points lane target) := by
  unfold route
  dsimp only
  split
  · exact (Adjoins.refl c).revise
  · refine .quiet ?_ (foldl_adjoins _ (fun c (p : α × α) =>
      c.drawPath_adjoins (Path.across p.1 p.2 (lane - p.1))) _ _)
    exact (Adjoins.refl c).revise.trans (drawPath_adjoins _ _)

theorem drawDecision_adjoins (c : Strand α) (diamond : Group α) (top : α) :
    c.Adjoins [(diamond.shift (-diamond.bounds.width / 2.0) top).toShape]
      (c.drawDecision diamond top).2 :=
  (c.trunkTo_adjoins top true).trans (drawGroup_adjoins _ _)

theorem parts_absorb (c child : Strand α) (dx : α) :
    (c.absorb child dx).group.parts = c.group.parts ++
      (child.group.shift dx 0).toShape :: (child.group.shift dx 0).outline c.debug := by
  have hpush := c.group.parts_push (s := (child.group.shift dx 0).toShape) rfl
  have hsame : (child.group.shift dx 0).isEmpty = child.group.isEmpty := rfl
  unfold absorb Group.outline
  rw [hsame]
  dsimp only
  split
  · exact (Group.parts_push _ rfl).trans (by rw [hpush, List.append_assoc]; rfl)
  · exact hpush

theorem absorb_adjoins (c child : Strand α) (dx : α) :
    c.Adjoins [(child.group.shift dx 0).toShape] (c.absorb child dx) := by
  refine ⟨_, c.parts_absorb child dx, ?_⟩
  unfold Group.outline
  split <;> rfl

end Strand

namespace Context
open Strand
variable [Scalar α] {x : Context α} {c d body : Strand α}

theorem marks_diamond (x : Context α) (test : String) (dx top : α) :
    ((x.diamond test).shift dx top).toShape.marks = Mark.test test := by
  rw [Group.marks_toShape, Group.marks_shift]
  exact Group.marks_around _ _ _ _

theorem arrangeText_adjoins (x : Context α) (content : String) (c : Strand α) :
    ∃ node : Shape α, c.Adjoins [node] (x.arrangeText content c) ∧
      node.marks = [.rect, .text content false] := by
  refine ⟨_, (((takeBand_adjoins _ _ _).trans (trunkTo_adjoins _ _ _)).trans
    (drawGroup_adjoins _ _)).revise, ?_⟩
  rw [Group.marks_toShape, Group.marks_shift]
  exact Group.marks_around _ _ _ _

theorem arrangeJump_adjoins {j : Jump} (h : x.arrangeJump j c = .ok d) : c.Adjoins [] d := by
  obtain ⟨heading, -, h⟩ := exists_of_bind_eq_ok h
  obtain ⟨⟨pos, taken⟩, htake, h⟩ := exists_of_bind_eq_ok h
  cases h
  exact (((takeExit_adjoins htake).trans (trunkTo_adjoins _ _ _)).trans
    (noteJump_adjoins _ _ _)).revise

theorem takeDecision_adjoins {test : String} {exits : Exit × Exit} {pos : α}
    (h : x.takeDecision test exits c = .ok (pos, d)) : c.Adjoins [] d := by
  unfold takeDecision at h
  dsimp only at h
  split at h
  · cases h
    exact c.takeBand_adjoins _ _
  · exact takeExit_adjoins h

theorem claimEast_adjoins (exits : Exit × Exit) (middle : α) (c : Strand α) :
    c.Adjoins [] (claimEast exits middle c) := by
  unfold claimEast
  split
  · exact (Adjoins.refl c).revise
  · exact .refl c

theorem openDecision_adjoins {test : String} {exits : Exit × Exit} {box : DecisionBox α}
    (h : x.openDecision test exits c = .ok (box, d)) :
    ∃ top, c.Adjoins [((x.diamond test).shift (-(x.diamond test).bounds.width / 2.0) top).toShape] d ∧
      box.width = (x.diamond test).bounds.width := by
  obtain ⟨⟨pos, taken⟩, htake, h⟩ := exists_of_bind_eq_ok h
  cases h
  refine ⟨pos + taken.pad, ?_, rfl⟩
  have htaken := (takeDecision_adjoins htake).trans
    (claimEast_adjoins exits (pos + taken.pad + (x.diamond test).bounds.height / 2.0) taken)
  exact ((htaken.trans (drawDecision_adjoins _ _ _)).quiet
    ((labelExit_adjoins _ _ _ _ _).trans (labelExit_adjoins _ _ _ _ _))).quiet
    (foldl_adjoins _ (fun c _ => c.noteJump_adjoins _ _) _ _)

theorem closeBelow_adjoins (arm c : Strand α) :
    c.Adjoins [(arm.group.shift 0 0).toShape] (closeBelow arm c) := (c.absorb_adjoins arm 0).revise

theorem closeBeside_adjoins (x : Context α) (box : DecisionBox α) (below arm c : Strand α) :
    c.Adjoins [(arm.group.shift (x.eastShift box (max (box.width / 2.0) below.group.extent.maxX) arm)
      0).toShape] (x.closeBeside box below arm c) := by
  have hmerged (p : Path α) (dx : α) :
      c.Adjoins [(arm.group.shift dx 0).toShape] ((c.draw (.path p)).absorb arm dx) :=
    (c.drawPath_adjoins p).trans (absorb_adjoins _ arm dx)
  unfold closeBeside
  dsimp only
  split
  · refine (Adjoins.quiet ?_ (trunkTo_adjoins _ _ _)).revise
    exact (((hmerged _ _).revise.quiet (takeLine_adjoins _ _)).quiet (drawPath_adjoins _ _)).revise
  · exact (hmerged _ _).revise

theorem enter_adjoins (x : Context α) (c : Strand α) : c.Adjoins [] (x.enter c).2 :=
  (c.takeLine_adjoins _).trans (trunkTo_adjoins _ _ _)

theorem openWhile_groups (x : Context α) (test : String) (c : Strand α) :
    ∃ node : Shape α, (x.openWhile test c).2.group.groups = [node] ∧ node.marks = Mark.test test := by
  have h : (c.loopBody .whileLoop).Adjoins _ (x.openWhile test c).2 :=
    ((((takeBand_adjoins _ _ _).trans (drawDecision_adjoins _ (x.diamond test) _)).quiet
      (labelExit_adjoins _ _ _ _ _)).quiet (labelExit_adjoins _ _ _ _ _)).revise
  exact ⟨_, h.groups, x.marks_diamond test _ _⟩

theorem gatherBack_adjoins {back : List (α × α)} (h : x.gatherBack body = .ok (back, d)) :
    body.Adjoins [] d := by
  unfold gatherBack at h
  dsimp only at h
  split at h
  · obtain ⟨⟨pos, taken⟩, htake, h⟩ := exists_of_bind_eq_ok h
    cases h
    exact (Adjoins.refl body).revise.trans ((takeExit_adjoins htake).trans (trunkTo_adjoins _ _ _))
  · cases h
    exact (Adjoins.refl body).revise

theorem routeBack_adjoins (x : Context α) (back : List (α × α)) (entry : α) (body : Strand α) :
    body.Adjoins [] (x.routeBack back entry body) := by
  unfold routeBack
  split
  · exact .refl body
  · exact body.route_adjoins _ _ _ _

theorem closeWhile_adjoins (x : Context α) (entry : α) (box : DecisionBox α) (back : List (α × α))
    (body c : Strand α) : ∃ loop : Shape α, c.Adjoins [loop] (x.closeWhile entry box back body c) ∧
      loop.groups = body.group.groups := by
  have hback := x.routeBack_adjoins back entry body
  unfold closeWhile
  dsimp only
  generalize x.routeBack back entry body = routed at hback ⊢
  refine ⟨_, ((Adjoins.refl c).revise.trans (absorb_adjoins _ _ _)).revise, ?_⟩
  exact (hback.revise.trans (route_adjoins { routed with breaks := [] } _ _ _ _)).same

theorem gatherOnward_adjoins (x : Context α) (body : Strand α) :
    body.Adjoins [] (x.gatherOnward body) := by
  unfold gatherOnward
  dsimp only
  split
  · exact (Adjoins.refl body).revise
  · have hline : body.Adjoins []
        (Strand.takeLine { body with continues := [] } (body.reach + x.halfGap)).2 :=
      (Adjoins.refl body).revise.trans (takeLine_adjoins _ _)
    exact (((hline.trans (dropDeadTip_adjoins _)).trans (trunkTo_adjoins _ _ _)).trans
      (route_adjoins _ _ _ _ _)).revise

theorem testDo_adjoins (x : Context α) (test : String) (entry : α) (body : Strand α) :
    ∃ node : Shape α, body.Adjoins [node] (x.testDo test entry body).2 ∧
      node.marks = Mark.test test := by
  refine ⟨_, ((((((body.takeBand_adjoins _ _).trans (dropDeadTip_adjoins _)).trans
    (drawDecision_adjoins _ (x.diamond test) _)).quiet (labelExit_adjoins _ _ _ _ _)).quiet
      (labelExit_adjoins _ _ _ _ _)).quiet (route_adjoins _ _ _ _ _)).revise, ?_⟩
  exact x.marks_diamond test _ _

theorem closeDo_adjoins (x : Context α) (test : String) (entry : α) (body c : Strand α) :
    ∃ loop node : Shape α, c.Adjoins [loop] (x.closeDo test entry body c) ∧
      loop.groups = body.group.groups ++ [node] ∧ node.marks = Mark.test test := by
  obtain ⟨node, htested, hnode⟩ := x.testDo_adjoins test entry (x.gatherOnward body)
  have hbody := (x.gatherOnward_adjoins body).trans htested
  unfold closeDo
  dsimp only
  generalize x.testDo test entry (x.gatherOnward body) = tested at hbody ⊢
  obtain ⟨box, tested⟩ := tested
  split
  · exact ⟨_, node, ((Adjoins.refl c).revise.trans (absorb_adjoins _ _ _)).revise, hbody.groups, hnode⟩
  · refine ⟨_, node, ((Adjoins.refl c).revise.trans (absorb_adjoins _ _ _)).revise, ?_, hnode⟩
    exact ((hbody.revise.quiet (trunkTo_adjoins _ _ _)).quiet (route_adjoins _ _ _ _ _)).groups

theorem openBranch_groups (x : Context α) (plan : FanPlan α) (label : String) (f : Fan α) :
    (x.openBranch plan label f).group.groups = [] := by
  unfold openBranch labelBranch
  split
  · rfl
  · exact ((takeBand_adjoins { f.holder.fork with tip := some plan.tap } _ _).trans
      (drawLabel_adjoins _ _ _ _ _)).groups

theorem closeBranch_adjoins (x : Context α) (plan : FanPlan α) (index : Nat) (arm : Strand α)
    (f : Fan α) : f.holder.Adjoins [(arm.group.shift (x.branchDx plan index arm f) 0).toShape]
      (x.closeBranch plan index arm f).holder := by
  have hgroup : (if plan.takesBreaks then { arm with breaks := [] } else arm : Strand α).group =
      arm.group := by split <;> rfl
  rw [← hgroup]
  exact (f.holder.absorb_adjoins _ _).revise

theorem joinEnds_adjoins (ends : List (α × α)) (holder : Strand α) :
    holder.Adjoins [] (joinEnds ends holder) := by
  unfold joinEnds
  dsimp only
  refine ((holder.takeLine_adjoins _).trans (foldl_adjoins _ (fun c (p : α × α) => ?_) _ _)).revise
  split <;> exact c.drawPath_adjoins _

theorem adopt_adjoins (holder c : Strand α) :
    c.Adjoins [(holder.group.shift 0 0).toShape] (adopt holder c) := (c.absorb_adjoins holder 0).revise

theorem openSwitch_groups (x : Context α) (subject : String) (c : Strand α) :
    ∃ node : Shape α, (x.openSwitch subject c).2.2.group.groups = [node] ∧
      node.marks = Mark.test subject := by
  have h : c.switchHolder.Adjoins _ (x.openSwitch subject c).2.2 :=
    (((takeBand_adjoins _ _ _).trans (drawDecision_adjoins _ (x.diamond subject) _)).revise.quiet
      (takeLine_adjoins _ _)).quiet (trunkTo_adjoins _ _ _)
  exact ⟨_, h.groups, x.marks_diamond subject _ _⟩

theorem settleEnds_adjoins (ends : List (BranchEnd α)) (holder : Strand α) :
    holder.Adjoins [] (settleEnds ends holder) := by
  unfold settleEnds
  split
  · exact (Adjoins.refl holder).revise
  · exact (Adjoins.refl holder).revise
  · exact joinEnds_adjoins _ holder

theorem gatherBreaks_adjoins (x : Context α) (breaks : List (α × α)) (holder : Strand α) :
    holder.Adjoins [] (x.gatherBreaks breaks holder) := by
  unfold gatherBreaks
  dsimp only
  split
  · exact .refl holder
  · exact ((((holder.takeLine_adjoins _).trans (dropDeadTip_adjoins _)).trans
      (trunkTo_adjoins _ _ _)).trans (route_adjoins _ _ _ _ _)).revise

theorem closeSwitch_adjoins (x : Context α) (tap : α) (f : Fan α) (c : Strand α) :
    ∃ holder : Shape α, c.Adjoins [holder] (x.closeSwitch tap f c) ∧
      holder.groups = f.holder.group.groups := by
  have htap : f.finish.Adjoins [] (drawTap tap f.lastDx f.finish) := by
    unfold drawTap
    split
    · exact drawPath_adjoins _ _
    · exact .refl _
  refine ⟨_, adopt_adjoins _ c, ?_⟩
  exact ((htap.trans (settleEnds_adjoins f.ends _)).trans (x.gatherBreaks_adjoins f.breaks _)).same

theorem openTry_groups (x : Context α) (c : Strand α) : (x.openTry c).2.1.group.groups = [] :=
  ((takeLine_adjoins c.fork _).trans (trunkTo_adjoins _ _ _)).groups

/-- The body of a try, down to the lower side of its frame. -/
def closedBody (x : Context α) (body : Strand α) : Strand α :=
  let (bottom, body) := body.takeLine (body.reach + x.config.frame.padY)
  if body.alive then body.trunkTo bottom false else body

/-- The frame of a try around its body. -/
def frameAround (x : Context α) (top : α) (body : Strand α) : Outline α :=
  let bottom := (body.takeLine (body.reach + x.config.frame.padY)).1
  let bounds := (x.closedBody body).group.extent
  let left := min bounds.minX 0 - x.config.frame.padX
  let right := max bounds.maxX 0 + x.config.frame.padX
  ⟨left, top, right - left, bottom - top⟩

theorem closedBody_adjoins (x : Context α) (body : Strand α) :
    body.Adjoins [] (x.closedBody body) := by
  unfold closedBody
  dsimp only
  split
  · exact (body.takeLine_adjoins _).trans (trunkTo_adjoins _ _ _)
  · exact body.takeLine_adjoins _

theorem closeFrame_parts (x : Context α) (top : α) (body holder : Strand α) :
    (x.closeFrame top body holder).holder.group.parts = holder.group.parts ++
      ((x.closedBody body).group.shift 0 0).toShape ::
        ((x.closedBody body).group.shift 0 0).outline holder.debug ++
          [.frame (x.frameAround top body)] := by
  have hpush := Group.parts_push
    (Strand.absorb
      { holder with
        reach := max holder.reach (x.closedBody body).reach
        lanes := (x.closedBody body).lanes }
      (x.closedBody body) 0).group
    (s := .frame (x.frameAround top body)) rfl
  rw [parts_absorb] at hpush
  exact hpush

theorem closeTry_adjoins (tap : α) (framed : Framed α) (f : Fan α) (c : Strand α) :
    ∃ holder : Shape α, c.Adjoins [holder] (closeTry tap framed f c) ∧
      ∃ more, holder.parts = f.holder.group.parts ++ more ∧ Shape.groupsOf more = [] := by
  unfold closeTry
  dsimp only
  refine ⟨_, adopt_adjoins _ c, ?_⟩
  rw [Group.parts_toShape, Group.parts_shift]
  split
  · exact (f.finish.drawPath_adjoins _).revise
  · exact (f.finish.drawPath_adjoins _).trans (joinEnds_adjoins _ _)

end Context
end Flowchart
