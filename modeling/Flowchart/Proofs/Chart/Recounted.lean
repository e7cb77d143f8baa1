import Flowchart.Proofs.Chart.Told
/-! Strands that tell a story. Drawing adds leaves, a branch brings its own story, and a connector
takes the points that it brings together out of those that are pending. -/
namespace Flowchart
variable {α : Type}

def Stroke.isRoute : Stroke α → Bool
  | .trunk .. => false
  | .route .. => true

namespace Strand

def routes (c : Strand α) : List (Stroke α) := c.journal.filter Stroke.isRoute

structure Posts (points : List (Jump × (α × α))) (c d : Strand α) : Prop where
  group : d.group = c.group
  journal : d.journal = c.journal
  breaks : d.breaks = c.breaks ++ Story.leftBy .leave points
  continues : d.continues = c.continues ++ Story.leftBy .resume points

theorem Posts.refl (c : Strand α) : c.Posts [] c :=
  ⟨rfl, rfl, (List.append_nil _).symm, (List.append_nil _).symm⟩

end Strand

theorem Story.leftBy_append {β : Type} (j : Jump) (points more : List (Jump × β)) :
    leftBy j (points ++ more) = leftBy j points ++ leftBy j more := by
  unfold leftBy
  rw [List.filter_append, List.map_append]

theorem Story.forall₂_leftBy {β γ δ : Type} {R : γ → δ → Prop} (j : Jump) (f : β → γ) (g : β → δ)
    (jumps : List (Jump × β)) (h : ∀ e ∈ jumps, R (f e.2) (g e.2)) :
    List.Forall₂ R (leftBy j (jumps.map fun e => (e.1, f e.2)))
      (leftBy j (jumps.map fun e => (e.1, g e.2))) := by
  unfold leftBy
  rw [List.filter_map, List.filter_map, List.map_map, List.map_map, List.forall₂_map_left_iff,
    List.forall₂_map_right_iff]
  exact List.forall₂_same.mpr fun e he => h e (List.mem_filter.mp he).1

variable [Scalar α]

namespace Strand

/-- The account of a strand, if some breaks were taken out of it before. -/
def account (taken : List (α × α)) (c : Strand α) : Account α :=
  ⟨c.group.visible, taken ++ c.breaks, c.continues, c.routes⟩

structure Recounts (x : Context α) (s : Story) (taken : List (α × α)) (c : Strand α) : Prop where
  left : c.group.x = 0
  top : c.group.y = 0
  tells : (c.account taken).Tells x s

structure Renders (shown : List (Placed α)) (c d : Strand α) : Prop where
  left : d.group.x = c.group.x
  top : d.group.y = c.group.y
  leaves : ∃ more, d.group.visible = c.group.visible ++ more ∧ shown.Sublist more
  breaks : d.breaks = c.breaks
  continues : d.continues = c.continues
  routes : d.routes = c.routes

variable {c d e : Strand α} {shown also : List (Placed α)}

theorem Renders.refl (c : Strand α) : c.Renders [] c :=
  ⟨rfl, rfl, ⟨[], (List.append_nil _).symm, .slnil⟩, rfl, rfl, rfl⟩

theorem Renders.trans (h : c.Renders shown d) (k : d.Renders also e) : c.Renders (shown ++ also) e where
  left := k.left.trans h.left
  top := k.top.trans h.top
  leaves := by
    obtain ⟨more, hmore, hshown⟩ := h.leaves
    obtain ⟨rest, hrest, halso⟩ := k.leaves
    exact ⟨more ++ rest, by rw [hrest, hmore, List.append_assoc], hshown.append halso⟩
  breaks := k.breaks.trans h.breaks
  continues := k.continues.trans h.continues
  routes := k.routes.trans h.routes

theorem Renders.quiet (h : c.Renders shown d) (k : d.Renders [] e) : c.Renders shown e := by
  have hboth := h.trans k
  rwa [List.append_nil] at hboth

theorem Renders.sublist (h : c.Renders shown d) : c.group.visible.Sublist d.group.visible := by
  obtain ⟨more, hmore, -⟩ := h.leaves
  exact hmore ▸ List.sublist_append_left _ _

theorem Renders.revise (h : c.Renders shown d) {reach : α} {tip : Option α} {lanes : Lanes α}
    {breakTarget continueTarget : Option JumpTarget} {alive debug : Bool} {pad : α} :
    c.Renders shown ⟨d.group, reach, tip, lanes, breakTarget, continueTarget, d.breaks, d.continues,
      alive, pad, debug, d.journal⟩ :=
  ⟨h.left, h.top, h.leaves, h.breaks, h.continues, h.routes⟩

theorem draw_renders (c : Strand α) (s : Shape α) : c.Renders s.visible (c.draw s) := by
  have hplace : (c.group.push s).x = c.group.x ∧ (c.group.push s).y = c.group.y := by
    unfold Group.push
    split <;> exact ⟨rfl, rfl⟩
  exact ⟨hplace.1, hplace.2, ⟨_, Group.visible_push _ _, .refl _⟩, rfl, rfl, rfl⟩

theorem draw_quiet (c : Strand α) (s : Shape α) : c.Renders [] (c.draw s) := by
  obtain ⟨hx, hy, ⟨more, hmore, -⟩, hbreaks, hcontinues, hroutes⟩ := draw_renders c s
  exact ⟨hx, hy, ⟨more, hmore, List.nil_sublist _⟩, hbreaks, hcontinues, hroutes⟩

theorem foldl_quiet {β : Type} (f : Strand α → β → Strand α) (hf : ∀ c b, Renders [] c (f c b))
    (l : List β) (c : Strand α) : c.Renders [] (l.foldl f c) := by
  induction l generalizing c with
  | nil => exact .refl c
  | cons b rest ih => exact (hf c b).trans (ih (f c b))

theorem dropDeadTip_quiet (c : Strand α) : c.Renders [] c.dropDeadTip := by
  unfold dropDeadTip
  split
  · exact .refl c
  · exact (Renders.refl c).revise

theorem trunkTo_renders {tip : α} (h : c.tip = some tip) (y : α) :
    c.Renders [⟨.path (Path.down 0 tip (y - tip)), 0, 0⟩] (c.trunkTo y false) := by
  have hdrawn := draw_renders c (.path (Path.down 0 tip (y - tip)))
  unfold trunkTo
  rw [h]
  refine ⟨hdrawn.left, hdrawn.top, hdrawn.leaves, rfl, rfl, ?_⟩
  change (c.journal ++ [Stroke.trunk tip y]).filter Stroke.isRoute = c.routes
  rw [List.filter_append]
  exact List.append_nil _

theorem trunkTo_quiet (c : Strand α) (y : α) (arrow : Bool) : c.Renders [] (c.trunkTo y arrow) := by
  unfold trunkTo
  split
  · next tip _ =>
      have hdrawn := draw_quiet c
        (.path (if arrow = true then (Path.down 0 tip (y - tip)).withArrow else Path.down 0 tip (y - tip)))
      refine ⟨hdrawn.left, hdrawn.top, hdrawn.leaves, rfl, rfl, ?_⟩
      change (c.journal ++ [Stroke.trunk tip y]).filter Stroke.isRoute = c.routes
      rw [List.filter_append]
      exact List.append_nil _
  · exact (Renders.refl c).revise

theorem takeBand_quiet (c : Strand α) (start size : α) : c.Renders [] (c.takeBand start size).2 :=
  (Renders.refl c).revise

theorem takeLine_quiet (c : Strand α) (start : α) : c.Renders [] (c.takeLine start).2 :=
  (Renders.refl c).revise

theorem takeExit_quiet {start size y : α} {east : Bool}
    (h : c.takeExit start size east = .ok (y, d)) : c.Renders [] d := by
  unfold takeExit at h
  split at h
  · cases h
    exact (Renders.refl c).revise
  · cases h

theorem labelExit_quiet (c : Strand α) (text : String) (size : Size α) (d : Direction)
    (box : DecisionBox α) : c.Renders [] (c.labelExit text size d box) := by
  unfold labelExit
  split
  · exact .refl c
  · cases d <;> exact draw_quiet c _

theorem noteJump_posts (h : c.debug = false) (j : Jump) (p : α × α) :
    c.Posts [(j, p)] (c.noteJump j p) := by
  rw [noteJump_eq h]
  cases j with
  | leave => exact ⟨rfl, rfl, rfl, (List.append_nil _).symm⟩
  | resume => exact ⟨rfl, rfl, (List.append_nil _).symm, rfl⟩

theorem foldl_noteJump_posts {β : Type} (point : β → α × α) (jumps : List (Jump × β))
    (h : c.debug = false) : c.Posts (jumps.map fun e => (e.1, point e.2))
      (jumps.foldl (fun c e => c.noteJump e.1 (point e.2)) c) := by
  induction jumps generalizing c with
  | nil => exact .refl c
  | cons first rest ih =>
      have hfirst := noteJump_posts h first.1 (point first.2)
      have hrest := ih ((c.noteJump_redraws first.1 (point first.2)).debug.trans h)
      refine ⟨hrest.group.trans hfirst.group, hrest.journal.trans hfirst.journal, ?_, ?_⟩
      · rw [List.foldl_cons, hrest.breaks, hfirst.breaks, List.append_assoc, ← Story.leftBy_append]
        rfl
      · rw [List.foldl_cons, hrest.continues, hfirst.continues, List.append_assoc,
          ← Story.leftBy_append]
        rfl

variable {x : Context α} {s t : Story} {taken : List (α × α)}

theorem recounts_blank (hgroup : c.group = .empty) (hbreaks : c.breaks = [])
    (hcontinues : c.continues = []) (hjournal : c.journal = []) : c.Recounts x .blank [] := by
  refine ⟨congrArg Group.x hgroup, congrArg Group.y hgroup, [], Retold.nil x _, ?_, ?_, ?_⟩
  · unfold account
    rw [hbreaks]
    exact .nil
  · unfold account
    rw [hcontinues]
    exact .nil
  · unfold account routes
    rw [hjournal]
    exact .nil

theorem Recounts.quiet (h : c.Recounts x s taken) (k : c.Renders [] d) : d.Recounts x s taken := by
  have htells := h.tells.mono k.sublist
  refine ⟨k.left.trans h.left, k.top.trans h.top, ?_⟩
  unfold account at htells ⊢
  rw [k.breaks, k.continues, k.routes]
  exact htells

theorem Recounts.extend (h : c.Recounts x s taken) (k : c.Renders shown d)
    {points : List (Jump × (α × α))} (n : d.Posts points e)
    (ht : Account.Tells x t ⟨shown, Story.leftBy .leave points, Story.leftBy .resume points, []⟩) :
    e.Recounts x (s.append t) taken := by
  obtain ⟨more, hmore, hshown⟩ := k.leaves
  have htells := h.tells.append (ht.mono hshown)
  refine ⟨?_, ?_, ?_⟩
  · rw [n.group, k.left, h.left]
  · rw [n.group, k.top, h.top]
  · have hroutes : e.routes = c.routes := (congrArg (List.filter _) n.journal).trans k.routes
    unfold Account.append account at htells
    unfold account
    rw [n.group, hmore, n.breaks, k.breaks, n.continues, k.continues, hroutes, ← List.append_assoc]
    rwa [List.append_nil] at htells

theorem Recounts.absorb (h : c.Recounts x s taken) (debug : c.debug = false) {arm : Strand α}
    (k : arm.Recounts x t []) (dx : α) : (c.absorb arm dx).Recounts x (s.append t) taken := by
  have hdrawn := draw_renders c (arm.group.shift dx 0).toShape
  have hmoved := h.tells.append
    (k.tells.move fun exact => Group.visible_shift exact k.left k.top dx 0)
  rw [absorb_eq debug]
  refine ⟨hdrawn.left.trans h.left, hdrawn.top.trans h.top, ?_⟩
  unfold Account.append account at hmoved
  unfold account routes
  dsimp only
  rw [Group.visible_push, List.filter_append, ← List.append_assoc]
  exact hmoved

theorem route_quiet (c : Strand α) (role : RouteRole) (points : List (α × α)) (lane target : α) :
    ({ c with journal := c.journal ++ [.route role points lane target c.group] } : Strand α).Renders []
      (c.route role points lane target) := by
  unfold route
  dsimp only
  split
  · exact .refl _
  · exact (draw_quiet _ _).trans (foldl_quiet _ (fun d _ => draw_quiet d _) _ _)

theorem route_drawn {told : List (Token × Placed α)} {points : List (α × α)} {way : Connector}
    {connectors : List Connector} (hretold : Retold x way.told d.group.visible told)
    (hnoted : Noted x told way.origins points)
    (hroutes : List.Forall₂ (Connector.Drawn x) connectors d.routes) (lane target : α) :
    List.Forall₂ (Connector.Drawn x) (connectors ++ [way])
      (d.route way.role points lane target).routes := by
  rw [(route_quiet d way.role points lane target).routes]
  unfold routes
  rw [List.filter_append]
  exact List.rel_append hroutes (.cons (.route hretold hnoted) .nil)

theorem Recounts.routeLeaving (h : c.Recounts x s taken) (k : { c with breaks := [] }.Renders [] d)
    {way : Connector} (horigins : way.origins = s.leaving) (htold : way.told = s.tokens)
    (lane target : α) : (d.route way.role (taken ++ c.breaks) lane target).Recounts x
      { s with leaving := [], connectors := s.connectors ++ [way] } [] := by
  obtain ⟨told, hretold, hbreaks, hcontinues, hroutes⟩ := h.tells
  have hquiet := route_quiet d way.role (taken ++ c.breaks) lane target
  refine ⟨(hquiet.left.trans k.left).trans h.left, (hquiet.top.trans k.top).trans h.top, told,
    hretold.mono (k.sublist.trans hquiet.sublist), ?_, ?_, ?_⟩
  · unfold account
    rw [hquiet.breaks, k.breaks]
    exact .nil
  · unfold account
    rw [hquiet.continues, k.continues]
    exact hcontinues
  · refine route_drawn ((htold ▸ hretold).mono k.sublist) (horigins ▸ hbreaks) ?_ lane target
    rw [k.routes]
    exact hroutes

theorem Recounts.routeResuming (h : c.Recounts x s taken)
    (k : { c with continues := [] }.Renders [] d) {way : Connector}
    (horigins : way.origins = s.resuming) (htold : way.told = s.tokens) (lane target : α) :
    (d.route way.role c.continues lane target).Recounts x
      { s with resuming := [], connectors := s.connectors ++ [way] } taken := by
  obtain ⟨told, hretold, hbreaks, hcontinues, hroutes⟩ := h.tells
  have hquiet := route_quiet d way.role c.continues lane target
  refine ⟨(hquiet.left.trans k.left).trans h.left, (hquiet.top.trans k.top).trans h.top, told,
    hretold.mono (k.sublist.trans hquiet.sublist), ?_, ?_, ?_⟩
  · unfold account
    rw [hquiet.breaks, k.breaks]
    exact hbreaks
  · unfold account
    rw [hquiet.continues, k.continues]
    exact .nil
  · refine route_drawn ((htold ▸ hretold).mono k.sublist) (horigins ▸ hcontinues) ?_ lane target
    rw [k.routes]
    exact hroutes

end Strand

end Flowchart
