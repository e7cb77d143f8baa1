import Flowchart.Proofs.Chart.Recounted
/-! How the constructs of a program continue a story. Loops and switches draw the connectors for the
jumps that refer to them; decisions and tries pass all jumps on. -/
namespace Flowchart
open Strand
variable {α : Type} [Scalar α]

namespace Strand
variable {x : Context α} {s t : Story} {taken : List (α × α)} {c d : Strand α}
  {shown : List (Placed α)}

theorem Renders.recounts (h : c.Renders shown d) (hgroup : c.group = .empty) (hbreaks : c.breaks = [])
    (hcontinues : c.continues = []) (hjournal : c.journal = [])
    (ht : Account.Tells x t ⟨shown, taken, [], []⟩) : d.Recounts x t taken := by
  obtain ⟨more, hmore, hshown⟩ := h.leaves
  rw [hgroup] at hmore
  refine ⟨h.left.trans (congrArg Group.x hgroup), h.top.trans (congrArg Group.y hgroup), ?_⟩
  have hroutes : d.routes = [] := h.routes.trans (congrArg (List.filter _) hjournal)
  unfold account
  rw [h.breaks, hbreaks, h.continues, hcontinues, hroutes, List.append_nil]
  exact ht.mono (hmore ▸ hshown)

theorem Renders.setAside (h : { c with continues := [] }.Renders shown d) :
    c.Renders shown { d with continues := c.continues } :=
  ⟨h.left, h.top, h.leaves, h.breaks, rfl, h.routes⟩

omit [Scalar α] in
theorem setContinues_eq {points : List (α × α)} (h : c.continues = points) :
    { c with continues := points } = c := by
  cases h
  rfl

omit [Scalar α] in
theorem setBreaks_eq {points : List (α × α)} (h : c.breaks = points) :
    { c with breaks := points } = c := by
  cases h
  rfl

theorem Recounts.congr (h : c.Recounts x s taken) (tokens : t.tokens = s.tokens)
    (leaving : t.leaving = s.leaving) (resuming : t.resuming = s.resuming)
    (connectors : t.connectors = s.connectors) : c.Recounts x t taken := by
  refine ⟨h.left, h.top, ?_⟩
  unfold Account.Tells
  rw [tokens, leaving, resuming, connectors]
  exact h.tells

theorem Recounts.continues_isEmpty (h : c.Recounts x s taken) :
    c.continues.isEmpty = s.resuming.isEmpty := by
  obtain ⟨told, -, -, hcontinues, -⟩ := h.tells
  exact hcontinues.isEmpty

theorem Recounts.breaks_isEmpty (h : c.Recounts x s taken) :
    (taken ++ c.breaks).isEmpty = s.leaving.isEmpty := by
  obtain ⟨told, -, hbreaks, -, -⟩ := h.tells
  exact hbreaks.isEmpty

theorem Recounts.noResuming (h : c.Recounts x s taken) {k : Connector}
    (horigins : k.origins = s.resuming) (hempty : c.continues.isEmpty = true) :
    c.Recounts x { s with resuming := [], connectors := s.connectors ++ k.ifNeeded } taken := by
  have hnone : s.resuming.isEmpty = true := h.continues_isEmpty ▸ hempty
  rw [Connector.ifNeeded, horigins, if_pos hnone]
  exact h.congr rfl rfl (List.isEmpty_iff.mp hnone).symm (List.append_nil _)

theorem Recounts.noLeaving (h : c.Recounts x s []) {k : Connector}
    (horigins : k.origins = s.leaving) (hempty : c.breaks.isEmpty = true) :
    c.Recounts x { s with leaving := [], connectors := s.connectors ++ k.ifNeeded } [] := by
  have hnone : s.leaving.isEmpty = true := h.breaks_isEmpty ▸ hempty
  rw [Connector.ifNeeded, horigins, if_pos hnone]
  exact h.congr rfl (List.isEmpty_iff.mp hnone).symm rfl (List.append_nil _)

theorem ifNeeded_of_some {k : Connector} (h : k.origins.isEmpty = false) : k.ifNeeded = [k] := by
  rw [Connector.ifNeeded, h]
  rfl

end Strand

namespace Context
variable {x : Context α} {s t : Story} {taken : List (α × α)} {c d arm : Strand α}

theorem caption_tells (x : Context α) {shape : Shape α} {outline : Placed α} {p : Placed α}
    {text : Caption α} (hshape : shape.visible = [outline, p]) (hp : p.shape = .text text)
    (hlabel : text.isLabel = false) :
    Account.Tells x (.caption text.content) ⟨shape.visible, [], [], []⟩ := by
  refine ⟨[(.caption text.content, p)], ⟨rfl, fun e he => ?_, fun _ => ?_⟩, .nil, .nil, .nil⟩
  · rw [List.mem_singleton.mp he]
    exact ⟨text, hp, rfl, hlabel⟩
  · rw [hshape]
    exact .cons _ (.refl _)

theorem arrangeText_recounts (h : c.Recounts x s taken) (content : String) :
    (x.arrangeText content c).Recounts x (s.append (.caption content)) taken := by
  unfold arrangeText
  dsimp only
  generalize hbox : Group.boxAround content (x.captionSize content).width
    (x.captionSize content).height x.config.rect.padX x.config.rect.padY = box
  obtain ⟨outline, text, hchildren, hcontent, hlabel⟩ : ∃ outline text,
      box.children = [.rect outline, .text text] ∧ text.content = content ∧ text.isLabel = false := by
    rw [← hbox]
    exact ⟨_, _, rfl, rfl, rfl⟩
  have hvisible : ∀ dx dy, (box.shift dx dy).toShape.visible =
      [⟨.rect outline, 0 + (box.x + dx), 0 + (box.y + dy)⟩,
        ⟨.text text, 0 + (box.x + dx), 0 + (box.y + dy)⟩] := by
    intro dx dy
    unfold Shape.visible Group.toShape Group.shift
    rw [Shape.leaves, hchildren]
    rfl
  have htells := fun dx dy => caption_tells x (hvisible dx dy) rfl hlabel
  rw [hcontent] at htells
  exact h.extend (((takeBand_quiet c _ _).trans (trunkTo_quiet _ _ _)).trans (draw_renders _ _)).revise
    (.refl _) (htells _ _)

theorem test_tells (x : Context α) (r : Around) (a : Address) (content : String) (top : α)
    (exits : List (Jump × Direction)) (hexits : ∀ e ∈ exits, e.2 ≠ .south) :
    let size := (x.diamond content).bounds
    let point (d : Direction) : α × α :=
      (if d = .east then size.width / 2.0 else -size.width / 2.0, top + size.height / 2.0)
    Account.Tells x (.test r a content exits)
      ⟨((x.diamond content).shift (-size.width / 2.0) top).toShape.visible,
        Story.leftBy .leave (exits.map fun e => (e.1, point e.2)),
        Story.leftBy .resume (exits.map fun e => (e.1, point e.2)), []⟩ := by
  intro size point
  obtain ⟨outline, text, hchildren, hcontent, hlabel⟩ : ∃ outline text,
      (x.diamond content).children = [.diamond outline, .text text] ∧ text.content = content ∧
        text.isLabel = false := ⟨_, _, rfl, rfl, rfl⟩
  obtain ⟨px, hpx⟩ : ∃ px, px = 0 + (0 + -size.width / 2.0) := ⟨_, rfl⟩
  obtain ⟨py, hpy⟩ : ∃ py, py = 0 + (0 + top) := ⟨_, rfl⟩
  have hvisible : ((x.diamond content).shift (-size.width / 2.0) top).toShape.visible =
      [⟨.diamond outline, px, py⟩, ⟨.text text, px, py⟩] := by
    unfold Shape.visible Group.toShape Group.shift
    rw [Shape.leaves, hchildren, hpx, hpy]
    rfl
  obtain ⟨told, htold⟩ : ∃ told : List (Token × Placed α), told =
      [(.test a content, ⟨.diamond outline, px, py⟩), (.caption content, ⟨.text text, px, py⟩)] :=
    ⟨_, rfl⟩
  have hat : ∀ j, Noted x told (Story.leftBy j (exits.map fun e => (e.1, .side a e.2)))
      (Story.leftBy j (exits.map fun e => (e.1, point e.2))) := by
    refine fun j => Story.forall₂_leftBy j _ _ exits fun e he exact => ?_
    have hside : x.side content ⟨.diamond outline, px, py⟩ e.2 = point e.2 := by
      rw [hpx, hpy, exact.zero_add, exact.zero_add, exact.zero_add, exact.zero_add]
      unfold side
      cases hd : e.2 with
      | east =>
          change (-size.width / 2.0 + size.width, _) = _
          rw [exact.add_half]
          rfl
      | west => rfl
      | south => exact absurd hd (hexits e he)
    rw [← hside]
    exact .side (htold ▸ List.mem_cons_self)
  refine ⟨told, ⟨htold ▸ rfl, fun e he => ?_, fun _ => ?_⟩, hat .leave, hat .resume, .nil⟩
  · rw [htold] at he
    rcases List.mem_cons.mp he with rfl | he
    · exact ⟨outline, _, rfl, hchildren⟩
    · rw [List.mem_singleton.mp he]
      exact ⟨text, rfl, hcontent, hlabel⟩
  · rw [hvisible, htold]
    exact .refl _

theorem drawDecision_renders (c : Strand α) (content : String) (top : α) :
    c.Renders ((x.diamond content).shift (-(x.diamond content).bounds.width / 2.0) top).toShape.visible
      (c.drawDecision (x.diamond content) top).2 := by
  have hdrawn := (trunkTo_quiet c top true).trans (draw_renders _
    ((x.diamond content).shift (-(x.diamond content).bounds.width / 2.0) top).toShape)
  rwa [List.nil_append] at hdrawn

theorem labelled_renders (x : Context α) (c : Strand α) (content : String) (top : α)
    (yes no : Direction) :
    c.Renders ((x.diamond content).shift (-(x.diamond content).bounds.width / 2.0) top).toShape.visible
      (((c.drawDecision (x.diamond content) top).2.labelExit x.config.yesText x.yesSize yes
        (c.drawDecision (x.diamond content) top).1).labelExit x.config.noText x.noSize no
          (c.drawDecision (x.diamond content) top).1) :=
  ((drawDecision_renders c content top).quiet (labelExit_quiet _ _ _ _ _)).quiet
    (labelExit_quiet _ _ _ _ _)

theorem jump_tells (x : Context α) (r : Around) (a : Address) (j : Jump) (tip y : α) :
    Account.Tells x (.jump r a j) ⟨[⟨.path (Path.down 0 tip (y - tip)), 0, 0⟩],
      Story.leftBy .leave [(j, (0, y))], Story.leftBy .resume [(j, (0, y))], []⟩ := by
  obtain ⟨told, htold⟩ : ∃ told : List (Token × Placed α), told =
      [(.turn a, ⟨.path (Path.down 0 tip (y - tip)), 0, 0⟩)] := ⟨_, rfl⟩
  have hat : ∀ k, Noted x told (Story.leftBy k [(j, .turn a)]) (Story.leftBy k [(j, (0, y))]) := by
    refine fun k => Story.forall₂_leftBy k (fun _ : Unit => Origin.turn a) (fun _ => (0, y))
      [(j, ())] fun e _ exact => .turn (htold ▸ List.mem_singleton_self _) ?_
    unfold Placed.stop?
    dsimp only
    rw [exact.getLast?_down, Option.map_some, exact.zero_add, exact.zero_add]
  refine ⟨told, ⟨htold ▸ rfl, fun e he => ?_, fun _ => ?_⟩, hat .leave, hat .resume, .nil⟩
  · rw [htold] at he
    rw [List.mem_singleton.mp he]
    exact ⟨_, _, rfl⟩
  · rw [htold]
    exact .refl _

theorem arrangeJump_recounts (h : c.Recounts x s taken) (debug : c.debug = false)
    (htip : c.tip.isSome) {j : Jump} (hjump : x.arrangeJump j c = .ok d) (r : Around) (a : Address) :
    d.Recounts x (s.append (.jump r a j)) taken := by
  obtain ⟨heading, -, hjump⟩ := exists_of_bind_eq_ok hjump
  obtain ⟨⟨pos, t⟩, htake, hjump⟩ := exists_of_bind_eq_ok hjump
  cases hjump
  have htakes := takeExit_adds htake
  obtain ⟨tip, htip⟩ := Option.isSome_iff_exists.mp (htakes.tip htip)
  have hdrawn := (takeExit_quiet htake).trans (trunkTo_renders htip (pos + t.pad))
  have hposts := noteJump_posts (c := t.trunkTo (pos + t.pad) false)
    ((trunkTo_redraws t _ _).debug.trans (htakes.debug.trans debug)) j (0, pos + t.pad)
  exact (h.extend hdrawn hposts (jump_tells x r a j tip _)).quiet (Renders.refl _).revise

theorem takeDecision_quiet {test : String} {exits : Exit × Exit} {pos : α}
    (h : x.takeDecision test exits c = .ok (pos, d)) : c.Renders [] d := by
  unfold takeDecision at h
  dsimp only at h
  split at h
  · cases h
    exact takeBand_quiet _ _ _
  · exact takeExit_quiet h

theorem claimEast_quiet (exits : Exit × Exit) (middle : α) (c : Strand α) :
    c.Renders [] (claimEast exits middle c) := by
  unfold claimEast
  split
  · exact (Renders.refl c).revise
  · exact .refl c

theorem openDecision_recounts (h : c.Recounts x s taken) (debug : c.debug = false) {test : String}
    {exits : Exit × Exit} {box : DecisionBox α} (hopen : x.openDecision test exits c = .ok (box, d))
    (hexits : ∀ e ∈ exitJumps exits, e.2 ≠ .south) (r : Around) (a : Address) :
    d.Recounts x (s.append (.test r a test (exitJumps exits))) taken := by
  obtain ⟨⟨pos, t⟩, htake, hopen⟩ := exists_of_bind_eq_ok hopen
  have hkeeps := (x.takeDecision_keeps htake).trans (claimEast_keeps exits
    (pos + t.pad + (x.diamond test).bounds.height / 2.0) t)
  have hready := h.quiet ((takeDecision_quiet htake).trans (claimEast_quiet exits
    (pos + t.pad + (x.diamond test).bounds.height / 2.0) t))
  cases hopen
  generalize claimEast exits (pos + t.pad + (x.diamond test).bounds.height / 2.0) t = e
    at hkeeps hready ⊢
  have hdrawn := labelled_renders x e test (pos + t.pad) exits.1.direction exits.2.direction
  have hredraws := ((drawDecision_redraws e (x.diamond test) (pos + t.pad)).trans
    (labelExit_redraws _ x.config.yesText x.yesSize exits.1.direction
      (e.drawDecision (x.diamond test) (pos + t.pad)).1)).trans
    (labelExit_redraws _ x.config.noText x.noSize exits.2.direction
      (e.drawDecision (x.diamond test) (pos + t.pad)).1)
  have hposts := foldl_noteJump_posts (fun d : Direction =>
    (if d = .east then (e.drawDecision (x.diamond test) (pos + t.pad)).1.width / 2.0
        else -(e.drawDecision (x.diamond test) (pos + t.pad)).1.width / 2.0,
      (e.drawDecision (x.diamond test) (pos + t.pad)).1.middle)) (exitJumps exits)
    (hredraws.debug.trans (hkeeps.debug.trans debug))
  exact hready.extend hdrawn hposts (test_tells x r a test (pos + t.pad) (exitJumps exits) hexits)

theorem closeBelow_recounts (h : c.Recounts x s taken) (debug : c.debug = false)
    (harm : arm.Recounts x t []) : (closeBelow arm c).Recounts x (s.append t) taken :=
  (h.absorb debug harm 0).quiet (Renders.refl _).revise

theorem closeBeside_recounts (h : c.Recounts x s taken) (debug : c.debug = false)
    (harm : arm.Recounts x t []) (box : DecisionBox α) (below : Strand α) :
    (x.closeBeside box below arm c).Recounts x (s.append t) taken := by
  generalize hdx : x.eastShift box (max (box.width / 2.0) below.group.extent.maxX) arm = dx
  obtain ⟨path, hpath⟩ : ∃ path : Path α,
      path = Path.across (box.width / 2.0) box.middle (dx - box.width / 2.0) := ⟨_, rfl⟩
  have hmerged := ((h.quiet (draw_quiet c (.path path))).absorb debug harm dx).quiet
    (d := { (c.draw (.path path)).absorb arm dx with
      reach := max c.reach arm.reach, lanes := arm.lanes }) (Renders.refl _).revise
  unfold closeBeside
  dsimp only
  rw [hdx, ← hpath]
  generalize (⟨_, _, _, _, _, _, _, _, _, _, _, _⟩ : Strand α) = merged at hmerged ⊢
  split
  · refine hmerged.quiet (Renders.revise (Renders.quiet ?_ (trunkTo_quiet _ _ _)))
    exact ((takeLine_quiet merged _).trans (draw_quiet _ _)).revise
  · exact hmerged

theorem enter_recounts (h : c.Recounts x s taken) : (x.enter c).2.Recounts x s taken :=
  h.quiet ((takeLine_quiet c _).trans (trunkTo_quiet _ _ _))

theorem openWhile_recounts (x : Context α) (test : String) (c : Strand α) (a : Address) :
    (x.openWhile test c).2.Recounts x (.test .outermost a test [(.leave, .east)])
      [((x.openWhile test c).1.width / 2.0, (x.openWhile test c).1.middle)] := by
  obtain ⟨t, ht⟩ : ∃ t : α × Strand α, t = (c.loopBody .whileLoop).takeBand
      ((c.loopBody .whileLoop).reach + x.halfGap)
      ((x.diamond test).bounds.height + 2.0 * c.pad + x.yesSize.height) := ⟨_, rfl⟩
  have htaken : (c.loopBody .whileLoop).Renders [] t.2 := ht ▸ takeBand_quiet _ _ _
  have hdrawn := htaken.trans (labelled_renders x t.2 test (t.1 + c.pad) .south .east)
  rw [List.nil_append] at hdrawn
  have htells := test_tells x .outermost a test (t.1 + c.pad) [(.leave, .east)] (by decide)
  unfold openWhile
  dsimp only
  rw [← ht]
  exact hdrawn.revise.recounts rfl rfl rfl rfl htells

theorem gatherBack_recounts (h : c.Recounts x s taken) (htip : c.tip.isSome)
    {back : List (α × α)} (hback : x.gatherBack c = .ok (back, d)) (a : Address) :
    { d with continues := back }.Recounts x (if c.alive then s.append (.jump .outermost a .resume) else s) taken ∧
      d.continues = [] := by
  unfold gatherBack at hback
  dsimp only at hback
  split at hback
  · next halive =>
      obtain ⟨⟨pos, t⟩, htake, hback⟩ := exists_of_bind_eq_ok hback
      cases hback
      obtain ⟨tip, htip⟩ := Option.isSome_iff_exists.mp ((takeExit_adds htake).tip htip)
      have hdrawn := (takeExit_quiet htake).trans (trunkTo_renders htip (pos + t.pad))
      rw [if_pos halive]
      exact ⟨h.extend hdrawn.setAside ⟨rfl, rfl, (List.append_nil _).symm, rfl⟩
        (jump_tells x .outermost a .resume tip (pos + t.pad)), hdrawn.continues⟩
  · next hdead =>
      cases hback
      rw [if_neg hdead]
      exact ⟨h, rfl⟩

theorem routeBack_recounts {body : Strand α} {back : List (α × α)}
    (h : { body with continues := back }.Recounts x s taken) (hnone : body.continues = [])
    {k : Connector} (hrole : k.role = .back) (horigins : k.origins = s.resuming)
    (htold : k.told = s.tokens) (entry : α) :
    (x.routeBack back entry body).Recounts x
      { s with resuming := [], connectors := s.connectors ++ k.ifNeeded } taken := by
  unfold routeBack
  split
  · next hempty =>
      have hsame : { body with continues := back } = body :=
        setContinues_eq (hnone.trans (List.isEmpty_iff.mp hempty).symm)
      have hidle := h.noResuming horigins hempty
      rwa [hsame] at hidle
  · next hsome =>
      have hneeded : k.origins.isEmpty = false := by
        rw [horigins, ← h.continues_isEmpty]
        exact eq_false_of_ne_true hsome
      have hsame : { body with continues := [] }.Renders [] body :=
        (setContinues_eq hnone).symm ▸ .refl body
      have hrouted := h.routeResuming hsame horigins htold (body.westLane x.config.stepX) entry
      rw [hrole] at hrouted
      rwa [ifNeeded_of_some hneeded]

theorem closeWhile_recounts (h : c.Recounts x s taken) (debug : c.debug = false)
    {body : Strand α} {back : List (α × α)} {box : DecisionBox α}
    (hbody : { body with continues := back }.Recounts x t [(box.width / 2.0, box.middle)])
    (hnone : body.continues = []) (k out : Connector) (hrole : k.role = .back)
    (horigins : k.origins = t.resuming) (htold : k.told = t.tokens) (houtRole : out.role = .out)
    (houtOrigins : out.origins = t.leaving) (houtTold : out.told = t.tokens) (entry : α) :
    (x.closeWhile entry box back body c).Recounts x (s.append { t with
      leaving := [], resuming := [], connectors := t.connectors ++ k.ifNeeded ++ [out] }) taken := by
  have hrouted := routeBack_recounts hbody hnone hrole horigins htold entry
  unfold closeWhile
  dsimp only
  generalize x.routeBack back entry body = routed at hrouted ⊢
  have hleft := fun lane exit => hrouted.routeLeaving (.refl _) houtOrigins houtTold lane exit
  rw [houtRole] at hleft
  exact ((h.quiet ((Renders.refl c).revise.trans (takeLine_quiet _ _))).absorb debug
    (hleft _ _) 0).quiet (Renders.refl _).revise

theorem whileLoop_recounts (h : c.Recounts x s taken) (debug : c.debug = false)
    {inner gathered : Strand α} {back : List (α × α)} {box : DecisionBox α} {test : String}
    {a : Address} {body : Story}
    (hinner : inner.Recounts x ((Story.test .outermost a test [(.leave, .east)]).append body)
      [(box.width / 2.0, box.middle)]) (halive : inner.alive = body.alive) (htip : inner.tip.isSome)
    (hback : x.gatherBack inner = .ok (back, gathered)) (entry : α) :
    (x.closeWhile entry box back gathered c).Recounts x (s.append (.whileLoop a test body)) taken := by
  obtain ⟨hgathered, hnone⟩ := gatherBack_recounts hinner htip hback a
  rw [halive] at hgathered
  cases hlive : body.alive with
  | true =>
      rw [if_pos hlive] at hgathered
      have hclosed := closeWhile_recounts h debug hgathered hnone
        ⟨.back, a, [.turn a], body.resuming, _⟩
        ⟨.out, a, [.side a .east], body.leaving, _⟩ rfl rfl rfl rfl
        (List.append_nil _).symm rfl entry
      refine hclosed.congr ?_ rfl rfl ?_ <;>
        simp [Story.whileLoop, hlive, Story.append, Story.test, Story.jump, Story.of]
  | false =>
      rw [if_neg (Bool.eq_false_iff.mp hlive)] at hgathered
      have hclosed := closeWhile_recounts h debug hgathered hnone
        ⟨.back, a, [], body.resuming, _⟩
        ⟨.out, a, [.side a .east], body.leaving, _⟩ rfl (List.append_nil _) rfl rfl
        rfl rfl entry
      refine hclosed.congr ?_ rfl rfl ?_ <;>
        simp [Story.whileLoop, hlive, Story.append, Story.test, Story.of]

theorem gatherOnward_recounts (h : c.Recounts x s []) {k : Connector} (hrole : k.role = .onward)
    (horigins : k.origins = s.resuming) (htold : k.told = s.tokens) :
    (x.gatherOnward c).Recounts x
        { s with resuming := [], connectors := s.connectors ++ k.ifNeeded } [] ∧
      (x.gatherOnward c).continues = [] := by
  unfold gatherOnward
  dsimp only
  split
  · next hempty =>
      rw [setContinues_eq (List.isEmpty_iff.mp hempty)]
      exact ⟨h.noResuming horigins hempty, List.isEmpty_iff.mp hempty⟩
  · next hsome =>
      have hneeded : k.origins.isEmpty = false := by
        rw [horigins, ← h.continues_isEmpty]
        exact eq_false_of_ne_true hsome
      obtain ⟨t, ht⟩ : ∃ t : α × Strand α,
          t = { c with continues := [] }.takeLine (c.reach + x.halfGap) := ⟨_, rfl⟩
      have htaken : { c with continues := [] }.Renders [] t.2 := ht ▸ takeLine_quiet _ _
      have hdrawn := (htaken.trans (dropDeadTip_quiet t.2)).trans (trunkTo_quiet _ t.1 false)
      have hrouted := h.routeResuming hdrawn horigins htold
        (eastLane { c with continues := [] } x.config.stepX) t.1
      rw [hrole] at hrouted
      rw [ifNeeded_of_some hneeded, ← ht]
      exact ⟨hrouted.quiet (Renders.refl _).revise,
        (route_quiet _ _ _ _ _).continues.trans hdrawn.continues⟩

theorem testDo_recounts (h : c.Recounts x s []) (hnone : c.continues = []) (test : String)
    (a : Address) {k : Connector} (hrole : k.role = .again)
    (horigins : k.origins = s.resuming ++ [.side a .west])
    (htold : k.told = s.tokens ++ [.test a test, .caption test]) (entry : α) :
    (x.testDo test entry c).2.Recounts x { s.append (.test .outermost a test []) with
      resuming := [], connectors := s.connectors ++ [k] } [] := by
  obtain ⟨t, ht⟩ : ∃ t : α × Strand α, t = c.takeBand (c.reach + x.config.stepY)
    ((x.diamond test).bounds.height + 2.0 * c.pad + x.noSize.height) := ⟨_, rfl⟩
  have htaken : c.Renders [] t.2 := ht ▸ takeBand_quiet _ _ _
  have hdrawn := (htaken.trans (dropDeadTip_quiet t.2)).trans
    (labelled_renders x t.2.dropDeadTip test (t.1 + t.2.pad) .west .south)
  rw [List.nil_append, List.nil_append] at hdrawn
  have htells := test_tells x .outermost a test (t.1 + t.2.pad) [(.resume, .west)] (by decide)
  unfold testDo
  dsimp only
  rw [← ht]
  generalize ((t.2.dropDeadTip.drawDecision (x.diamond test) (t.1 + t.2.pad)).2.labelExit _ _ _
    _).labelExit _ _ _ _ = drawn at hdrawn ⊢
  have hposts : drawn.Posts
      [(.resume, (-(x.diamond test).bounds.width / 2.0,
        t.1 + t.2.pad + (x.diamond test).bounds.height / 2.0))]
      { drawn with continues := [(-(x.diamond test).bounds.width / 2.0,
        t.1 + t.2.pad + (x.diamond test).bounds.height / 2.0)] } := by
    refine ⟨rfl, rfl, (List.append_nil _).symm, ?_⟩
    rw [hdrawn.continues, hnone]
    rfl
  have hsame : { drawn with continues := [] }.Renders [] drawn :=
    (setContinues_eq (hdrawn.continues.trans hnone)).symm ▸ .refl drawn
  have hrouted := (h.extend hdrawn hposts htells).routeResuming hsame horigins htold
    (drawn.westLane x.config.stepX) entry
  rw [hrole] at hrouted
  refine (hrouted.quiet (Renders.refl _).revise).congr rfl rfl rfl ?_
  exact congrArg (· ++ [k]) (List.append_nil s.connectors).symm

theorem closeDo_recounts (h : c.Recounts x s taken) (debug : c.debug = false) {body : Strand α}
    (test : String) (a : Address) (hbody : body.Recounts x t []) (onward again out : Connector)
    (honwardRole : onward.role = .onward) (honward : onward.origins = t.resuming)
    (honwardTold : onward.told = t.tokens) (hagainRole : again.role = .again)
    (hagain : again.origins = [.side a .west])
    (hagainTold : again.told = t.tokens ++ [.test a test, .caption test])
    (houtRole : out.role = .out) (hout : out.origins = t.leaving)
    (houtTold : out.told = t.tokens ++ [.test a test, .caption test]) (entry : α) :
    (x.closeDo test entry body c).Recounts x (s.append { t with
      tokens := t.tokens ++ [.test a test, .caption test], leaving := [], resuming := []
      connectors := t.connectors ++ onward.ifNeeded ++ [again] ++ out.ifNeeded }) taken := by
  obtain ⟨hgathered, hnone⟩ := gatherOnward_recounts hbody honwardRole honward honwardTold
  have htested := testDo_recounts hgathered hnone test a hagainRole hagain hagainTold entry
  unfold closeDo
  dsimp only
  generalize x.testDo test entry (x.gatherOnward body) = tested at htested ⊢
  obtain ⟨box, left⟩ := tested
  dsimp only at htested ⊢
  have horigins : out.origins = t.leaving ++ [] := hout.trans (List.append_nil _).symm
  split
  · next hempty =>
      have hidle := htested.noLeaving horigins hempty
      rw [setBreaks_eq (List.isEmpty_iff.mp hempty)]
      have hclosed := (h.quiet (d := c.reclaim left) (Renders.refl c).revise).absorb debug hidle 0
      refine Recounts.congr (hclosed.quiet (Renders.refl _).revise) ?_ ?_ ?_ ?_ <;> rfl
  · next hsome =>
      have hneeded : out.origins.isEmpty = false := by
        rw [horigins]
        exact htested.breaks_isEmpty ▸ eq_false_of_ne_true hsome
      obtain ⟨r, hr⟩ : ∃ r : α × Strand α, r = (c.reclaim { left with breaks := [] }).takeLine
        (c.reclaim { left with breaks := [] }).reach := ⟨_, rfl⟩
      have hdrawn := trunkTo_quiet { left with breaks := [] } r.1 false
      have hrouted := htested.routeLeaving hdrawn horigins houtTold
        (eastLane { left with breaks := [] } x.config.stepX) r.1
      rw [List.nil_append, houtRole] at hrouted
      rw [ifNeeded_of_some hneeded, ← hr]
      have hline : c.Renders [] r.2 := hr ▸ (Renders.refl c).revise.trans (takeLine_quiet _ _)
      have hclosed := (h.quiet hline).absorb (hr ▸ debug) hrouted 0
      refine Recounts.congr (hclosed.quiet (Renders.refl _).revise) ?_ ?_ ?_ ?_ <;> rfl

theorem doLoop_recounts (h : c.Recounts x s taken) (debug : c.debug = false) {inner : Strand α}
    {body : Story} (hinner : inner.Recounts x body []) (test : String) (a : Address) (entry : α) :
    (x.closeDo test entry inner c).Recounts x (s.append (.doLoop a body test)) taken := by
  have hclosed := closeDo_recounts h debug test a hinner ⟨.onward, a, [], body.resuming, _⟩
    ⟨.again, a, [.side a .west], [], _⟩ ⟨.out, a, [], body.leaving, _⟩ rfl rfl rfl rfl rfl rfl rfl rfl rfl entry
  exact hclosed.congr rfl rfl rfl rfl

end Context

end Flowchart
