import Flowchart.Proofs.Chart.Routing
/-! Branches beside each other continue a story one after another. A switch takes the breaks out of
its branches and brings them together; a try leaves them pending. -/
namespace Flowchart
open Strand
variable {α : Type} [Scalar α]

structure Fan.Recounts (x : Context α) (s : Story) (plan : FanPlan α) (f : Fan α) : Prop where
  holder : f.holder.Recounts x s f.breaks
  taken : plan.takesBreaks = true → f.holder.breaks = []
  pending : plan.takesBreaks = false → f.breaks = []

theorem Strand.Recounts.retake {x : Context α} {s : Story} {taken taken' : List (α × α)}
    {c d : Strand α} (h : c.Recounts x s taken) (hgroup : d.group = c.group)
    (hcontinues : d.continues = c.continues) (hjournal : d.journal = c.journal)
    (hbreaks : taken' ++ d.breaks = taken ++ c.breaks) : d.Recounts x s taken' := by
  have htells := h.tells
  refine ⟨hgroup ▸ h.left, hgroup ▸ h.top, ?_⟩
  unfold account routes at htells ⊢
  rw [hgroup, hbreaks, hcontinues, hjournal]
  exact htells

namespace Context
variable {x : Context α} {s t : Story} {taken : List (α × α)} {c arm : Strand α} {f : Fan α}
  {plan : FanPlan α}

theorem start_recounts {holder : Strand α} (h : holder.Recounts x s []) (hbreaks : plan.takesBreaks =
    true → holder.breaks = []) (right : α) : (Fan.start holder right).Recounts x s plan :=
  ⟨h, hbreaks, fun _ => rfl⟩

theorem openBranch_recounts (x : Context α) (plan : FanPlan α) (label : String) (f : Fan α) :
    (x.openBranch plan label f).Recounts x .blank [] := by
  have hfresh : ({ f.holder.fork with tip := some plan.tap } : Strand α).Recounts x .blank [] :=
    recounts_blank rfl rfl rfl rfl
  unfold openBranch labelBranch
  split
  · exact hfresh
  · exact hfresh.quiet ((takeBand_quiet _ _ _).trans (draw_quiet _ _))

theorem closeBranch_recounts (h : f.Recounts x s plan) (debug : f.holder.debug = false)
    (harm : arm.Recounts x t []) (index : Nat) :
    (x.closeBranch plan index arm f).Recounts x (s.append t) plan := by
  have habsorbed := h.holder.absorb debug harm (x.branchDx plan index arm f)
  rw [absorb_eq debug] at habsorbed
  unfold closeBranch
  dsimp only
  rw [absorb_eq debug]
  cases hplan : plan.takesBreaks with
  | true =>
      have hnone := h.taken hplan
      refine ⟨habsorbed.retake rfl rfl rfl ?_, fun _ => ?_, fun hleft => ?_⟩
      · simp [hnone]
      · simp [hnone]
      · rw [hplan] at hleft
        cases hleft
  | false =>
      refine ⟨habsorbed.retake rfl rfl rfl ?_, fun htaken => ?_, fun _ => ?_⟩
      · simp
      · rw [hplan] at htaken
        cases htaken
      · simp [h.pending hplan]

theorem joinEnds_quiet (ends : List (α × α)) (c : Strand α) : c.Renders [] (joinEnds ends c) := by
  unfold joinEnds
  dsimp only
  refine Renders.revise (Renders.trans (takeLine_quiet c c.reach) (foldl_quiet _ (fun c e => ?_) ends _))
  split <;> exact draw_quiet c _

theorem settleEnds_quiet (ends : List (BranchEnd α)) (c : Strand α) :
    c.Renders [] (settleEnds ends c) := by
  unfold settleEnds
  split
  · exact (Renders.refl c).revise
  · exact (Renders.refl c).revise
  · exact joinEnds_quiet _ c

theorem drawTap_quiet (tap lastDx : α) (c : Strand α) : c.Renders [] (drawTap tap lastDx c) := by
  unfold drawTap
  split
  · exact draw_quiet c _
  · exact .refl c

theorem adopt_recounts (h : c.Recounts x s taken) (debug : c.debug = false) {holder : Strand α}
    (hholder : holder.Recounts x t []) : (adopt holder c).Recounts x (s.append t) taken :=
  (h.absorb debug hholder 0).quiet (Renders.refl _).revise

theorem openSwitch_recounts (x : Context α) (subject : String) (c : Strand α) (a : Address) :
    (x.openSwitch subject c).2.2.Recounts x (.test .outermost a subject []) [] ∧
      (x.openSwitch subject c).2.2.breaks = [] := by
  obtain ⟨t, ht⟩ : ∃ t : α × Strand α, t = c.switchHolder.takeBand
      (c.switchHolder.startBelow x.config.stepY)
      ((x.diamond subject).bounds.height + 2.0 * c.pad) := ⟨_, rfl⟩
  have htaken : c.switchHolder.Renders [] t.2 := ht ▸ takeBand_quiet _ _ _
  have hdecided := htaken.trans (drawDecision_renders (x := x) t.2 subject (t.1 + c.pad))
  rw [List.nil_append] at hdecided
  unfold openSwitch
  dsimp only
  rw [← ht]
  have hdrawn := (hdecided.revise.quiet (takeLine_quiet { (t.2.drawDecision (x.diamond subject)
    (t.1 + c.pad)).2 with tip := some (t.2.drawDecision (x.diamond subject) (t.1 + c.pad)).1.bottom }
    (t.2.drawDecision (x.diamond subject) (t.1 + c.pad)).2.reach)).quiet (trunkTo_quiet _
      (takeLine { (t.2.drawDecision (x.diamond subject) (t.1 + c.pad)).2 with
        tip := some (t.2.drawDecision (x.diamond subject) (t.1 + c.pad)).1.bottom }
        (t.2.drawDecision (x.diamond subject) (t.1 + c.pad)).2.reach).1 false)
  exact ⟨hdrawn.recounts rfl rfl rfl rfl (test_tells x .outermost a subject (t.1 + c.pad) [] nofun),
    hdrawn.breaks⟩

theorem gatherBreaks_recounts {breaks : List (α × α)} (h : c.Recounts x s breaks)
    (hnone : c.breaks = []) {out : Connector} (hrole : out.role = .out)
    (horigins : out.origins = s.leaving) (htold : out.told = s.tokens) :
    (x.gatherBreaks breaks c).Recounts x
      { s with leaving := [], connectors := s.connectors ++ out.ifNeeded } [] := by
  unfold gatherBreaks
  split
  · next hempty =>
      rw [List.isEmpty_iff.mp hempty] at h
      exact h.noLeaving horigins (List.isEmpty_iff.mpr hnone)
  · next hsome =>
      have hneeded : out.origins.isEmpty = false := by
        rw [horigins, ← h.breaks_isEmpty, hnone, List.append_nil]
        exact eq_false_of_ne_true hsome
      have hdrawn : ({ c with breaks := [] } : Strand α).Renders []
          ((c.takeLine c.reach).2.dropDeadTip.trunkTo (c.takeLine c.reach).1 false) := by
        rw [setBreaks_eq hnone]
        exact ((takeLine_quiet c c.reach).trans (dropDeadTip_quiet _)).trans (trunkTo_quiet _ _ _)
      have hrouted := h.routeLeaving hdrawn horigins htold (c.eastLane x.config.stepX)
        (c.takeLine c.reach).1
      rw [hnone, List.append_nil, hrole] at hrouted
      rw [ifNeeded_of_some hneeded]
      exact hrouted.quiet (Renders.refl _).revise

theorem closeSwitch_recounts (h : c.Recounts x s taken) (debug : c.debug = false)
    (hf : f.Recounts x t plan) (hplan : plan.takesBreaks = true) (out : Connector)
    (hrole : out.role = .out) (horigins : out.origins = t.leaving) (htold : out.told = t.tokens)
    (tap : α) : (x.closeSwitch tap f c).Recounts x (s.append
      { t with leaving := [], connectors := t.connectors ++ out.ifNeeded }) taken := by
  have hquiet := ((Renders.refl f.holder).revise.trans (drawTap_quiet tap f.lastDx f.finish)).trans
    (settleEnds_quiet f.ends _)
  exact adopt_recounts h debug (gatherBreaks_recounts (hf.holder.quiet hquiet)
    (hquiet.breaks.trans (hf.taken hplan)) hrole horigins htold)

theorem switch_recounts (h : c.Recounts x s taken) (debug : c.debug = false) {subject : String}
    {a : Address} {cases : Story}
    (hf : f.Recounts x ((Story.test .outermost a subject []).append cases) plan)
    (hplan : plan.takesBreaks = true) (tap : α) :
    (x.closeSwitch tap f c).Recounts x (s.append (.switch a subject cases)) taken := by
  have hclosed := closeSwitch_recounts h debug hf hplan ⟨.out, a, [], cases.leaving, _⟩
    rfl rfl rfl tap
  exact hclosed.congr rfl rfl rfl rfl

theorem openTry_recounts (x : Context α) (c : Strand α) :
    (x.openTry c).2.1.Recounts x .blank [] ∧ (x.openTry c).2.2.Recounts x .blank [] :=
  ⟨(recounts_blank (c := c.fork) rfl rfl rfl rfl).quiet
    ((takeLine_quiet _ _).trans (trunkTo_quiet _ _ _)), recounts_blank rfl rfl rfl rfl⟩

theorem closeFrame_recounts {holder body : Strand α} (h : holder.Recounts x s taken)
    (debug : holder.debug = false) (hbody : body.Recounts x t []) (top : α) :
    (x.closeFrame top body holder).holder.Recounts x (s.append t) taken := by
  have hline := hbody.quiet (takeLine_quiet body (body.reach + x.config.frame.padY))
  unfold closeFrame
  dsimp only
  generalize body.takeLine _ = lined at hline ⊢
  obtain ⟨bottom, lined⟩ := lined
  dsimp only at hline ⊢
  have hended : (if lined.alive then lined.trunkTo bottom false else lined).Recounts x t [] := by
    split
    · exact hline.quiet (trunkTo_quiet lined bottom false)
    · exact hline
  generalize (if lined.alive then lined.trunkTo bottom false else lined) = ended at hended ⊢
  have hready : ({ holder with reach := max holder.reach ended.reach, lanes := ended.lanes } :
      Strand α).Recounts x s taken := h.quiet (Renders.refl holder).revise
  exact (hready.absorb debug hended 0).quiet (draw_quiet _ _)

theorem closeTry_recounts (h : c.Recounts x s taken) (debug : c.debug = false)
    (hf : f.Recounts x t plan) (hplan : plan.takesBreaks = false) (tap : α) (framed : Framed α) :
    (closeTry tap framed f c).Recounts x (s.append t) taken := by
  have hholder := hf.holder
  rw [hf.pending hplan] at hholder
  have hfinish : f.finish.Recounts x t [] := hholder.quiet (Renders.refl f.holder).revise
  refine adopt_recounts h debug ?_
  split
  · exact hfinish.quiet (draw_quiet f.finish _).revise
  · exact hfinish.quiet ((draw_quiet f.finish _).trans (joinEnds_quiet _ _))

end Context

end Flowchart
