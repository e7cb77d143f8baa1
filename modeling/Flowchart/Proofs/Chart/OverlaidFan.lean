import Flowchart.Proofs.Chart.Overlaid
/-! Branches drawn with and without debug marks. -/
namespace Flowchart

inductive Fan.Overlaid : Fan ℚ → Fan ℚ → Prop
  | intro {f : Fan ℚ} {holder : Strand ℚ} : f.holder.Overlaid holder → Overlaid f { f with holder }

inductive Context.Framed.Overlaid : Context.Framed ℚ → Context.Framed ℚ → Prop
  | intro {f : Context.Framed ℚ} {holder : Strand ℚ} : f.holder.Overlaid holder →
      Overlaid f { f with holder }

namespace Fan.Overlaid
variable {f k : Fan ℚ}

theorem start {c d : Strand ℚ} (h : c.Overlaid d) (right : ℚ) :
    (Fan.start c right).Overlaid (Fan.start d right) := by
  unfold Fan.start
  rw [h.reach]
  exact .intro h

theorem holder (h : f.Overlaid k) : f.holder.Overlaid k.holder := by
  cases h with
  | intro h => exact h

theorem finish (h : f.Overlaid k) : f.finish.Overlaid k.finish := by
  cases h with
  | intro h => exact h.setReach _

end Fan.Overlaid

namespace Context.Framed.Overlaid
variable {f k : Context.Framed ℚ}

theorem right (h : f.Overlaid k) : k.right = f.right := by
  cases h with
  | intro => rfl

theorem takeLine (h : f.Overlaid k) :
    (k.holder.takeLine k.holder.reach).1 = (f.holder.takeLine f.holder.reach).1 ∧
      (f.holder.takeLine f.holder.reach).2.Overlaid (k.holder.takeLine k.holder.reach).2 := by
  cases h with
  | intro h =>
      dsimp only
      rw [h.reach]
      exact ⟨h.line _, h.takeLine _⟩

end Context.Framed.Overlaid

namespace Context
open Strand
variable {x : Context ℚ} {c d e arm marked holder kept : Strand ℚ} {f k : Fan ℚ}

theorem labelBranch_overlaid (h : arm.Overlaid marked) (text : String) :
    (x.labelBranch text arm).Overlaid (x.labelBranch text marked) := by
  unfold labelBranch
  dsimp only
  split
  · exact h
  · rw [h.reach, h.band]
    exact (h.takeBand _ _).drawLabel _ _ _ _

theorem openBranch_overlaid (h : f.Overlaid k) (plan : FanPlan ℚ) (label : String) :
    (x.openBranch plan label f).Overlaid (x.openBranch plan label k) := by
  cases h with
  | intro h => exact labelBranch_overlaid (h.armFrom plan.tap) label

theorem branchDx_overlaid (h : f.Overlaid k) (harm : arm.Overlaid marked) (plan : FanPlan ℚ)
    (index : ℕ) : x.branchDx plan index marked k = x.branchDx plan index arm f := by
  cases h with
  | intro =>
      unfold branchDx
      rw [harm.extent]

theorem branchEnd_overlaid (harm : arm.Overlaid marked) (index : ℕ) (dx : ℚ) :
    branchEnd index dx marked = branchEnd index dx arm := by
  cases harm with
  | intro => rfl

theorem closeBranch_overlaid (h : f.Overlaid k) (harm : arm.Overlaid marked) (plan : FanPlan ℚ)
    (index : ℕ) : (x.closeBranch plan index arm f).Overlaid (x.closeBranch plan index marked k) := by
  have hrest : (if plan.takesBreaks then { arm with breaks := [] } else arm).Overlaid
      (if plan.takesBreaks then { marked with breaks := [] } else marked) := by
    split
    · exact harm.setBreaks []
    · exact harm
  unfold closeBranch
  dsimp only
  generalize (if plan.takesBreaks then { arm with breaks := [] } else arm) = rest at hrest ⊢
  generalize (if plan.takesBreaks then { marked with breaks := [] } else marked) = rest' at hrest ⊢
  rw [branchDx_overlaid h harm, branchEnd_overlaid harm, harm.extent, harm.reach, harm.lanes,
    harm.breaks]
  have hmerged := (h.holder.absorb hrest (x.branchDx plan index arm f)).setLanes arm.lanes
  cases h with
  | intro => exact .intro (f := ⟨_, _, _, _, _, _⟩) hmerged

theorem joinEnds_overlaid (h : holder.Overlaid kept) (ends : List (ℚ × ℚ)) :
    (joinEnds ends holder).Overlaid (joinEnds ends kept) := by
  unfold joinEnds
  dsimp only
  rw [h.reach, h.line]
  refine (Overlaid.setTip (Overlaid.foldl (fun c d p hcd => ?_) ends (h.takeLine _))
    (some (takeLine _ _).1)).setAlive true
  split <;> exact hcd.drawPath _

theorem adopt_overlaid (h : c.Overlaid d) (hholder : holder.Overlaid kept) :
    (adopt holder c).Overlaid (adopt kept d) := by
  unfold adopt
  rw [h.reach, hholder.tip, hholder.alive, hholder.reach, hholder.lanes]
  exact ((((h.absorb hholder 0).setTip holder.tip).setAlive holder.alive).setReach
    (max c.reach holder.reach)).setLanes holder.lanes

theorem openSwitch_overlaid (h : c.Overlaid d) (subject : String) :
    (x.openSwitch subject d).1 = (x.openSwitch subject c).1 ∧
      (x.openSwitch subject d).2.1 = (x.openSwitch subject c).2.1 ∧
      (x.openSwitch subject c).2.2.Overlaid (x.openSwitch subject d).2.2 := by
  unfold openSwitch
  dsimp only
  rw [h.pad, h.switchHolder.startBelow, h.switchHolder.band]
  have hband := h.switchHolder.takeBand (c.switchHolder.startBelow x.config.stepY)
    ((x.diamond subject).bounds.height + 2.0 * c.pad)
  generalize c.switchHolder.takeBand _ _ = band at hband ⊢
  generalize (d.switchHolder.takeBand _ _).2 = holder' at hband ⊢
  have hdrawn := (hband.drawDecision (x.diamond subject) (band.1 + c.pad)).setTip
    (some (drawDecision band.2 (x.diamond subject) (band.1 + c.pad)).1.bottom)
  exact ⟨rfl, hdrawn.lineBelow⟩

theorem drawTap_overlaid (h : holder.Overlaid kept) (tap lastDx : ℚ) :
    (drawTap tap lastDx holder).Overlaid (drawTap tap lastDx kept) := by
  unfold drawTap
  split
  · exact h.drawPath _
  · exact h

theorem settleEnds_overlaid (h : holder.Overlaid kept) (ends : List (BranchEnd ℚ)) :
    (settleEnds ends holder).Overlaid (settleEnds ends kept) := by
  unfold settleEnds
  split
  · exact h.setAlive false
  · exact h.setTip _
  · exact joinEnds_overlaid h _

theorem gatherBreaks_overlaid (h : holder.Overlaid kept) (breaks : List (ℚ × ℚ)) :
    (x.gatherBreaks breaks holder).Overlaid (x.gatherBreaks breaks kept) := by
  unfold gatherBreaks
  dsimp only
  split
  · exact h
  · rw [h.eastLane, h.reach, h.line]
    exact (((h.takeLine _).dropDeadTip.trunkTo _ false).route _ _ _ _).setAlive true

theorem closeSwitch_overlaid (h : c.Overlaid d) (hfan : f.Overlaid k) (tap : ℚ) :
    (x.closeSwitch tap f c).Overlaid (x.closeSwitch tap k d) := by
  unfold closeSwitch
  have hholder := hfan.finish
  cases hfan with
  | intro =>
      exact adopt_overlaid h (gatherBreaks_overlaid
        (settleEnds_overlaid (drawTap_overlaid hholder _ _) _) _)

theorem openTry_overlaid (h : c.Overlaid d) :
    (x.openTry d).1 = (x.openTry c).1 ∧ (x.openTry c).2.1.Overlaid (x.openTry d).2.1 ∧
      (x.openTry c).2.2.Overlaid (x.openTry d).2.2 := by
  have hholder := h.fork
  unfold openTry
  dsimp only
  rw [hholder.startBelow, hholder.line]
  have hline := hholder.takeLine (c.fork.startBelow x.config.stepY)
  generalize c.fork.takeLine _ = line at hline ⊢
  generalize (d.fork.takeLine _).2 = holder' at hline ⊢
  have hbody := (hline.trunkTo line.1 false).fork
  rw [hline.tip, hbody.reach]
  exact ⟨rfl, hline.trunkTo _ false, (hbody.setReach (_ + x.config.frame.padY)).setTip
    (if line.2.tip.isSome then some line.1 else none)⟩

theorem closeFrame_overlaid (harm : arm.Overlaid marked) (h : holder.Overlaid kept) (top : ℚ) :
    (x.closeFrame top arm holder).Overlaid (x.closeFrame top marked kept) := by
  have hline := harm.takeLine (arm.reach + x.config.frame.padY)
  unfold closeFrame
  dsimp only
  rw [harm.reach, harm.line]
  generalize arm.takeLine _ = line at hline ⊢
  generalize (marked.takeLine _).2 = body at hline ⊢
  have hbody : (if line.2.alive then line.2.trunkTo line.1 false else line.2).Overlaid
      (if body.alive then body.trunkTo line.1 false else body) := by
    rw [hline.alive]
    split
    · exact hline.trunkTo _ false
    · exact hline
  generalize (if line.2.alive then line.2.trunkTo line.1 false else line.2) = closed at hbody ⊢
  generalize (if body.alive then body.trunkTo line.1 false else body) = closed' at hbody ⊢
  rw [hline.alive, hbody.extent, hbody.reach, hbody.lanes]
  have hmerged := (((h.setReach (max holder.reach closed.reach)).setLanes closed.lanes).absorb hbody
    0).draw (s := .frame ⟨min closed.group.extent.minX 0 - x.config.frame.padX, top,
      max closed.group.extent.maxX 0 + x.config.frame.padX
        - (min closed.group.extent.minX 0 - x.config.frame.padX), line.1 - top⟩)
      (fun _ _ => rfl) rfl
  cases h with
  | intro => exact .intro (f := ⟨_, _, _, _⟩) hmerged

theorem closeTry_overlaid {framed framed' : Framed ℚ} (h : c.Overlaid d) (hfan : f.Overlaid k)
    (hframed : framed.Overlaid framed') (tap : ℚ) :
    (closeTry tap framed f c).Overlaid (closeTry tap framed' k d) := by
  have hfinish := hfan.finish
  unfold closeTry
  dsimp only
  cases hfan with
  | intro =>
  cases hframed with
  | intro =>
      refine adopt_overlaid h ?_
      have hdrawn := hfinish.drawPath (((Path.start framed.right framed.bottom).vertical
        (tap - framed.bottom)).horizontal (f.lastDx - framed.right))
      dsimp only
      split
      · exact hdrawn.setAlive false
      · exact joinEnds_overlaid hdrawn _

end Context
end Flowchart
