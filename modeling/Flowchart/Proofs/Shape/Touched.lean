import Flowchart.Output.Dump
import Flowchart.Proofs.Shape.Enclosed
/-! Which leaves of a drawing its bounds touch. The bounds of a group grow with what is pushed, so on
every side some leaf touches them. Whether a leaf that is shown does depends on where the
placeholders of empty branches lie. -/
namespace Flowchart

inductive Side where
  | west
  | north
  | east
  | south
deriving DecidableEq, Repr

namespace Bounds

def edge (b : Bounds ℚ) : Side → ℚ
  | .west => -b.minX
  | .north => -b.minY
  | .east => b.maxX
  | .south => b.maxY

@[simp]
theorem edge_union (a b : Bounds ℚ) (side : Side) :
    (a.union b).edge side = max (a.edge side) (b.edge side) := by
  cases side with
  | west => exact (max_neg_neg a.minX b.minX).symm
  | north => exact (max_neg_neg a.minY b.minY).symm
  | east => rfl
  | south => rfl

theorem edge_offset_inj {a b : Bounds ℚ} {side : Side} (h : a.edge side = b.edge side) (dx dy : ℚ) :
    (a.offset dx dy).edge side = (b.offset dx dy).edge side := by
  cases side with
  | west => exact congrArg (fun x => -(x + dx)) (neg_inj.mp h)
  | north => exact congrArg (fun y => -(y + dy)) (neg_inj.mp h)
  | east => exact congrArg (· + dx) h
  | south => exact congrArg (· + dy) h

end Bounds

/-- Some leaf of a kind reaches as far to a side as the bounds of the shape. -/
def Shape.Touched (kind : Shape ℚ → Prop) (side : Side) (s : Shape ℚ) : Prop :=
  ∃ p ∈ s.leaves 0 0, kind p.shape ∧ p.extent.edge side = s.extent.edge side

/-- Some leaf of a kind reaches as far to a side as the bounds of the group, inside of it. -/
def Group.Touched (kind : Shape ℚ → Prop) (side : Side) (g : Group ℚ) : Prop :=
  ∃ p ∈ Shape.leavesAll 0 0 g.children, kind p.shape ∧ p.extent.edge side = g.bounds.edge side

theorem Shape.IsLeaf.touched {kind : Shape ℚ → Prop} {s : Shape ℚ} (h : s.IsLeaf) (hkind : kind s)
    (side : Side) : s.Touched kind side := by
  refine ⟨⟨s, 0, 0⟩, ?_, hkind, ?_⟩
  · rw [h]
    exact List.mem_singleton_self _
  · unfold Placed.extent
    rw [Bounds.offset_zero]

namespace Group
variable {kind : Shape ℚ → Prop} {side : Side} {g h : Group ℚ} {s : Shape ℚ}

theorem Touched.toShape (h : g.Touched kind side) : g.toShape.Touched kind side := by
  obtain ⟨p, hp, hkind, hedge⟩ := h
  refine ⟨p.shift g.x g.y, ?_, hkind, ?_⟩
  · unfold Group.toShape
    rw [Shape.leaves, Shape.leavesAll_shift Scalar.exact_rat]
    exact List.mem_map_of_mem hp
  · rw [Placed.extent_shift]
    exact Bounds.edge_offset_inj hedge g.x g.y

theorem Touched.shift (h : g.Touched kind side) (dx dy : ℚ) :
    (g.shift dx dy).toShape.Touched kind side := toShape (g := g.shift dx dy) h

theorem push_of_isEmpty (h : g.isEmpty = true) (s : Shape ℚ) :
    (g.push s).bounds = s.extent ∧
      Shape.leavesAll 0 0 (g.push s).children = s.leaves 0 0 := by
  unfold push
  rw [if_pos h]
  exact ⟨rfl, List.append_nil _⟩

theorem push_of_not_isEmpty (h : g.isEmpty = false) (s : Shape ℚ) :
    (g.push s).bounds = g.bounds.union s.extent ∧
      Shape.leavesAll 0 0 (g.push s).children =
        Shape.leavesAll 0 0 g.children ++ s.leaves 0 0 := by
  unfold push
  rw [if_neg (Bool.eq_false_iff.mp h)]
  refine ⟨rfl, ?_⟩
  rw [Shape.leavesAll_append, Shape.leavesAll, Shape.leavesAll, List.append_nil]

/-- What is pushed touches the bounds if it reaches out as far as what was there. -/
theorem push_touched_beyond (hs : s.Touched kind side)
    (hbeyond : g.isEmpty = false → g.bounds.edge side ≤ s.extent.edge side) :
    (g.push s).Touched kind side := by
  obtain ⟨p, hp, hkind, hedge⟩ := hs
  cases hempty : g.isEmpty with
  | true =>
      obtain ⟨hbounds, hleaves⟩ := push_of_isEmpty hempty s
      exact ⟨p, hleaves ▸ hp, hkind, hbounds ▸ hedge⟩
  | false =>
      obtain ⟨hbounds, hleaves⟩ := push_of_not_isEmpty hempty s
      refine ⟨p, hleaves ▸ List.mem_append_right _ hp, hkind, ?_⟩
      rw [hbounds, Bounds.edge_union, max_eq_right (hbeyond hempty)]
      exact hedge

theorem Touched.push_within (hg : g.Touched kind side) (hsome : g.isEmpty = false)
    (hwithin : s.extent.edge side ≤ g.bounds.edge side) : (g.push s).Touched kind side := by
  obtain ⟨p, hp, hkind, hedge⟩ := hg
  obtain ⟨hbounds, hleaves⟩ := push_of_not_isEmpty hsome s
  refine ⟨p, hleaves ▸ List.mem_append_left _ hp, hkind, ?_⟩
  rw [hbounds, Bounds.edge_union, max_eq_left hwithin]
  exact hedge

theorem push_touched (hg : g.isEmpty = false → g.Touched kind side) (hs : s.Touched kind side) :
    (g.push s).Touched kind side := by
  cases hempty : g.isEmpty with
  | true => exact push_touched_beyond hs fun hsome => absurd (hempty.symm.trans hsome) nofun
  | false =>
      rcases le_total (s.extent.edge side) (g.bounds.edge side) with hle | hle
      · exact (hg hempty).push_within hempty hle
      · exact push_touched_beyond hs fun _ => hle

theorem Made.touched (hg : g.Made) (side : Side) : g.Touched (fun _ => True) side := by
  induction hg with
  | empty =>
      refine ⟨⟨placeholder, 0, 0⟩, List.mem_singleton_self _, trivial, ?_⟩
      change (((Bounds.zero : Bounds ℚ).offset 0 0).offset 0 0).edge side = Bounds.zero.edge side
      rw [Bounds.offset_zero, Bounds.offset_zero]
  | leaf _ hs ih => exact push_touched (fun _ => ih) (hs.touched trivial side)
  | group _ _ ihg ihh => exact push_touched (fun _ => ihg) (ihh.shift _ _)

theorem Touched.isEmpty (h : g.Touched (·.isPlaceholder = false) side) : g.isEmpty = false := by
  obtain ⟨p, hp, hshown, -⟩ := h
  refine eq_false_of_ne_true fun hempty => ?_
  have hnone := collect_of_isEmpty
    (fun shapes => (Shape.leavesAll 0 0 shapes).filter fun p => !p.shape.isPlaceholder)
    (fun s hs => ?_) hempty
  · exact absurd (List.mem_filter.mpr ⟨hp, by rw [hshown]; rfl⟩) (hnone ▸ List.not_mem_nil)
  · cases s with
    | point q => simp [Shape.leavesAll, Shape.leaves, hs]
    | _ => cases hs

end Group

/-- A shape whose bounds are touched west, east and south by leaves that are shown, and are not
inverted. -/
structure Shape.Tight (s : Shape ℚ) : Prop where
  touched : ∀ side, side ≠ .north → s.Touched (·.isPlaceholder = false) side
  wide : 0 ≤ s.extent.width

/-- A group whose bounds are touched west, east and south by leaves that are shown, and are not
inverted. -/
structure Group.Tight (g : Group ℚ) : Prop where
  touched : ∀ side, side ≠ .north → g.Touched (·.isPlaceholder = false) side
  wide : 0 ≤ g.bounds.width

/-- A group that is tight if it shows anything. -/
def Group.Tidy (g : Group ℚ) : Prop := g = .empty ∨ g.Tight

/-- A group that is tight, and reaches out from its origin west, east and south. A placeholder at its
origin makes no difference to those sides. -/
structure Group.Settled (g : Group ℚ) : Prop where
  touched : ∀ side, side ≠ .north → g.Touched (·.isPlaceholder = false) side
  around : ∀ side, side ≠ .north → 0 ≤ g.bounds.edge side

theorem Shape.IsLeaf.tight {s : Shape ℚ} (h : s.IsLeaf) (hshown : s.isPlaceholder = false)
    (hwide : 0 ≤ s.extent.width) : s.Tight := ⟨fun side _ => h.touched hshown side, hwide⟩

theorem Shape.tight_text (t : Caption ℚ) (h : 0 ≤ t.width) : (Shape.text t).Tight := by
  refine IsLeaf.tight (fun _ _ => rfl) rfl ?_
  change 0 ≤ (t.width / 2.0 + t.x) - (-t.width / 2.0 + t.x)
  norm_num
  linarith

/-- A group that is settled, except that nothing shown need touch its bounds in the east: an empty
branch may lie there to which no line leads yet. -/
structure Group.Ajar (g : Group ℚ) : Prop where
  west : g.Touched (·.isPlaceholder = false) .west
  south : g.Touched (·.isPlaceholder = false) .south
  around : ∀ side, side ≠ .north → 0 ≤ g.bounds.edge side

namespace Group
variable {g : Group ℚ} {s : Shape ℚ}

theorem tidy_empty : (empty : Group ℚ).Tidy := .inl rfl

theorem Tight.tidy (h : g.Tight) : g.Tidy := .inr h

theorem Settled.tight (h : g.Settled) : g.Tight := by
  refine ⟨h.touched, ?_⟩
  have hwest := h.around .west nofun
  have heast := h.around .east nofun
  change 0 ≤ -g.bounds.minX at hwest
  change 0 ≤ g.bounds.maxX at heast
  unfold Bounds.width
  linarith

theorem Settled.tidy (h : g.Settled) : g.Tidy := h.tight.tidy

theorem Tight.shift (h : g.Tight) (dx dy : ℚ) : (g.shift dx dy).toShape.Tight := by
  refine ⟨fun side hside => (h.touched side hside).shift dx dy, ?_⟩
  have hwide := h.wide
  unfold Bounds.width at hwide
  change 0 ≤ (g.bounds.maxX + (g.x + dx)) - (g.bounds.minX + (g.x + dx))
  linarith

theorem Tidy.touched (h : g.Tidy) {side : Side} (hside : side ≠ .north) (hsome : g.isEmpty = false) :
    g.Touched (·.isPlaceholder = false) side := by
  rcases h with rfl | h
  · cases hsome
  · exact h.touched side hside

theorem edge_push (hsome : g.isEmpty = false) (s : Shape ℚ) (side : Side) :
    (g.push s).bounds.edge side = max (g.bounds.edge side) (s.extent.edge side) := by
  rw [(push_of_not_isEmpty hsome s).1, Bounds.edge_union]

theorem le_edge_push (g : Group ℚ) (s : Shape ℚ) (side : Side) :
    s.extent.edge side ≤ (g.push s).bounds.edge side := by
  cases hempty : g.isEmpty with
  | true => rw [(push_of_isEmpty hempty s).1]
  | false =>
      rw [edge_push hempty]
      exact le_max_right _ _

theorem wide_push (hg : g.isEmpty = false → 0 ≤ g.bounds.width) (hs : 0 ≤ s.extent.width) :
    0 ≤ (g.push s).bounds.width := by
  cases hempty : g.isEmpty with
  | true =>
      rw [(push_of_isEmpty hempty s).1]
      exact hs
  | false =>
      have hwide := hg hempty
      rw [(push_of_not_isEmpty hempty s).1]
      unfold Bounds.width Bounds.union at *
      exact sub_nonneg.mpr ((min_le_left _ _).trans ((sub_nonneg.mp hwide).trans (le_max_left _ _)))

theorem Tidy.push (hg : g.Tidy) (hs : s.Tight) : (g.push s).Tight := by
  refine ⟨fun side hside => push_touched (hg.touched hside) (hs.touched side hside),
    wide_push (fun hsome => ?_) hs.wide⟩
  rcases hg with rfl | hg
  · cases hsome
  · exact hg.wide

/-- What reaches out from the origin settles the group that it is pushed on, unless that one reaches
out farther without being touched. -/
theorem push_around_settled (hg : ∀ side, side ≠ .north → g.isEmpty = false →
      g.Touched (·.isPlaceholder = false) side ∨ g.bounds.edge side ≤ 0) (hs : s.Tight)
    (haround : ∀ side, side ≠ .north → 0 ≤ s.extent.edge side) : (g.push s).Settled where
  touched side hside := by
    cases hempty : g.isEmpty with
    | true =>
        refine push_touched_beyond (hs.touched side hside) fun hsome => ?_
        exact absurd (hempty.symm.trans hsome) nofun
    | false =>
        rcases hg side hside hempty with htouched | hle
        · exact push_touched (fun _ => htouched) (hs.touched side hside)
        · exact push_touched_beyond (hs.touched side hside) fun _ => hle.trans (haround side hside)
  around side hside := (haround side hside).trans (g.le_edge_push s side)

theorem Tidy.push_around (hg : g.Tidy) (hs : s.Tight)
    (haround : ∀ side, side ≠ .north → 0 ≤ s.extent.edge side) : (g.push s).Settled :=
  push_around_settled (fun _ hside hsome => .inl (hg.touched hside hsome)) hs haround

theorem Settled.isEmpty (h : g.Settled) : g.isEmpty = false := (h.touched .west nofun).isEmpty

theorem Settled.push (hg : g.Settled) (hs : s.Tight) : (g.push s).Settled := by
  refine ⟨(hg.tidy.push hs).touched, fun side hside => ?_⟩
  rw [edge_push hg.isEmpty]
  exact le_max_of_le_left (hg.around side hside)

theorem Settled.push_within (hg : g.Settled)
    (hwithin : ∀ side, side ≠ .north → s.extent.edge side ≤ g.bounds.edge side) :
    (g.push s).Settled := by
  refine ⟨fun side hside => (hg.touched side hside).push_within hg.isEmpty (hwithin side hside),
    fun side hside => ?_⟩
  rw [edge_push hg.isEmpty]
  exact le_max_of_le_left (hg.around side hside)

theorem Settled.ajar (h : g.Settled) : g.Ajar :=
  ⟨h.touched .west nofun, h.touched .south nofun, h.around⟩

theorem Ajar.settled (h : g.Ajar) (heast : g.Touched (·.isPlaceholder = false) .east) : g.Settled := by
  refine ⟨fun side hside => ?_, h.around⟩
  cases side with
  | north => exact absurd rfl hside
  | west => exact h.west
  | east => exact heast
  | south => exact h.south

theorem Ajar.isEmpty (h : g.Ajar) : g.isEmpty = false := h.west.isEmpty

theorem Ajar.push_east (h : g.Ajar) (hs : s.Tight)
    (heast : g.Touched (·.isPlaceholder = false) .east ∨
      g.bounds.edge .east ≤ s.extent.edge .east) : (g.push s).Settled := by
  have hkept : (g.push s).Ajar :=
    { west := push_touched (fun _ => h.west) (hs.touched .west nofun)
      south := push_touched (fun _ => h.south) (hs.touched .south nofun)
      around := fun side hside => by
        rw [edge_push h.isEmpty]
        exact le_max_of_le_left (h.around side hside) }
  refine hkept.settled ?_
  rcases heast with htouched | hle
  · exact push_touched (fun _ => htouched) (hs.touched .east nofun)
  · exact push_touched_beyond (hs.touched .east nofun) fun _ => hle

theorem Ajar.push_within (h : g.Ajar) (hwest : s.extent.edge .west ≤ g.bounds.edge .west)
    (hsouth : s.extent.edge .south ≤ g.bounds.edge .south) : (g.push s).Ajar where
  west := h.west.push_within h.isEmpty hwest
  south := h.south.push_within h.isEmpty hsouth
  around side hside := by
    rw [edge_push h.isEmpty]
    exact le_max_of_le_left (h.around side hside)

theorem Tidy.push_origin (hg : g.Tidy) (hs : ∀ side, s.extent.edge side = 0) {side : Side}
    (hside : side ≠ .north) :
    (g.push s).Touched (·.isPlaceholder = false) side ∨ (g.push s).bounds.edge side ≤ 0 := by
  cases hempty : g.isEmpty with
  | true =>
      rw [(push_of_isEmpty hempty s).1, hs]
      exact .inr le_rfl
  | false =>
      rcases le_total 0 (g.bounds.edge side) with hle | hle
      · exact .inl ((hg.touched hside hempty).push_within hempty ((hs side).trans_le hle))
      · rw [edge_push hempty, hs]
        exact .inr (max_le hle le_rfl)

theorem around_tight {outline : Shape ℚ} (houtline : outline.Tight) (caption : String) {tw : ℚ}
    (htw : 0 ≤ tw) (th : ℚ) : (around outline caption tw th).Tight :=
  (tidy_empty.push houtline).tidy.push (Shape.tight_text _ htw)

end Group
end Flowchart
