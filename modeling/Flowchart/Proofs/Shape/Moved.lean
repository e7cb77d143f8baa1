import Flowchart.Shape.Layout
import Mathlib.Algebra.Order.Field.Rat
import Mathlib.Tactic.Ring
import Mathlib.Tactic.NormNum
/-! Leaves move with the group around them, in arithmetic without rounding. -/
namespace Flowchart

/-- Arithmetic in which sums can be regrouped and a difference is made up for. Only in it do the
places of shapes say where they lie. -/
structure Scalar.Exact (α : Type) [Scalar α] : Prop where
  add_assoc (a b c : α) : a + b + c = a + (b + c)
  add_comm (a b : α) : a + b = b + a
  zero_add (a : α) : 0 + a = a
  add_sub (a b : α) : a + (b - a) = b
  add_half (a : α) : -a / 2.0 + a = a / 2.0
  eq_of_beq (a b : α) : (a == b) = true → a = b

theorem Scalar.exact_rat : Scalar.Exact ℚ where
  add_assoc := Rat.add_assoc
  add_comm := Rat.add_comm
  zero_add := Rat.zero_add
  add_sub a b := by ring
  add_half a := by
    norm_num
    ring
  eq_of_beq a b h := beq_iff_eq.mp h

variable {α : Type} [Scalar α]

namespace Scalar.Exact

theorem add_zero (h : Scalar.Exact α) (a : α) : a + 0 = a := by rw [h.add_comm, h.zero_add]

theorem add_right_comm (h : Scalar.Exact α) (a b c : α) : a + b + c = a + c + b := by
  rw [h.add_assoc, h.add_comm b, ← h.add_assoc]

end Scalar.Exact

def Placed.shift (p : Placed α) (dx dy : α) : Placed α := ⟨p.shape, p.x + dx, p.y + dy⟩

mutual

theorem Shape.leaves_shift (h : Scalar.Exact α) (s : Shape α) (ox oy dx dy : α) :
    s.leaves (ox + dx) (oy + dy) = (s.leaves ox oy).map (·.shift dx dy) := by
  match s with
  | .group x y children b =>
      rw [leaves, leaves, h.add_right_comm ox, h.add_right_comm oy]
      exact Shape.leavesAll_shift h children _ _ dx dy
  | .point p => rfl
  | .path p => rfl
  | .text t => rfl
  | .rect o => rfl
  | .frame o => rfl
  | .diamond o => rfl

theorem Shape.leavesAll_shift (h : Scalar.Exact α) (shapes : List (Shape α)) (ox oy dx dy : α) :
    leavesAll (ox + dx) (oy + dy) shapes = (leavesAll ox oy shapes).map (·.shift dx dy) := by
  match shapes with
  | [] => rfl
  | s :: rest =>
      rw [leavesAll, leavesAll, List.map_append, Shape.leaves_shift h s,
        Shape.leavesAll_shift h rest]

end

end Flowchart
