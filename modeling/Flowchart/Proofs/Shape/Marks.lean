import Flowchart.Proofs.Chart.Picture
/-! What drawings show: the marks of their leaves, which do not depend on where the leaves lie. -/
namespace Flowchart
variable {α : Type}

namespace Shape

def mark? : Shape α → Option Mark
  | .rect _ => some .rect
  | .diamond _ => some .diamond
  | .frame _ => some .frame
  | .text t => some (.text t.content t.isLabel)
  | .point _ | .path _ | .group .. => none

mutual

def marks : Shape α → List Mark
  | .group _ _ children _ => marksAll children
  | .point p => (mark? (.point p)).toList
  | .path p => (mark? (.path p)).toList
  | .text t => (mark? (.text t)).toList
  | .rect o => (mark? (.rect o)).toList
  | .frame o => (mark? (.frame o)).toList
  | .diamond o => (mark? (.diamond o)).toList

def marksAll : List (Shape α) → List Mark
  | [] => []
  | s :: rest => marks s ++ marksAll rest

end

theorem marksAll_append (shapes others : List (Shape α)) :
    marksAll (shapes ++ others) = marksAll shapes ++ marksAll others := by
  induction shapes with
  | nil => rfl
  | cons s rest ih => simp only [List.cons_append, marksAll, ih, List.append_assoc]

theorem marks_shift [Scalar α] (s : Shape α) (dx dy : α) : (s.shift dx dy).marks = s.marks := by
  cases s <;> rfl

theorem marks_eq_nil_of_isPlaceholder {s : Shape α} (h : s.isPlaceholder = true) : s.marks = [] := by
  cases s <;> first | rfl | cases h

mutual

theorem filterMap_leaves [Scalar α] (s : Shape α) (ox oy : α) :
    (s.leaves ox oy).filterMap (fun p => p.shape.mark?) = s.marks := by
  match s with
  | .group x y children b =>
      rw [leaves, marks]
      exact filterMap_leavesAll children _ _
  | .point p => rfl
  | .path p => rfl
  | .text t => rfl
  | .rect o => rfl
  | .frame o => rfl
  | .diamond o => rfl

theorem filterMap_leavesAll [Scalar α] (shapes : List (Shape α)) (ox oy : α) :
    (leavesAll ox oy shapes).filterMap (fun p => p.shape.mark?) = marksAll shapes := by
  match shapes with
  | [] => rfl
  | s :: rest =>
      rw [leavesAll, marksAll, List.filterMap_append, filterMap_leaves s, filterMap_leavesAll rest]

end
end Shape

def Layout.marks [Scalar α] (l : Layout α) : List Mark :=
  l.leaves.filterMap fun p => p.shape.mark?

namespace Group

def marks (g : Group α) : List Mark := Shape.marksAll g.children

@[simp]
theorem marks_toShape (g : Group α) : g.toShape.marks = g.marks := by
  rw [toShape, Shape.marks, marks]

variable [Scalar α]

@[simp]
theorem marks_empty : (empty : Group α).marks = [] := rfl

@[simp]
theorem marks_shift (g : Group α) (dx dy : α) : (g.shift dx dy).marks = g.marks := rfl

@[simp]
theorem marks_push (g : Group α) (s : Shape α) : (g.push s).marks = g.marks ++ s.marks := by
  have hpush := collect_push Shape.marksAll Shape.marksAll_append (fun t ht => ?_) g s
  · rwa [Shape.marksAll, Shape.marksAll, List.append_nil] at hpush
  · rw [Shape.marksAll, Shape.marksAll, List.append_nil]
    exact Shape.marks_eq_nil_of_isPlaceholder ht

theorem marks_around (outline : Shape α) (caption : String) (tw th : α) :
    (around outline caption tw th).marks = outline.marks ++ [.text caption false] := by
  unfold around
  simp only [marks_push, marks_empty, List.nil_append]
  rfl

end Group
end Flowchart
