import Mathlib
import Flowchart.Scalar
/-! The order that both readings of coordinates share. A scalar that equals itself is a number;
numbers are totally ordered, and nothing compares with what is no number. Exact coordinates are all
numbers, single-precision ones are numbers unless they are undefined. -/
namespace Flowchart
open Scalar (isNumber)

class LawfulScalar (α : Type) [Scalar α] : Prop where
  le_trans {a b c : α} : a ≤ b → b ≤ c → a ≤ c
  le_total {a b : α} : isNumber a → isNumber b → a ≤ b ∨ b ≤ a
  beq_iff {a b : α} : (a == b) = true ↔ a ≤ b ∧ b ≤ a
  number_of_le {a b : α} : a ≤ b → isNumber a ∧ isNumber b
  number_of_isFinite {a : α} : Scalar.isFinite a = true → isNumber a
  max_number {a b : α} : isNumber a → isNumber b → max a b = a ∧ b ≤ a ∨ max a b = b ∧ a ≤ b
  min_number {a b : α} : isNumber a → isNumber b → min a b = a ∧ a ≤ b ∨ min a b = b ∧ b ≤ a
  max_undefined {a b : α} : isNumber a → ¬ isNumber b → max a b = a
  number_of_add {a b : α} : isNumber (a + b) → isNumber a
  /-- Where some scalar is no number, the order has a least end. -/
  least_le {a : α} : ¬ isNumber a →
    ∃ least : α, Scalar.least = some least ∧ isNumber least
  number_of_mem_ends {a : α} : a ∈ (Scalar.least : Option α) ∨ a ∈ (Scalar.greatest : Option α) →
    isNumber a
  lt_iff {a b : α} : a < b ↔ a ≤ b ∧ ¬ b ≤ a
  finite_of_add {a b : α} : Scalar.isFinite (a + b) = true → Scalar.isFinite a = true
  finite_of_between {a b c : α} : a ≤ b → b ≤ c → Scalar.isFinite a = true →
    Scalar.isFinite c = true → Scalar.isFinite b = true

namespace LawfulScalar
variable {α : Type} [Scalar α] [LawfulScalar α] {a b c : α}

theorem isNumber_iff : isNumber a ↔ a ≤ a := by
  simpa only [isNumber, and_self] using beq_iff (a := a) (b := a)

theorem le_refl (h : isNumber a) : a ≤ a := isNumber_iff.mp h

theorem le_of_not_le (ha : isNumber a) (hb : isNumber b) (h : ¬ a ≤ b) : b ≤ a :=
  (le_total ha hb).resolve_left h

theorem isNumber_max (ha : isNumber a) : isNumber (max a b) := by
  by_cases hb : isNumber b
  · rcases max_number ha hb with ⟨h, -⟩ | ⟨h, -⟩
    · rw [h]; exact ha
    · rw [h]; exact hb
  · rw [max_undefined ha hb]; exact ha

theorem le_max_left (ha : isNumber a) : a ≤ max a b := by
  by_cases hb : isNumber b
  · rcases max_number ha hb with ⟨h, -⟩ | ⟨h, hab⟩
    · rw [h]; exact le_refl ha
    · rw [h]; exact hab
  · rw [max_undefined ha hb]; exact le_refl ha

theorem le_max_right (ha : isNumber a) (hb : isNumber b) : b ≤ max a b := by
  rcases max_number ha hb with ⟨h, hba⟩ | ⟨h, -⟩
  · rw [h]; exact hba
  · rw [h]; exact le_refl hb

theorem le_of_lt (h : a < b) : a ≤ b := (lt_iff.mp h).1

theorem not_le_of_lt (h : a < b) : ¬ b ≤ a := (lt_iff.mp h).2

theorem lt_of_not_le (ha : isNumber a) (hb : isNumber b) (h : ¬ a ≤ b) : b < a :=
  lt_iff.mpr ⟨le_of_not_le ha hb h, h⟩

theorem lt_of_le_of_lt (hab : a ≤ b) (hbc : b < c) : a < c :=
  lt_iff.mpr ⟨le_trans hab (le_of_lt hbc), fun h => not_le_of_lt hbc (le_trans h hab)⟩

theorem lt_of_lt_of_le (hab : a < b) (hbc : b ≤ c) : a < c :=
  lt_iff.mpr ⟨le_trans (le_of_lt hab) hbc, fun h => not_le_of_lt hab (le_trans hbc h)⟩

end LawfulScalar

instance : LawfulScalar Rat where
  le_trans := Rat.le_trans
  le_total _ _ := Rat.le_total
  beq_iff {a b} := by
    rw [beq_iff_eq]
    exact ⟨fun h => h ▸ ⟨Rat.le_refl, Rat.le_refl⟩, fun h => Rat.le_antisymm h.1 h.2⟩
  number_of_le _ := ⟨beq_self_eq_true _, beq_self_eq_true _⟩
  number_of_isFinite _ := beq_self_eq_true _
  max_number {a b} _ _ := by
    change (if a ≤ b then b else a) = a ∧ b ≤ a ∨ (if a ≤ b then b else a) = b ∧ a ≤ b
    split
    · exact .inr ⟨rfl, ‹_›⟩
    · exact .inl ⟨rfl, le_of_not_ge ‹_›⟩
  min_number {a b} _ _ := by
    change (if a ≤ b then a else b) = a ∧ a ≤ b ∨ (if a ≤ b then a else b) = b ∧ b ≤ a
    split
    · exact .inl ⟨rfl, ‹_›⟩
    · exact .inr ⟨rfl, le_of_not_ge ‹_›⟩
  max_undefined _ h := absurd (beq_self_eq_true _) h
  number_of_add _ := beq_self_eq_true _
  least_le h := absurd (beq_self_eq_true _) h
  number_of_mem_ends _ := beq_self_eq_true _
  lt_iff := lt_iff_le_not_ge
  finite_of_add _ := rfl
  finite_of_between _ _ _ _ := rfl

namespace Single
open Float.Model

/-- Where a float stands in its order, the outermost kinds first; an undefined one stands nowhere. -/
def rank? : UnpackedFloat → Option (ℤ ×ₗ ℤ ×ₗ ℤ)
  | .notANumber => none
  | .infinity .negative => some (toLex (-2, toLex (0, 0)))
  | .finite .negative m e _ => some (toLex (-1, toLex (-e, -(m : ℤ))))
  | .zero _ => some (toLex (0, toLex (0, 0)))
  | .finite .positive m e _ => some (toLex (1, toLex (e, (m : ℤ))))
  | .infinity .positive => some (toLex (2, toLex (0, 0)))

theorem compare_toLex {α β : Type*} [LinearOrder α] [LinearOrder β] (a a' : α) (b b' : β) :
    compare (toLex (a, b)) (toLex (a', b')) = (compare a a').then (compare b b') := by
  rcases lt_trichotomy a a' with h | rfl | h
  · rw [compare_lt_iff_lt.mpr h, compare_lt_iff_lt.mpr (Prod.Lex.toLex_lt_toLex.mpr (.inl h))]
    rfl
  · have inner {b b' : β} (h : b < b') : toLex (a, b) < toLex (a, b') :=
      Prod.Lex.toLex_lt_toLex.mpr (.inr ⟨rfl, h⟩)
    rw [compare_eq_iff_eq.mpr (rfl : a = a)]
    rcases lt_trichotomy b b' with h | rfl | h
    · rw [compare_lt_iff_lt.mpr h, compare_lt_iff_lt.mpr (inner h)]
      rfl
    · rw [compare_eq_iff_eq.mpr rfl, compare_eq_iff_eq.mpr rfl]
      rfl
    · rw [compare_gt_iff_gt.mpr h, compare_gt_iff_gt.mpr (inner h)]
      rfl
  · rw [compare_gt_iff_gt.mpr h, compare_gt_iff_gt.mpr (Prod.Lex.toLex_lt_toLex.mpr (.inl h))]
    rfl

theorem compare_neg (a b : ℤ) : compare (-a) (-b) = (compare a b).swap := by
  rcases lt_trichotomy a b with h | rfl | h
  · rw [compare_lt_iff_lt.mpr h, compare_gt_iff_gt.mpr (neg_lt_neg h)]
    rfl
  · rw [compare_eq_iff_eq.mpr rfl, compare_eq_iff_eq.mpr rfl]
    rfl
  · rw [compare_gt_iff_gt.mpr h, compare_lt_iff_lt.mpr (neg_lt_neg h)]
    rfl

theorem compare_cast (m n : ℕ) : compare (m : ℤ) (n : ℤ) = compare m n := by
  rcases lt_trichotomy m n with h | rfl | h
  · rw [compare_lt_iff_lt.mpr h, compare_lt_iff_lt.mpr (Int.ofNat_lt.mpr h)]
  · rw [compare_eq_iff_eq.mpr rfl, compare_eq_iff_eq.mpr rfl]
  · rw [compare_gt_iff_gt.mpr h, compare_gt_iff_gt.mpr (Int.ofNat_lt.mpr h)]

/-- Comparing floats compares their ranks. -/
theorem compare_eq (x y : UnpackedFloat) :
    x.compare y = (rank? x).bind fun p => (rank? y).map fun q => compare p q := by
  cases x with
  | notANumber => rfl
  | infinity s =>
      cases s <;> cases y with
      | notANumber => rfl
      | infinity t => cases t <;> rfl
      | zero t => rfl
      | finite t => cases t <;> rfl
  | zero s =>
      cases y with
      | notANumber => rfl
      | infinity t => cases t <;> rfl
      | zero t => rfl
      | finite t => cases t <;> rfl
  | finite s m e h =>
      cases s <;> cases y with
      | notANumber => rfl
      | infinity t => cases t <;> rfl
      | zero t => rfl
      | finite t n d k =>
          cases t <;>
            simp only [rank?, Option.bind_some, Option.map_some, compare_toLex, compare_neg,
              compare_cast, ← Ordering.swap_then] <;> rfl

/-- Where a single-precision coordinate stands. -/
def rank (x : Float32) : Option (ℤ ×ₗ ℤ ×ₗ ℤ) := rank? x.toModel.unpack

theorem le_iff {x y : Float32} : x ≤ y ↔ ∃ p ∈ rank x, ∃ q ∈ rank y, p ≤ q := by
  change decide (x.toModel ≤ y.toModel) = true ↔ _
  rw [decide_eq_true_iff]
  change (x.toModel.unpack.compare y.toModel.unpack).any (·.isLE) = true ↔ _
  rw [compare_eq]
  cases hx : rank? x.toModel.unpack <;> cases hy : rank? y.toModel.unpack <;>
    simp [rank, hx, hy, Ordering.isLE_iff_ne_gt, compare_gt_iff_gt]

theorem lt_iff {x y : Float32} : x < y ↔ ∃ p ∈ rank x, ∃ q ∈ rank y, p < q := by
  change decide (x.toModel < y.toModel) = true ↔ _
  rw [decide_eq_true_iff]
  change (x.toModel.unpack.compare y.toModel.unpack == some .lt) = true ↔ _
  rw [compare_eq]
  cases hx : rank? x.toModel.unpack <;> cases hy : rank? y.toModel.unpack <;>
    simp [rank, hx, hy, compare_lt_iff_lt]

theorem beq_iff {x y : Float32} : (x == y) = true ↔ ∃ p ∈ rank x, p ∈ rank y := by
  change (x.toModel.unpack.compare y.toModel.unpack == some .eq) = true ↔ _
  rw [compare_eq, rank, rank]
  cases rank? x.toModel.unpack with
  | none => simp
  | some p =>
      cases rank? y.toModel.unpack with
      | none => simp
      | some q =>
          simp only [Option.bind_some, Option.map_some, Option.mem_def, Option.some.injEq,
            beq_iff_eq, compare_eq_iff_eq, exists_eq_left']
          exact eq_comm

theorem isNumber_iff {x : Float32} : isNumber x ↔ ∃ p, p ∈ rank x := by
  change (x == x) = true ↔ _
  rw [beq_iff]
  simp

theorem rank_eq_none {x : Float32} (h : ¬ isNumber x) : rank x = none :=
  Option.eq_none_iff_forall_not_mem.mpr fun p hp => h (isNumber_iff.mpr ⟨p, hp⟩)

theorem unpack_of_rank_eq_none {x : Float32} (h : rank x = none) :
    x.toModel.unpack = .notANumber := by
  unfold rank at h
  cases hu : x.toModel.unpack with
  | notANumber => rfl
  | infinity s => cases s <;> simp [hu, rank?] at h
  | zero s => simp [hu, rank?] at h
  | finite s => cases s <;> simp [hu, rank?] at h

/-- What is no number is absorbed by no sum. -/
theorem rank_add {x y : Float32} (h : rank x = none) : rank (x + y) = none := by
  change rank? (Float32.Model.pack (.add .binary32 x.toModel.unpack y.toModel.unpack)).unpack = none
  have undefined (u : UnpackedFloat) : UnpackedFloat.add .binary32 .notANumber u = .notANumber := by
    cases u <;> rfl
  rw [unpack_of_rank_eq_none h, undefined]
  rfl

theorem le_of_lt {x y : Float32} (h : x < y) : x ≤ y := by
  obtain ⟨p, hp, q, hq, hpq⟩ := lt_iff.mp h
  exact le_iff.mpr ⟨p, hp, q, hq, hpq.le⟩

theorem le_of_not_lt {x y : Float32} {p q : ℤ ×ₗ ℤ ×ₗ ℤ} (hp : p ∈ rank x) (hq : q ∈ rank y)
    (h : ¬ x < y) : y ≤ x :=
  le_iff.mpr ⟨q, hq, p, hp, not_lt.mp fun k => h (lt_iff.mpr ⟨p, hp, q, hq, k⟩)⟩

theorem isFinite_iff {x : Float32} : Scalar.isFinite x = true ↔
    ∃ p ∈ rank x, toLex (-2, toLex (0, 0)) < p ∧ p < toLex (2, toLex (0, 0)) := by
  change x.toModel.unpack.isFinite = true ↔ _
  unfold rank
  cases x.toModel.unpack with
  | notANumber => simp [rank?, UnpackedFloat.isFinite]
  | infinity s => cases s <;> simp [rank?, UnpackedFloat.isFinite]
  | zero s => simp [rank?, UnpackedFloat.isFinite, Prod.Lex.toLex_lt_toLex]
  | finite s m e h => cases s <;> simp [rank?, UnpackedFloat.isFinite, Prod.Lex.toLex_lt_toLex]

theorem finite_of_add {x y : Float32} (h : Scalar.isFinite (x + y) = true) :
    Scalar.isFinite x = true := by
  change x.toModel.unpack.isFinite = true
  change (Float32.Model.pack (.add .binary32 x.toModel.unpack y.toModel.unpack)).unpack.isFinite =
    true at h
  have undefined (u : UnpackedFloat) : UnpackedFloat.add .binary32 .notANumber u = .notANumber := by
    cases u <;> rfl
  have infinite (s : UnpackedFloat.Sign) (u : UnpackedFloat) :
      UnpackedFloat.add .binary32 (.infinity s) u = .notANumber ∨
        UnpackedFloat.add .binary32 (.infinity s) u = .infinity s := by
    cases u with
    | notANumber => exact .inl rfl
    | infinity t => cases s <;> cases t <;> first | exact .inl rfl | exact .inr rfl
    | zero t => exact .inr rfl
    | finite t => exact .inr rfl
  cases hx : x.toModel.unpack with
  | notANumber =>
      rw [hx, undefined] at h
      cases h
  | infinity s =>
      rw [hx] at h
      rcases infinite s y.toModel.unpack with hsum | hsum <;> rw [hsum] at h
      · cases h
      · cases s <;> cases h
  | zero s => rfl
  | finite s => rfl

end Single

instance : LawfulScalar Float32 where
  le_trans {a b c} hab hbc := by
    obtain ⟨p, hp, q, hq, hpq⟩ := Single.le_iff.mp hab
    obtain ⟨q', hq', r, hr, hqr⟩ := Single.le_iff.mp hbc
    obtain rfl := Option.mem_unique hq hq'
    exact Single.le_iff.mpr ⟨p, hp, r, hr, hpq.trans hqr⟩
  le_total {a b} ha hb := by
    obtain ⟨p, hp⟩ := Single.isNumber_iff.mp ha
    obtain ⟨q, hq⟩ := Single.isNumber_iff.mp hb
    exact (le_total p q).imp (fun h => Single.le_iff.mpr ⟨p, hp, q, hq, h⟩)
      (fun h => Single.le_iff.mpr ⟨q, hq, p, hp, h⟩)
  beq_iff {a b} := by
    constructor
    · intro h
      obtain ⟨p, hp, hq⟩ := Single.beq_iff.mp h
      exact ⟨Single.le_iff.mpr ⟨p, hp, p, hq, le_rfl⟩, Single.le_iff.mpr ⟨p, hq, p, hp, le_rfl⟩⟩
    · rintro ⟨hab, hba⟩
      obtain ⟨p, hp, q, hq, hpq⟩ := Single.le_iff.mp hab
      obtain ⟨q', hq', p', hp', hqp⟩ := Single.le_iff.mp hba
      obtain rfl := Option.mem_unique hp hp'
      obtain rfl := Option.mem_unique hq hq'
      obtain rfl := le_antisymm hpq hqp
      exact Single.beq_iff.mpr ⟨p, hp, hq⟩
  number_of_le {a b} h := by
    obtain ⟨p, hp, q, hq, -⟩ := Single.le_iff.mp h
    exact ⟨Single.isNumber_iff.mpr ⟨p, hp⟩, Single.isNumber_iff.mpr ⟨q, hq⟩⟩
  number_of_isFinite {a} h := by
    change a.toModel.unpack.isFinite = true at h
    refine Single.isNumber_iff.mpr ?_
    unfold Single.rank
    cases hu : a.toModel.unpack with
    | notANumber => rw [hu] at h; cases h
    | infinity s => rw [hu] at h; cases h
    | zero s => exact ⟨_, rfl⟩
    | finite s m e _ => cases s <;> exact ⟨_, rfl⟩
  max_number {a b} ha hb := by
    obtain ⟨p, hp⟩ := Single.isNumber_iff.mp ha
    obtain ⟨q, hq⟩ := Single.isNumber_iff.mp hb
    change (if a != a then b else if a < b then b else a) = a ∧ b ≤ a ∨
      (if a != a then b else if a < b then b else a) = b ∧ a ≤ b
    have hna : (a != a) = false := congrArg not ha
    rw [hna, if_neg Bool.false_ne_true]
    split
    · next h => exact .inr ⟨rfl, Single.le_of_lt h⟩
    · next h => exact .inl ⟨rfl, Single.le_of_not_lt hp hq h⟩
  min_number {a b} ha hb := by
    obtain ⟨p, hp⟩ := Single.isNumber_iff.mp ha
    obtain ⟨q, hq⟩ := Single.isNumber_iff.mp hb
    change (if a != a then b else if b < a then b else a) = a ∧ a ≤ b ∨
      (if a != a then b else if b < a then b else a) = b ∧ b ≤ a
    have hna : (a != a) = false := congrArg not ha
    rw [hna, if_neg Bool.false_ne_true]
    split
    · next h => exact .inr ⟨rfl, Single.le_of_lt h⟩
    · next h => exact .inl ⟨rfl, Single.le_of_not_lt hq hp h⟩
  max_undefined {a b} ha hb := by
    change (if a != a then b else if a < b then b else a) = a
    have hna : (a != a) = false := congrArg not ha
    have hab : ¬ a < b := fun h =>
      hb (Single.isNumber_iff.mpr ((Single.lt_iff.mp h).elim fun _ k => ⟨_, k.2.choose_spec.1⟩))
    rw [hna, if_neg Bool.false_ne_true, if_neg hab]
  number_of_add {a b} h := by
    by_contra ha
    have hab : Single.rank (a + b) = none := Single.rank_add (Single.rank_eq_none ha)
    obtain ⟨p, hp⟩ := Single.isNumber_iff.mp h
    rw [hab] at hp
    cases hp
  least_le {a} _ := ⟨_, rfl, Single.isNumber_iff.mpr ⟨_, rfl⟩⟩
  number_of_mem_ends {a} h := by
    rcases h with h | h <;> cases h <;> exact Single.isNumber_iff.mpr ⟨_, rfl⟩
  lt_iff {a b} := by
    constructor
    · intro h
      refine ⟨Single.le_of_lt h, fun k => ?_⟩
      obtain ⟨p, hp, q, hq, hpq⟩ := Single.lt_iff.mp h
      obtain ⟨q', hq', p', hp', hqp⟩ := Single.le_iff.mp k
      obtain rfl := Option.mem_unique hp hp'
      obtain rfl := Option.mem_unique hq hq'
      exact absurd hpq (not_lt.mpr hqp)
    · rintro ⟨h, k⟩
      obtain ⟨p, hp, q, hq, -⟩ := Single.le_iff.mp h
      exact Single.lt_iff.mpr ⟨p, hp, q, hq, not_le.mp fun hqp => k (Single.le_iff.mpr ⟨q, hq, p, hp, hqp⟩)⟩
  finite_of_add := Single.finite_of_add
  finite_of_between hab hbc ha hc := by
    obtain ⟨p, hp, q, hq, hpq⟩ := Single.le_iff.mp hab
    obtain ⟨q', hq', r, hr, hqr⟩ := Single.le_iff.mp hbc
    obtain rfl := Option.mem_unique hq hq'
    obtain ⟨p', hp', hlow, -⟩ := Single.isFinite_iff.mp ha
    obtain ⟨r', hr', -, hhigh⟩ := Single.isFinite_iff.mp hc
    obtain rfl := Option.mem_unique hp hp'
    obtain rfl := Option.mem_unique hr hr'
    exact Single.isFinite_iff.mpr ⟨q, hq, hlow.trans_le hpq, hqr.trans_lt hhigh⟩

end Flowchart
