import Flowchart.Proofs.Decimal.Rounding
import Flowchart.Proofs.Lane.Order
/-! Sums in single precision. The value of a finite float is a whole number of least units; a sum or
difference stands where the number nearest to its exact value does. So a summand keeps the order, and a
sum whose value is a float is exact. -/
namespace Flowchart.Single
open Float.Model Float.Model.UnpackedFloat
open Scalar (isNumber)

/-- The value of a finite float, in least units. -/
def units : UnpackedFloat → ℤ
  | .finite s m e _ => s.apply ((m * 2 ^ (e + 149).toNat : ℕ) : ℤ)
  | _ => 0

/-- Where the number nearest to so many units stands. -/
def standing (n : ℕ) : ℤ ×ₗ ℤ ×ₗ ℤ :=
  if n = 0 then 0
  else if 254 ≤ (nearest n).1 then toLex (2, toLex (0, 0))
  else toLex (1, toLex (((nearest n).1 : ℤ) - 149, ((nearest n).2 : ℤ)))

def rankOf (n : ℤ) : ℤ ×ₗ ℤ ×ₗ ℤ := if 0 ≤ n then standing n.natAbs else -standing n.natAbs

theorem standing_nonneg (n : ℕ) : 0 ≤ standing n := by
  unfold standing
  split_ifs
  · exact le_rfl
  · exact Prod.Lex.toLex_le_toLex.mpr (.inl zero_lt_two)
  · exact Prod.Lex.toLex_le_toLex.mpr (.inl zero_lt_one)

theorem standing_mono {m n : ℕ} (h : m ≤ n) : standing m ≤ standing n := by
  rcases Nat.eq_zero_or_pos m with rfl | pos
  · exact standing_nonneg n
  · have near := Prod.Lex.toLex_le_toLex.mp (nearest_mono h)
    unfold standing
    rw [if_neg pos.ne', if_neg (Nat.lt_of_lt_of_le pos h).ne']
    split_ifs
    · exact le_rfl
    · omega
    · exact Prod.Lex.toLex_le_toLex.mpr (.inl one_lt_two)
    · refine Prod.Lex.toLex_le_toLex.mpr (.inr ⟨rfl, Prod.Lex.toLex_le_toLex.mpr ?_⟩)
      dsimp only
      omega

theorem rankOf_mono {m n : ℤ} (h : m ≤ n) : rankOf m ≤ rankOf n := by
  unfold rankOf
  split_ifs
  · exact standing_mono (by omega)
  · omega
  · exact (neg_nonpos.mpr (standing_nonneg _)).trans (standing_nonneg _)
  · exact neg_le_neg (standing_mono (by omega))

/-- An unrounded result comes out of its pattern as the number nearest to so many units. -/
def Settles (u : UnpackedFloat) (n : ℤ) : Prop :=
  rank? (UnpackedFloat.unpack .binary32 (UnpackedFloat.pack .binary32 u)) = some (rankOf n)

theorem settles_zero (s : Sign) : Settles (.zero s) 0 := by
  cases s <;> rfl

theorem rankOf_apply (s : Sign) (n : ℕ) :
    rankOf (s.apply n) = match s with
      | .positive => standing n
      | .negative => -standing n := by
  unfold rankOf
  cases s with
  | positive => exact if_pos (Int.natCast_nonneg n)
  | negative =>
      change (if 0 ≤ -(n : ℤ) then standing (-(n : ℤ)).natAbs else -standing (-(n : ℤ)).natAbs) = _
      rw [Int.natAbs_neg, Int.natAbs_natCast]
      split_ifs with none
      · obtain rfl : n = 0 := by omega
        rfl
      · rfl

theorem settles_nearest (s : Sign) {n : ℕ} (pos : 0 < n) :
    Settles (.finite s (nearest n).2 ((nearest n).1 - 149) (nearest_pos pos)) (s.apply n) := by
  have reach : (105 : ℤ) ≤ (nearest n).1 - 149 ↔ 254 ≤ (nearest n).1 := by omega
  unfold Settles
  rw [unpack_pack s _ (kept_nearest n), rankOf_apply, standing, if_neg pos.ne']
  simp only [reach]
  cases s <;> split_ifs <;> rfl

theorem settles_kept (s : Sign) {m : ℕ} {e : ℤ} (pos : 0 < m) (h : Kept m e) :
    Settles (.finite s m e pos) (units (.finite s m e pos)) := by
  obtain ⟨bits, rfl⟩ : ∃ bits : ℕ, e = bits - 149 := ⟨(e + 149).toNat, by have := h.least; omega⟩
  have exponent : ((bits : ℤ) - 149 + 149).toNat = bits := by omega
  have settled := settles_nearest s (Nat.mul_pos pos (Nat.two_pow_pos bits))
  simp only [nearest_of_kept pos h] at settled
  simpa only [units, exponent] using settled

/-- A sum that the model rounds settles to its exact value. -/
theorem settles_normalize (n : ℤ) (bits : ℕ) :
    Settles (UnpackedFloat.normalize .binary32 n (bits - 149) .positive) (n * 2 ^ bits) := by
  unfold UnpackedFloat.normalize
  rcases lt_trichotomy n 0 with neg | rfl | pos
  · obtain ⟨m, rfl⟩ : ∃ m : ℕ, n = -m := ⟨n.natAbs, by omega⟩
    have some : 0 < m := by omega
    have settled := settles_nearest .negative (Nat.mul_pos some (Nat.two_pow_pos bits))
    rw [show compare (-(m : ℤ)) 0 = .lt from Int.compare_eq_lt.mpr neg]
    dsimp only
    rw [neg_neg, Int.toNat_natCast, round_eq .negative some]
    convert settled using 1
    simp [Sign.apply]
  · rw [show compare (0 : ℤ) 0 = .eq from rfl, zero_mul]
    exact settles_zero .positive
  · obtain ⟨m, rfl⟩ : ∃ m : ℕ, n = m := ⟨n.toNat, by omega⟩
    have some : 0 < m := by omega
    have settled := settles_nearest .positive (Nat.mul_pos some (Nat.two_pow_pos bits))
    rw [show compare (m : ℤ) 0 = .gt from Int.compare_eq_gt.mpr pos]
    dsimp only
    rw [Int.toNat_natCast, round_eq .positive some]
    convert settled using 1
    simp [Sign.apply]

inductive Finite : UnpackedFloat → Prop
  | zero (s) : Finite (.zero s)
  | kept (s m e pos) : Kept m e → Finite (.finite s m e pos)

theorem units_at (s : Sign) {m : ℕ} {e : ℤ} (pos : 0 < m) {bits : ℕ} (low : (bits : ℤ) - 149 ≤ e) :
    s.apply ((decreaseExponent m e (bits - 149)).1 : ℤ) * 2 ^ bits = units (.finite s m e pos) := by
  have exact : (e - (bits - 149)).toNat + bits = (e + 149).toNat := by omega
  have whole : m * 2 ^ (e - (bits - 149)).toNat * 2 ^ bits = m * 2 ^ (e + 149).toNat := by
    rw [Nat.mul_assoc, ← Nat.pow_add, exact]
  simp only [units, decreaseExponent, Nat.shiftLeft_eq, ← whole]
  cases s <;> simp [Sign.apply]

theorem settles_add {x y : UnpackedFloat} (hx : Finite x) (hy : Finite y) :
    Settles (.add .binary32 x y) (units x + units y) := by
  cases hx with
  | zero s =>
      cases hy with
      | zero t => cases s <;> cases t <;> exact settles_zero _
      | kept t m e pos h =>
          rw [show units (.zero s) = 0 from rfl, zero_add]
          exact settles_kept t pos h
  | kept s m e pos h =>
      cases hy with
      | zero t =>
          rw [show units (.zero t) = 0 from rfl, add_zero]
          exact settles_kept s pos h
      | kept t n d more k =>
          obtain ⟨bits, low⟩ : ∃ bits : ℕ, min e d = bits - 149 :=
            ⟨(min e d + 149).toNat, by have := h.least; have := k.least; omega⟩
          have settled := settles_normalize (s.apply (decreaseExponent m e (bits - 149)).1 +
            t.apply (decreaseExponent n d (bits - 149)).1) bits
          rw [add_mul, units_at s pos (by omega), units_at t more (by omega)] at settled
          simp only [UnpackedFloat.add, low]
          exact settled

theorem finite_neg {x : UnpackedFloat} (h : Finite x) : Finite x.neg := by
  cases h with
  | zero s => exact .zero (-s)
  | kept s m e pos h => exact .kept (-s) m e pos h

theorem units_neg {x : UnpackedFloat} (h : Finite x) : units x.neg = -units x := by
  cases h with
  | zero s => rfl
  | kept s m e pos h =>
      cases s
      · exact (neg_neg _).symm
      · rfl

theorem sub_eq_add {x y : UnpackedFloat} (hx : Finite x) (hy : Finite y) :
    UnpackedFloat.sub .binary32 x y = .add .binary32 x y.neg := by
  have apply_neg (s : Sign) (n : ℤ) : (-s).apply n = -s.apply n := by
    cases s
    · exact (neg_neg n).symm
    · rfl
  cases hx with
  | zero s => cases hy <;> rfl
  | kept s m e pos h =>
      cases hy with
      | zero t => rfl
      | kept t n d more k =>
          simp only [UnpackedFloat.sub, UnpackedFloat.neg, UnpackedFloat.add, apply_neg, sub_eq_add_neg]

theorem settles_sub {x y : UnpackedFloat} (hx : Finite x) (hy : Finite y) :
    Settles (.sub .binary32 x y) (units x - units y) := by
  rw [sub_eq_add hx hy, sub_eq_add_neg, ← units_neg hy]
  exact settles_add hx (finite_neg hy)

/-- The value of a finite float in least units; all of these are whole. -/
def value (x : Float32) : ℤ := units x.toModel.unpack

theorem finite_unpack {x : Float32} (h : Scalar.isFinite x = true) : Finite x.toModel.unpack := by
  change x.toModel.unpack.isFinite = true at h
  cases unpacked : x.toModel.unpack with
  | notANumber => rw [unpacked] at h; cases h
  | infinity s => rw [unpacked] at h; cases h
  | zero s => exact .zero s
  | finite s m e pos => exact .kept s m e pos (kept_unpack unpacked).1

theorem rank_value {x : Float32} (h : Scalar.isFinite x = true) : rank x = some (rankOf (value x)) := by
  have finite := finite_unpack h
  unfold rank value
  cases unpacked : x.toModel.unpack with
  | notANumber => rw [unpacked] at finite; cases finite
  | infinity s => rw [unpacked] at finite; cases finite
  | zero s => cases s <;> rfl
  | finite s m e pos =>
      obtain ⟨kept, bound⟩ := kept_unpack unpacked
      have settled := settles_kept s pos kept
      rw [Settles, unpack_pack s pos kept, if_neg (by omega)] at settled
      exact settled

theorem rank_add_value {x y : Float32} (hx : Scalar.isFinite x = true)
    (hy : Scalar.isFinite y = true) : rank (x + y) = some (rankOf (value x + value y)) :=
  settles_add (finite_unpack hx) (finite_unpack hy)

theorem rank_sub_value {x y : Float32} (hx : Scalar.isFinite x = true)
    (hy : Scalar.isFinite y = true) : rank (x - y) = some (rankOf (value x - value y)) :=
  settles_sub (finite_unpack hx) (finite_unpack hy)

theorem units_of_rank? {x y : UnpackedFloat} (hx : Finite x) (hy : Finite y)
    (same : rank? x = rank? y) : units x = units y := by
  cases hx with
  | zero s =>
      cases hy with
      | zero t => rfl
      | kept t => cases t <;> simp [rank?] at same
  | kept s m e pos h =>
      cases hy with
      | zero t => cases s <;> simp [rank?] at same
      | kept t n d more k =>
          cases s <;> cases t <;> simp [rank?] at same
          all_goals
            obtain ⟨rfl, rfl⟩ := same
            rfl

theorem value_of_rank {x : Float32} {u : UnpackedFloat} (hu : Finite u) (same : rank x = rank? u) :
    Scalar.isFinite x = true ∧ value x = units u := by
  have hx : Scalar.isFinite x = true := by
    rw [isFinite_iff, same]
    cases hu with
    | zero s => exact ⟨_, rfl, by decide⟩
    | kept s m e pos h => cases s <;> exact ⟨_, rfl, by simp [Prod.Lex.toLex_lt_toLex]⟩
  exact ⟨hx, units_of_rank? (finite_unpack hx) hu same⟩

/-- A sum that is a float is exact. -/
theorem add_exact {x y d : Float32} (hx : Scalar.isFinite x = true) (hy : Scalar.isFinite y = true)
    (hd : Scalar.isFinite d = true) (sum : value x + value y = value d) :
    Scalar.isFinite (x + y) = true ∧ value (x + y) = value d :=
  value_of_rank (finite_unpack hd) (by rw [rank_add_value hx hy, sum, ← rank_value hd]; rfl)

theorem sub_exact {x y d : Float32} (hx : Scalar.isFinite x = true) (hy : Scalar.isFinite y = true)
    (hd : Scalar.isFinite d = true) (difference : value x - value y = value d) :
    Scalar.isFinite (x - y) = true ∧ value (x - y) = value d :=
  value_of_rank (finite_unpack hd) (by rw [rank_sub_value hx hy, difference, ← rank_value hd]; rfl)

theorem exists_unpacked {n : ℤ} {g : ℕ} (grid : 2 ^ g ∣ n) (short : n.natAbs < 2 ^ (24 + g))
    (bound : g ≤ 253) : ∃ u, Finite u ∧ units u = n ∧ rank? u = some (rankOf n) := by
  obtain ⟨s, k, rfl⟩ : ∃ (s : Sign) (k : ℕ), n = s.apply (k : ℤ) := by
    rcases Int.natAbs_eq n with h | h
    · exact ⟨.positive, n.natAbs, h⟩
    · exact ⟨.negative, n.natAbs, h⟩
  have size : (s.apply (k : ℤ)).natAbs = k := by cases s <;> simp [Sign.apply]
  rw [size] at short
  rcases Nat.eq_zero_or_pos k with rfl | pos
  · exact ⟨.zero s, .zero s, by cases s <;> rfl, by cases s <;> rfl⟩
  · have grid : 2 ^ g ∣ k := by
      rw [← size]
      exact Int.natCast_dvd.mp (by exact_mod_cast grid)
    obtain ⟨exact, few⟩ := nearest_exact grid short
    refine ⟨.finite s (nearest k).2 ((nearest k).1 - 149) (nearest_pos pos),
      .kept s _ _ _ (kept_nearest k), ?_, ?_⟩
    · have exponent : ((nearest k).1 - 149 + 149 : ℤ).toNat = (nearest k).1 := by omega
      simp only [units, exponent, exact]
    · rw [rankOf_apply, standing, if_neg pos.ne', if_neg (by omega)]
      cases s <;> rfl

/-- Floats on a grid of which they are less than 24 bits apart have an exact difference. -/
theorem sub_grid {x y : Float32} {g : ℕ} (hx : Scalar.isFinite x = true)
    (hy : Scalar.isFinite y = true) (grid : 2 ^ g ∣ value x - value y)
    (short : (value x - value y).natAbs < 2 ^ (24 + g)) (bound : g ≤ 253) :
    Scalar.isFinite (x - y) = true ∧ value (x - y) = value x - value y := by
  obtain ⟨u, finite, exact, place⟩ := exists_unpacked grid short bound
  rw [← exact]
  exact value_of_rank finite (by rw [rank_sub_value hx hy, place])

theorem le_iff_value {x y : Float32} (hx : Scalar.isFinite x = true)
    (hy : Scalar.isFinite y = true) : x ≤ y ↔ value x ≤ value y := by
  have ranks : x ≤ y ↔ rankOf (value x) ≤ rankOf (value y) := by
    rw [le_iff, rank_value hx, rank_value hy]
    simp
  rw [ranks]
  refine ⟨fun h => ?_, rankOf_mono⟩
  by_contra less
  have back := rankOf_mono (le_of_not_ge less)
  have same : rank x = rank y := by rw [rank_value hx, rank_value hy, le_antisymm h back]
  exact less (units_of_rank? (finite_unpack hx) (finite_unpack hy) same).le

theorem finite_or_infinite {x : Float32} (h : isNumber x) :
    Scalar.isFinite x = true ∨ ∃ s, x.toModel.unpack = .infinity s := by
  obtain ⟨p, hp⟩ := isNumber_iff.mp h
  change x.toModel.unpack.isFinite = true ∨ _
  unfold rank at hp
  cases unpacked : x.toModel.unpack with
  | notANumber => rw [unpacked] at hp; cases hp
  | infinity s => exact .inr ⟨s, rfl⟩
  | zero s => exact .inl rfl
  | finite s m e pos => exact .inl rfl

theorem rank_between {x : Float32} {p : ℤ ×ₗ ℤ ×ₗ ℤ} (h : p ∈ rank x) :
    toLex (-2, toLex (0, 0)) ≤ p ∧ p ≤ toLex (2, toLex (0, 0)) := by
  rcases finite_or_infinite (isNumber_iff.mpr ⟨p, h⟩) with finite | ⟨s, infinite⟩
  · obtain ⟨q, hq, low, high⟩ := isFinite_iff.mp finite
    obtain rfl := Option.mem_unique h hq
    exact ⟨low.le, high.le⟩
  · rw [rank, infinite] at h
    cases s <;> cases h <;> decide

theorem rank_add_infinite {x y : Float32} {s : Sign} (hx : x.toModel.unpack = .infinity s)
    (hy : Scalar.isFinite y = true) : rank (x + y) = rank x := by
  have finite := finite_unpack hy
  change rank? (UnpackedFloat.unpack .binary32 (UnpackedFloat.pack .binary32
    (.add .binary32 x.toModel.unpack y.toModel.unpack))) = rank? x.toModel.unpack
  rw [hx]
  generalize y.toModel.unpack = u at finite
  cases finite <;> exact congrArg rank? (unpack_packedInfinity s)

/-- A finite summand leaves the order as it is, whatever is rounded. -/
theorem add_le_add_finite {x y z : Float32} (h : x ≤ y) (hz : Scalar.isFinite z = true) :
    x + z ≤ y + z := by
  obtain ⟨p, hp, q, hq, hpq⟩ := le_iff.mp h
  rw [le_iff]
  rcases finite_or_infinite (isNumber_iff.mpr ⟨p, hp⟩) with hx | ⟨s, hx⟩ <;>
    rcases finite_or_infinite (isNumber_iff.mpr ⟨q, hq⟩) with hy | ⟨t, hy⟩
  · rw [rank_add_value hx hz, rank_add_value hy hz]
    exact ⟨_, rfl, _, rfl, rankOf_mono (add_le_add_left ((le_iff_value hx hy).mp h) _)⟩
  · rw [rank_add_value hx hz, rank_add_infinite hy hz]
    refine ⟨_, rfl, q, hq, ?_⟩
    obtain ⟨p', hp', low, -⟩ := isFinite_iff.mp hx
    obtain rfl := Option.mem_unique hp hp'
    rw [rank, hy] at hq
    cases t with
    | negative =>
        cases hq
        exact absurd (low.trans_le hpq) (lt_irrefl _)
    | positive =>
        cases hq
        exact (rank_between (rank_add_value hx hz)).2
  · rw [rank_add_infinite hx hz, rank_add_value hy hz]
    refine ⟨p, hp, _, rfl, ?_⟩
    obtain ⟨q', hq', -, high⟩ := isFinite_iff.mp hy
    obtain rfl := Option.mem_unique hq hq'
    rw [rank, hx] at hp
    cases s with
    | negative =>
        cases hp
        exact (rank_between (rank_add_value hy hz)).1
    | positive =>
        cases hp
        exact absurd (hpq.trans_lt high) (lt_irrefl _)
  · rw [rank_add_infinite hx hz, rank_add_infinite hy hz]
    exact ⟨p, hp, q, hq, hpq⟩

end Flowchart.Single

namespace Flowchart
open Scalar (isNumber)

/-- An arithmetic in which sums may be rounded, but not out of order, with ends beyond which there are
no numbers. -/
class RoundedScalar (α : Type) [Scalar α] : Prop extends LawfulScalar α where
  finite_zero : Scalar.isFinite (0 : α) = true
  add_le_add {a b c : α} : a ≤ b → Scalar.isFinite c = true → a + c ≤ b + c
  least_le_number {a least : α} : least ∈ (Scalar.least : Option α) → isNumber a → least ≤ a
  number_le_greatest {a greatest : α} : greatest ∈ (Scalar.greatest : Option α) → isNumber a →
    a ≤ greatest

instance : RoundedScalar Rat where
  finite_zero := rfl
  add_le_add h _ := add_le_add_left h _
  least_le_number := nofun
  number_le_greatest := nofun

instance : RoundedScalar Float32 where
  finite_zero := rfl
  add_le_add := Single.add_le_add_finite
  least_le_number h ha := by
    obtain ⟨p, hp⟩ := Single.isNumber_iff.mp ha
    cases h
    exact Single.le_iff.mpr ⟨_, rfl, p, hp, (Single.rank_between hp).1⟩
  number_le_greatest h ha := by
    obtain ⟨p, hp⟩ := Single.isNumber_iff.mp ha
    cases h
    exact Single.le_iff.mpr ⟨p, hp, _, rfl, (Single.rank_between hp).2⟩

end Flowchart
