import Flowchart.Proofs.Decimal.Exact
/-! Rounding to single precision. A whole number is rounded to 24 bits, half to even, and what the float
model rounds and packs is that. Rounding never changes order (`nearest_mono`), the model rounds to the
nearest (`round_eq`), and what it packs it gets back (`unpack_pack`). -/
namespace Flowchart

namespace Decimal

theorem roundDiv_mul_mul (num : ℕ) {den c : ℕ} (pos : 0 < c) (tie : Decimal.Tie) :
    roundDiv (num * c) (den * c) tie = roundDiv num den tie := by
  unfold roundDiv
  have twice : 2 * (num * c % (den * c)) = 2 * (num % den) * c := by
    rw [Nat.mul_mod_mul_right, Nat.mul_assoc]
  simp only [Nat.mul_div_mul_right _ _ pos, twice, Nat.mul_lt_mul_right pos]

theorem roundDiv_mono {m n : ℕ} (h : m ≤ n) (den : ℕ) :
    roundDiv m den .toEven ≤ roundDiv n den .toEven := by
  have whole : m / den ≤ n / den := Nat.div_le_div_right h
  have hm := Nat.div_add_mod m den
  have hn := Nat.div_add_mod n den
  unfold roundDiv
  dsimp only
  rcases Nat.lt_or_eq_of_le whole with lt | same
  · have := Nat.mod_two_eq_zero_or_one (m / den)
    have := Nat.mod_two_eq_zero_or_one (n / den)
    split_ifs <;> omega
  · rw [same] at hm ⊢
    have part : m % den ≤ n % den := by omega
    have := Nat.mod_two_eq_zero_or_one (n / den)
    split_ifs <;> omega

theorem roundDiv_bounds (num den : ℕ) : num / den ≤ roundDiv num den .toEven ∧
    roundDiv num den .toEven ≤ num / den + 1 := by
  unfold roundDiv
  dsimp only
  split_ifs <;> omega

end Decimal

namespace Single
open Float.Model Float.Model.UnpackedFloat
open Decimal (roundDiv)

def excess (n : ℕ) : ℕ := n.log2 - 23

/-- The significand of a whole number, before it is known whether it carries. -/
def significand (n : ℕ) : ℕ := roundDiv n (2 ^ excess n) .toEven

/-- The power of two and the significand next to a whole number. -/
def nearest (n : ℕ) : ℕ × ℕ :=
  if significand n = 2 ^ 24 then (excess n + 1, 2 ^ 23) else (excess n, significand n)

theorem significand_le (n : ℕ) : significand n ≤ 2 ^ 24 := by
  have short : n < 2 ^ 24 * 2 ^ excess n := by
    rw [← Nat.pow_add]
    refine Nat.lt_of_lt_of_le Nat.lt_log2_self (Nat.pow_le_pow_right (by decide) ?_)
    unfold excess
    omega
  have whole : n / 2 ^ excess n < 2 ^ 24 := Nat.div_lt_of_lt_mul (by rwa [Nat.mul_comm])
  have := (Decimal.roundDiv_bounds n (2 ^ excess n)).2
  unfold significand
  omega

theorem le_significand {n : ℕ} (long : 0 < excess n) : 2 ^ 23 ≤ significand n := by
  have nonzero : n ≠ 0 := by
    rintro rfl
    simp [excess] at long
  refine Nat.le_trans ?_ (Decimal.roundDiv_bounds n (2 ^ excess n)).1
  rw [Nat.le_div_iff_mul_le (by positivity), ← Nat.pow_add]
  have exact : 23 + excess n = n.log2 := by
    unfold excess at long ⊢
    omega
  rw [exact]
  exact Nat.log2_self_le nonzero

theorem significand_pos {n : ℕ} (pos : 0 < n) : 0 < significand n := by
  rcases Nat.eq_zero_or_pos (excess n) with short | long
  · unfold significand
    rw [short, Nat.pow_zero]
    exact Nat.lt_of_lt_of_le (by simpa using pos) (Decimal.roundDiv_bounds n 1).1
  · exact Nat.lt_of_lt_of_le (by decide) (le_significand long)

theorem excess_mono {m n : ℕ} (h : m ≤ n) : excess m ≤ excess n := by
  have : m.log2 ≤ n.log2 := by
    simpa only [Nat.log2_eq_log_two] using Nat.log_mono_right h
  unfold excess
  omega

theorem nearest_mono {m n : ℕ} (h : m ≤ n) : toLex (nearest m) ≤ toLex (nearest n) := by
  have hm := significand_le m
  have hn := significand_le n
  rw [Prod.Lex.toLex_le_toLex]
  unfold nearest
  rcases Nat.lt_or_eq_of_le (excess_mono h) with lt | same
  · have := le_significand (Nat.zero_lt_of_lt lt)
    split_ifs <;> dsimp only <;> omega
  · have : significand m ≤ significand n := by
      unfold significand
      rw [same]
      exact Decimal.roundDiv_mono h _
    split_ifs <;> dsimp only <;> omega

/-- What is left of a number after some of its last bits: the rest, and where the bits left off stand to a
half of its last place. -/
structure Shifted (m bits : ℕ) (em : ExtendedMantissa) : Prop where
  rest : em.mantissa = m / 2 ^ bits
  half : em.roundBit = true ↔ 2 ^ bits ≤ 2 * (m % 2 ^ bits)
  beyond : em.stickyBit = true ↔ 2 * (m % 2 ^ bits) % 2 ^ bits ≠ 0

theorem Shifted.shiftRightOne {m bits : ℕ} {em : ExtendedMantissa} (h : Shifted m bits em) :
    Shifted m (bits + 1) em.shiftRightOne := by
  have part : m % 2 ^ (bits + 1) = m % 2 ^ bits + 2 ^ bits * (m / 2 ^ bits % 2) := by
    rw [Nat.pow_succ, Nat.mod_mul]
  have below : m % 2 ^ bits < 2 ^ bits := Nat.mod_lt _ (by positivity)
  have twice : 2 ^ (bits + 1) = 2 * 2 ^ bits := by rw [Nat.pow_succ, Nat.mul_comm]
  have parity := Nat.mod_two_eq_zero_or_one (m / 2 ^ bits)
  constructor
  · change em.mantissa / 2 = _
    rw [h.rest, Nat.div_div_eq_div_mul, Nat.pow_succ]
  · change (em.mantissa % 2 != 0) = true ↔ _
    rw [h.rest, part, twice, bne_iff_ne]
    rcases parity with even | odd
    · simp only [even, Nat.mul_zero]
      omega
    · simp only [odd, Nat.mul_one]
      omega
  · change (em.roundBit || em.stickyBit) = true ↔ _
    have fold : 2 * (m % 2 ^ (bits + 1)) % 2 ^ (bits + 1) = 2 * (m % 2 ^ bits) := by
      rw [part, twice, Nat.mul_mod_mul_left, Nat.add_mul_mod_self_left, Nat.mod_mod]
    rw [fold, Bool.or_eq_true, h.half, h.beyond]
    rcases Nat.lt_or_ge (2 * (m % 2 ^ bits)) (2 ^ bits) with less | more
    · rw [Nat.mod_eq_of_lt less]
      omega
    · have := Nat.two_pow_pos bits
      omega

theorem shifted_shiftRight (m bits : ℕ) :
    Shifted m bits (ExtendedMantissa.ofMantissaAndAccuracy m .exact >>> bits) := by
  change Shifted m bits (bits.repeat ExtendedMantissa.shiftRightOne _)
  induction bits with
  | zero => constructor <;> simp [Nat.repeat, ExtendedMantissa.ofMantissaAndAccuracy, Nat.mod_one]
  | succ bits ih => exact ih.shiftRightOne

theorem Shifted.roundedMantissa {m bits : ℕ} {em : ExtendedMantissa} (h : Shifted m bits em) :
    em.roundedMantissa = roundDiv m (2 ^ bits) .toEven := by
  obtain ⟨mantissa, roundBit, stickyBit⟩ := em
  obtain ⟨rfl, half, beyond⟩ := h
  have below : m % 2 ^ bits < 2 ^ bits := Nat.mod_lt _ (by positivity)
  unfold roundDiv
  dsimp only at half beyond ⊢
  cases roundBit with
  | false =>
      have less : 2 * (m % 2 ^ bits) < 2 ^ bits := by simpa using half
      rw [if_pos less]
      cases stickyBit <;> rfl
  | true =>
      have more : 2 ^ bits ≤ 2 * (m % 2 ^ bits) := half.mp rfl
      have above : 2 * (m % 2 ^ bits) % 2 ^ bits = 2 * (m % 2 ^ bits) - 2 ^ bits := by
        rw [Nat.mod_eq_sub_mod more, Nat.mod_eq_of_lt (by omega)]
      rw [if_neg (by omega)]
      cases stickyBit with
      | false =>
          have tie : 2 * (m % 2 ^ bits) % 2 ^ bits = 0 := by simpa using beyond
          rw [if_neg (by omega)]
          rfl
      | true =>
          have strict : 2 * (m % 2 ^ bits) % 2 ^ bits ≠ 0 := beyond.mp rfl
          rw [if_pos (by omega)]
          rfl

theorem targetExponent_eq {m n : ℕ} {place : ℤ} (h : (m.log2 : ℤ) + place = n.log2 - 149) :
    Format.binary32.targetExponent (totalExponent m place) = (excess n : ℤ) - 149 := by
  have least : Format.binary32.minExponent = -149 := by decide
  have bits : Format.binary32.mantissaBits = 24 := rfl
  unfold Format.targetExponent totalExponent excess
  rw [least, bits]
  omega

theorem nearest_pos {n : ℕ} (pos : 0 < n) : 0 < (nearest n).2 := by
  have := significand_pos pos
  unfold nearest
  split
  · exact Nat.two_pow_pos 23
  · exact this

theorem carry_eq {n : ℕ} (pos : 0 < n) :
    let settled := shiftToTargetExponent .binary32 (significand n) ((excess n : ℤ) - 149) .exact
    settled.1.mantissa = (nearest n).2 ∧ settled.2 = ((nearest n).1 : ℤ) - 149 := by
  have nonzero := (significand_pos pos).ne'
  have short := significand_le n
  have whole := Decimal.BinaryFormat.log2_mul_two_pow nonzero (excess n)
  have target : Format.binary32.targetExponent
      (totalExponent (significand n) ((excess n : ℤ) - 149)) =
        (excess (significand n * 2 ^ excess n) : ℤ) - 149 := targetExponent_eq (by omega)
  simp only [shiftToTargetExponent, shiftToExponent, target]
  rw [(shifted_shiftRight _ _).rest]
  unfold nearest
  split
  · next full =>
      have one : ((excess (significand n * 2 ^ excess n) : ℤ) - 149 - (excess n - 149)).toNat = 1 := by
        rw [full, Nat.log2_two_pow] at whole
        rw [full, excess, whole]
        omega
      rw [one, full]
      exact ⟨rfl, by omega⟩
  · next room =>
      have log : (significand n).log2 < 24 := (Nat.log2_lt nonzero).mpr (by omega)
      have none : ((excess (significand n * 2 ^ excess n) : ℤ) - 149 - (excess n - 149)).toNat = 0 := by
        rw [excess.eq_1 (significand n * 2 ^ excess n), whole]
        omega
      rw [none]
      simp

theorem roundWithAccuracy_eq (s : Sign) {m bits : ℕ} (pos : 0 < m)
    (few : bits ≤ excess (m * 2 ^ bits)) :
    roundWithAccuracy .binary32 s m (bits - 149) .exact =
      .finite s (nearest (m * 2 ^ bits)).2 ((nearest (m * 2 ^ bits)).1 - 149)
        (nearest_pos (Nat.mul_pos pos (Nat.two_pow_pos bits))) := by
  have whole := Decimal.BinaryFormat.log2_mul_two_pow pos.ne' bits
  have positive := Nat.mul_pos pos (Nat.two_pow_pos bits)
  have target : Format.binary32.targetExponent (totalExponent m ((bits : ℤ) - 149)) =
      (excess (m * 2 ^ bits) : ℤ) - 149 := targetExponent_eq (by omega)
  have shift : ((excess (m * 2 ^ bits) : ℤ) - 149 - (bits - 149)).toNat =
      excess (m * 2 ^ bits) - bits := by omega
  have rounded : roundDiv m (2 ^ (excess (m * 2 ^ bits) - bits)) .toEven =
      significand (m * 2 ^ bits) := by
    unfold significand
    rw [← Decimal.roundDiv_mul_mul m (Nat.two_pow_pos bits), ← Nat.pow_add, Nat.sub_add_cancel few]
  have place : (bits : ℤ) - 149 + (excess (m * 2 ^ bits) - bits : ℕ) =
      (excess (m * 2 ^ bits) : ℤ) - 149 := by omega
  obtain ⟨mantissa, exponent⟩ := carry_eq positive
  unfold roundWithAccuracy
  rw [shiftToTargetExponent, target]
  simp only [shiftToExponent, shift, (shifted_shiftRight m _).roundedMantissa, rounded, place,
    mantissa, exponent, (nearest_pos positive).ne', ↓reduceDIte]

/-- Rounding in the model goes to the nearest number in single precision, if that has the exponent. -/
theorem round_eq (s : Sign) {m : ℕ} (pos : 0 < m) (bits : ℕ) :
    UnpackedFloat.round .binary32 s m (bits - 149) =
      .finite s (nearest (m * 2 ^ bits)).2 ((nearest (m * 2 ^ bits)).1 - 149)
        (nearest_pos (Nat.mul_pos pos (Nat.two_pow_pos bits))) := by
  have whole := Decimal.BinaryFormat.log2_mul_two_pow pos.ne' bits
  have target : Format.binary32.targetExponent (totalExponent m ((bits : ℤ) - 149)) =
      (excess (m * 2 ^ bits) : ℤ) - 149 := targetExponent_eq (by omega)
  have shift : ((bits : ℤ) - 149 - ((excess (m * 2 ^ bits) : ℤ) - 149)).toNat =
      bits - excess (m * 2 ^ bits) := by omega
  have place : (bits : ℤ) - 149 - (bits - excess (m * 2 ^ bits) : ℕ) =
      (min bits (excess (m * 2 ^ bits)) : ℕ) - 149 := by omega
  have same : m * 2 ^ (bits - excess (m * 2 ^ bits)) * 2 ^ min bits (excess (m * 2 ^ bits)) =
      m * 2 ^ bits := by
    rw [Nat.mul_assoc, ← Nat.pow_add]
    congr 2
    omega
  have few : min bits (excess (m * 2 ^ bits)) ≤ excess
      (m * 2 ^ (bits - excess (m * 2 ^ bits)) * 2 ^ min bits (excess (m * 2 ^ bits))) := by
    rw [same]
    exact Nat.min_le_right ..
  have rounded := roundWithAccuracy_eq s
    (Nat.mul_pos pos (Nat.two_pow_pos (bits - excess (m * 2 ^ bits)))) few
  simp only [same] at rounded
  simp only [UnpackedFloat.round, target, decreaseExponent, shift, place, Nat.shiftLeft_eq, rounded]

/-- The form in which a float is kept: 24 bits in full, or fewer at the least place. -/
structure Kept (m : ℕ) (e : ℤ) : Prop where
  short : m < 2 ^ 24
  least : -149 ≤ e
  full : 2 ^ 23 ≤ m ∨ e = -149

theorem kept_nearest (n : ℕ) : Kept (nearest n).2 ((nearest n).1 - 149) := by
  have short := significand_le n
  unfold nearest
  split
  · exact ⟨Nat.pow_lt_pow_right (by decide) (by decide), by omega, .inl (Nat.le_refl _)⟩
  · next room =>
      refine ⟨by omega, by omega, ?_⟩
      rcases Nat.eq_zero_or_pos (excess n) with none | long
      · exact .inr (by simp [none])
      · exact .inl (le_significand long)

theorem nearest_of_kept {m bits : ℕ} (pos : 0 < m) (h : Kept m (bits - 149)) :
    nearest (m * 2 ^ bits) = (bits, m) := by
  have whole := Decimal.BinaryFormat.log2_mul_two_pow pos.ne' bits
  have log : m.log2 < 24 := (Nat.log2_lt pos.ne').mpr h.short
  have exact : excess (m * 2 ^ bits) = bits := by
    unfold excess
    rw [whole]
    rcases h.full with full | least
    · have : 23 ≤ m.log2 := (Nat.le_log2 pos.ne').mpr full
      omega
    · omega
  have rounded : significand (m * 2 ^ bits) = m := by
    unfold significand
    rw [exact]
    exact Decimal.roundDiv_mul m (Nat.two_pow_pos bits) .toEven
  unfold nearest
  rw [rounded, exact, if_neg h.short.ne]

theorem nearest_exact {n g : ℕ} (grid : 2 ^ g ∣ n) (short : n < 2 ^ (24 + g)) :
    (nearest n).2 * 2 ^ (nearest n).1 = n ∧ (nearest n).1 ≤ g := by
  have few : excess n ≤ g := by
    rcases Nat.eq_zero_or_pos n with rfl | pos
    · exact Nat.zero_le g
    · have : n.log2 < 24 + g := (Nat.log2_lt pos.ne').mpr short
      unfold excess
      omega
  have whole : n / 2 ^ excess n * 2 ^ excess n = n :=
    Nat.div_mul_cancel ((Nat.pow_dvd_pow 2 few).trans grid)
  have exact : significand n * 2 ^ excess n = n := by
    have rounded := Decimal.roundDiv_mul (n / 2 ^ excess n) (Nat.two_pow_pos (excess n)) .toEven
    rw [whole] at rounded
    rw [significand, rounded, whole]
  unfold nearest
  split
  · next full =>
      rw [full] at exact
      constructor
      · change 2 ^ 23 * (2 ^ excess n * 2) = n
        omega
      · refine Nat.lt_of_le_of_ne few fun same => ?_
        rw [same, ← Nat.pow_add] at exact
        exact short.ne exact.symm
  · exact ⟨exact, few⟩

theorem toNat_one_append {w : ℕ} (v : BitVec w) : (1#1 ++ v).toNat = 2 ^ w + v.toNat := by
  rw [BitVec.toNat_append, ← Nat.shiftLeft_add_eq_or_of_lt v.isLt]
  simp [Nat.shiftLeft_eq]

theorem ofBitVec_unpackSign (s : Sign) (e : BitVec 8) (m : BitVec 23) :
    Sign.ofBitVec (unpackSign (packComponents .binary32 s e m)) = s := by
  have sign : unpackSign (packComponents .binary32 s e m) = s.toBitVec := by
    ext i hi
    obtain rfl : i = 0 := by omega
    have last : (s.toBitVec ++ e ++ m).getLsbD 31 = s.toBitVec[0] := by
      rw [BitVec.getLsbD_append, BitVec.getLsbD_append]
      simp
    simp only [unpackSign, packComponents, BitVec.extractLsb, BitVec.getElem_cast,
      BitVec.getElem_extractLsb']
    exact last
  rw [sign]
  cases s <;> rfl

theorem kept_unpack {b : BitVec Format.binary32.numBits} {s : Sign} {m : ℕ} {e : ℤ} {pos : 0 < m}
    (h : UnpackedFloat.unpack .binary32 b = .finite s m e pos) : Kept m e ∧ e < 105 := by
  have bias : Format.binary32.exponentBias = 127 := rfl
  have field : (unpackExponent b).toNat < 2 ^ 8 := (unpackExponent b).isLt
  have bits : (unpackMantissa b).toNat < 2 ^ 23 := (unpackMantissa b).isLt
  have leading : (1#1 ++ unpackMantissa b).toNat = 2 ^ 23 + (unpackMantissa b).toNat :=
    toNat_one_append _
  have special : unpackExponent b = -1#8 ↔ (unpackExponent b).toNat = 255 := by
    rw [← BitVec.toNat_inj]
    rfl
  have bottom : unpackExponent b = 0#8 ↔ (unpackExponent b).toNat = 0 := by
    rw [← BitVec.toNat_inj]
    rfl
  unfold UnpackedFloat.unpack at h
  dsimp only at h
  rw [bias] at h
  split_ifs at h with ones mark low zeros <;> rw [special] at ones <;> rw [bottom] at low
  · cases h
    exact ⟨⟨by omega, by omega, .inr (by omega)⟩, by omega⟩
  · cases h
    exact ⟨⟨by omega, by omega, .inl (by omega)⟩, by omega⟩

theorem unpack_packedInfinity (s : Sign) :
    UnpackedFloat.unpack .binary32 (packedInfinity .binary32 s) = .infinity s := by
  cases s <;> rfl

/-- A number that is kept comes back from its pattern, unless it lies beyond the finite ones. -/
theorem unpack_pack (s : Sign) {m : ℕ} {e : ℤ} (pos : 0 < m) (h : Kept m e) :
    UnpackedFloat.unpack .binary32 (UnpackedFloat.pack .binary32 (.finite s m e pos)) =
      if 105 ≤ e then .infinity s else .finite s m e pos := by
  have short := h.short
  have least := h.least
  have log : m.log2 < 24 := (Nat.log2_lt pos.ne').mpr short
  have field : (e + Format.binary32.exponentBias + (23 : ℕ)).toNat = (e + 150).toNat := by
    change (e + (127 : ℕ) + (23 : ℕ)).toNat = _
    omega
  have width : Format.binary32.mantissaBits = 24 := rfl
  rw [UnpackedFloat.pack]
  dsimp only
  rw [field, width]
  by_cases beyond : 105 ≤ e
  · rw [if_pos beyond, if_pos (by omega)]
    exact unpack_packedInfinity s
  rw [if_neg beyond, if_neg (by omega)]
  by_cases full : m.log2 + 1 = 24
  · have top : 2 ^ 23 ≤ m := (Nat.le_log2 pos.ne').mp (by omega)
    have exponent : (BitVec.ofNat 8 (e + 150).toNat).toNat = (e + 150).toNat :=
      Nat.mod_eq_of_lt (by omega)
    have ones : BitVec.ofNat 8 (e + 150).toNat ≠ -1#8 := by
      intro same
      have : (e + 150).toNat = 255 := exponent.symm.trans (congrArg BitVec.toNat same)
      omega
    have low : BitVec.ofNat 8 (e + 150).toNat ≠ 0#8 := by
      intro same
      have : (e + 150).toNat = 0 := exponent.symm.trans (congrArg BitVec.toNat same)
      omega
    have leading : (1#1 ++ BitVec.ofNat 23 m).toNat = m := by
      rw [toNat_one_append, BitVec.toNat_ofNat, Nat.mod_eq_sub_mod top, Nat.mod_eq_of_lt (by omega)]
      omega
    have place : ((e + 150).toNat : ℤ) - (Format.binary32.exponentBias + (23 : ℕ)) = e := by
      change _ - ((127 : ℕ) + (23 : ℕ) : ℤ) = e
      omega
    rw [if_pos full]
    unfold UnpackedFloat.unpack
    simp only [unpackMantissa_packComponents, unpackExponent_packComponents, ofBitVec_unpackSign,
      ones, low, if_false, exponent, leading, place]
  · have bottom : m < 2 ^ 23 := (Nat.log2_lt pos.ne').mp (by omega)
    have significand : (BitVec.ofNat 23 m).toNat = m := Nat.mod_eq_of_lt bottom
    have some : BitVec.ofNat 23 m ≠ 0#23 := by
      intro same
      have : m = 0 := significand.symm.trans (congrArg BitVec.toNat same)
      omega
    have place : ((0 : ℕ) : ℤ) - (Format.binary32.exponentBias + (23 : ℕ)) + 1 = e := by
      change ((0 : ℕ) : ℤ) - ((127 : ℕ) + (23 : ℕ) : ℤ) + 1 = e
      have := h.full
      omega
    rw [if_neg full]
    unfold UnpackedFloat.unpack
    simp only [unpackMantissa_packComponents, unpackExponent_packComponents, ofBitVec_unpackSign,
      (by decide : ¬ (0#8 = -1#8)), some, if_false, if_true, dite_false, BitVec.toNat_zero,
      significand, place]

end Single

end Flowchart
