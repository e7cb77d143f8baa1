import Mathlib
import Flowchart.Decimal.Binary
/-! Patterns that stand for a finite number. A format writes each of its numbers in one way, with the
longest significand that its least exponent allows, so a number that a format has is the nearest
pattern to itself, however its ratio is given. -/
namespace Flowchart.Decimal

namespace BinaryFormat
variable {f : BinaryFormat} {negative : Bool} {significand m : Nat} {exponent x : Int}

structure Canonical (f : BinaryFormat) (significand : Nat) (exponent : Int) : Prop where
  short : significand < 2 * f.lead
  least : f.least ≤ exponent
  full : f.lead ≤ significand ∨ exponent = f.least
  reach : (exponent - f.least).toNat * f.lead + significand < f.infinity

def pattern (f : BinaryFormat) (negative : Bool) (significand : Nat) (exponent : Int) : Nat :=
  (if negative then f.signBit else 0) + ((exponent - f.least).toNat * f.lead + significand)

theorem lead_eq (f : BinaryFormat) : f.lead = 2 ^ (f.precision - 1) := by
  rw [lead, Nat.shiftLeft_eq, Nat.one_mul]

theorem lead_pos (f : BinaryFormat) : 0 < f.lead := by
  rw [lead_eq]
  positivity

theorem infinity_eq (f : BinaryFormat) : f.infinity = (2 ^ f.exponentBits - 1) * f.lead := by
  rw [infinity, Nat.shiftLeft_eq, Nat.one_mul]

theorem signBit_eq (f : BinaryFormat) : f.signBit = 2 ^ f.exponentBits * f.lead := by
  rw [signBit, Nat.shiftLeft_eq, Nat.one_mul, lead_eq, Nat.pow_add, Nat.mul_comm]

theorem infinity_add_lead (f : BinaryFormat) : f.infinity + f.lead = f.signBit := by
  have one : 1 ≤ 2 ^ f.exponentBits := Nat.one_le_two_pow
  rw [infinity_eq, signBit_eq]
  obtain ⟨n, h⟩ := Nat.exists_eq_add_of_le' one
  rw [h, Nat.add_sub_cancel, Nat.succ_mul]

theorem infinity_lt_signBit (f : BinaryFormat) : f.infinity < f.signBit := by
  have := f.infinity_add_lead
  have := f.lead_pos
  omega

theorem pattern_lt (can : f.Canonical significand exponent) :
    f.pattern negative significand exponent < 2 * f.signBit := by
  have := can.reach
  have := f.infinity_lt_signBit
  unfold pattern
  split <;> omega

theorem pattern_sign (can : f.Canonical significand exponent) :
    f.pattern negative significand exponent / f.signBit % 2 = negative.toNat := by
  have reach := Nat.lt_trans can.reach f.infinity_lt_signBit
  have pos : 0 < f.signBit := by omega
  cases negative
  · simp [pattern, Nat.div_eq_of_lt reach]
  · simp [pattern, Nat.add_div_left _ pos, Nat.div_eq_of_lt reach]

theorem pattern_unsigned (can : f.Canonical significand exponent) :
    f.pattern negative significand exponent % f.signBit
      = (exponent - f.least).toNat * f.lead + significand := by
  have reach := Nat.lt_trans can.reach f.infinity_lt_signBit
  cases negative
  · simp [pattern, Nat.mod_eq_of_lt reach]
  · simp [pattern, Nat.mod_eq_of_lt reach]

/-- What is written in the form of a format is read as it was. -/
theorem read_pattern (can : f.Canonical significand exponent) :
    f.read (f.pattern negative significand exponent) = .finite negative significand exponent := by
  have pos := f.lead_pos
  have reach := can.reach
  have low := can.least
  have short := can.short
  unfold read
  simp only [pattern_sign can, pattern_unsigned can]
  rw [if_neg (by omega), if_neg (by omega)]
  have sign : (negative.toNat == 1) = negative := by cases negative <;> rfl
  rw [sign]
  by_cases full : f.lead ≤ significand
  · have field : ((exponent - f.least).toNat * f.lead + significand) / f.lead
        = (exponent - f.least).toNat + 1 := by
      rw [Nat.mul_comm, Nat.mul_add_div pos,
        Nat.div_eq_of_lt_le (k := 1) (by omega) (by omega)]
    have rest : ((exponent - f.least).toNat * f.lead + significand) % f.lead
        = significand - f.lead := by
      rw [Nat.mul_comm, Nat.mul_add_mod, Nat.mod_eq_sub_mod full, Nat.mod_eq_of_lt (by omega)]
    rw [field, if_neg (by omega), rest]
    congr 1 <;> omega
  · have bottom : exponent = f.least := can.full.resolve_left full
    subst bottom
    have field : (((f.least - f.least).toNat * f.lead + significand) / f.lead) = 0 := by
      simp [Nat.div_eq_of_lt (Nat.lt_of_not_le full)]
    rw [if_pos field]
    simp

theorem canonical_of_read {bits : Nat} (range : bits < 2 * f.signBit)
    (h : f.read bits = .finite negative significand exponent) :
    f.Canonical significand exponent ∧ bits = f.pattern negative significand exponent := by
  have pos := f.lead_pos
  have signPos : 0 < f.signBit := Nat.lt_of_le_of_lt (Nat.zero_le _) f.infinity_lt_signBit
  have signs : bits / f.signBit < 2 := (Nat.div_lt_iff_lt_mul signPos).2 range
  have whole : bits = (if (bits / f.signBit % 2 == 1) then f.signBit else 0)
      + bits % f.signBit := by
    have split := Nat.div_add_mod bits f.signBit
    rcases Nat.le_one_iff_eq_zero_or_eq_one.1 (Nat.lt_succ_iff.1 signs) with sign | sign <;>
      simp [sign] at split ⊢ <;> omega
  unfold read at h
  dsimp only at h
  generalize bits % f.signBit = unsigned at h whole
  have parts := Nat.div_add_mod' unsigned f.lead
  have part := Nat.mod_lt unsigned pos
  split_ifs at h with undefined infinite bottom
  · obtain ⟨rfl, rfl, rfl⟩ := Pattern.finite.inj h
    have short : unsigned < f.lead := by
      simp only [bottom, Nat.zero_mul, Nat.zero_add] at parts
      omega
    refine ⟨⟨by omega, le_refl _, .inr rfl, ?_⟩, ?_⟩
    · simp only [Int.sub_self, Int.toNat_zero, Nat.zero_mul, Nat.zero_add]
      omega
    · simpa [pattern] using whole
  · obtain ⟨rfl, rfl, rfl⟩ := Pattern.finite.inj h
    obtain ⟨n, field⟩ := Nat.exists_eq_succ_of_ne_zero bottom
    have steps : (f.least + (unsigned / f.lead : Nat) - 1 - f.least).toNat = n := by omega
    have value : n * f.lead + (unsigned % f.lead + f.lead) = unsigned := by
      rw [field, Nat.succ_mul] at parts
      omega
    refine ⟨⟨by omega, by omega, .inl (by omega), ?_⟩, ?_⟩
    · rw [steps, value]
      omega
    · rw [pattern, steps, value]
      exact whole

/-- Two pairs of a significand and an exponent that stand for one number. -/
def SameValue (m : Nat) (x : Int) (significand : Nat) (exponent : Int) : Prop :=
  m * 2 ^ (x - exponent).toNat = significand * 2 ^ (exponent - x).toNat

theorem SameValue.symm (same : SameValue m x significand exponent) :
    SameValue significand exponent m x :=
  Eq.symm same

theorem log2_mul_two_pow {n : Nat} (pos : n ≠ 0) (k : Nat) : (n * 2 ^ k).log2 = n.log2 + k := by
  induction k with
  | zero => simp
  | succ k ih =>
    rw [Nat.pow_succ, ← Nat.mul_assoc, Nat.mul_comm _ 2, Nat.log2_two_mul (by positivity), ih,
      Nat.add_assoc]

theorem SameValue.zero_iff (same : SameValue m x significand exponent) :
    m = 0 ↔ significand = 0 := by
  have left : 2 ^ (x - exponent).toNat ≠ 0 := by positivity
  have right : 2 ^ (exponent - x).toNat ≠ 0 := by positivity
  constructor
  · rintro rfl
    exact (Nat.mul_eq_zero.1 ((Nat.zero_mul _).symm.trans same).symm).resolve_right right
  · rintro rfl
    exact (Nat.mul_eq_zero.1 (same.trans (Nat.zero_mul _))).resolve_right left

theorem SameValue.log2 (same : SameValue m x significand exponent) (pos : significand ≠ 0) :
    (m.log2 : Int) + x = significand.log2 + exponent := by
  have logs := congrArg Nat.log2 same
  rw [log2_mul_two_pow (mt same.zero_iff.1 pos), log2_mul_two_pow pos] at logs
  omega

theorem exponentOf_ratio (f : BinaryFormat) (pos : m ≠ 0) (x : Int) :
    f.exponentOf (m <<< x.toNat) (1 <<< (-x).toNat)
      = max f.least (m.log2 + x + 1 - f.precision) := by
  have num : ((m <<< x.toNat).log2 : Int) = m.log2 + x.toNat := by
    rw [Nat.shiftLeft_eq, log2_mul_two_pow pos, Nat.cast_add]
  have den : ((1 <<< (-x).toNat).log2 : Int) = (-x).toNat := by
    rw [Nat.shiftLeft_eq, Nat.one_mul, Nat.log2_two_pow]
  unfold exponentOf
  dsimp only
  rw [num, den]
  set rough : Int := m.log2 + x.toNat - (-x).toNat - f.precision with roughDef
  have reaches : ¬ (m <<< x.toNat) <<< (-rough).toNat
      < (1 <<< (-x).toNat) <<< (f.precision + rough.toNat) := by
    rw [Nat.not_lt]
    simp only [Nat.shiftLeft_eq, Nat.one_mul]
    calc 2 ^ (-x).toNat * 2 ^ (f.precision + rough.toNat)
        = 2 ^ m.log2 * 2 ^ x.toNat * 2 ^ (-rough).toNat := by
          simp only [← Nat.pow_add]
          congr 1
          omega
      _ ≤ m * 2 ^ x.toNat * 2 ^ (-rough).toNat :=
          Nat.mul_le_mul_right _ (Nat.mul_le_mul_right _ (Nat.log2_self_le pos))
  rw [if_neg reaches]
  congr 1
  omega

theorem Canonical.exponentOf (can : f.Canonical significand exponent) (wide : 0 < f.precision)
    (same : SameValue m x significand exponent) (pos : significand ≠ 0) :
    f.exponentOf (m <<< x.toNat) (1 <<< (-x).toNat) = exponent := by
  have low := can.least
  have short := can.short
  rw [exponentOf_ratio f (mt same.zero_iff.1 pos), same.log2 pos]
  rw [lead_eq, ← Nat.pow_succ'] at short
  have top := (Nat.log2_lt pos).2 short
  rcases can.full with full | rfl
  · rw [lead_eq] at full
    have bottom := (Nat.le_log2 pos).2 full
    omega
  · omega

/-- A number of the format is the pattern nearest to itself. -/
theorem nearest_canonical (can : f.Canonical significand exponent) (wide : 0 < f.precision)
    (same : SameValue m x significand exponent) :
    f.nearest (m <<< x.toNat) (1 <<< (-x).toNat)
      = (exponent - f.least).toNat * f.lead + significand := by
  by_cases zero : significand = 0
  · have bottom : exponent = f.least :=
      can.full.resolve_left fun full => absurd f.lead_pos (by omega)
    simp [nearest, same.zero_iff.2 zero, zero, bottom]
  · have exact : (m <<< x.toNat) <<< (-exponent).toNat
        = significand * ((1 <<< (-x).toNat) <<< exponent.toNat) := by
      simp only [Nat.shiftLeft_eq, Nat.one_mul]
      rcases Int.le_total exponent x with le | le
      · have value : m * 2 ^ (x - exponent).toNat = significand := by
          simpa [SameValue, Int.toNat_of_nonpos (Int.sub_nonpos_of_le le)] using same
        rw [← value]
        simp only [Nat.mul_assoc, ← Nat.pow_add]
        congr 2
        omega
      · have value : m = significand * 2 ^ (exponent - x).toNat := by
          simpa [SameValue, Int.toNat_of_nonpos (Int.sub_nonpos_of_le le)] using same
        rw [value]
        simp only [Nat.mul_assoc, ← Nat.pow_add]
        congr 2
        omega
    have reach := can.reach
    unfold nearest
    rw [if_neg (by simpa [Nat.shiftLeft_eq] using mt same.zero_iff.1 zero)]
    dsimp only
    rw [can.exponentOf wide same zero, exact, roundDiv_mul _ (by simp [Nat.shiftLeft_eq])]
    exact Nat.min_eq_right (Nat.le_of_lt reach)

theorem ofPattern_finite (can : f.Canonical significand exponent) (wide : 0 < f.precision)
    (same : SameValue m x significand exponent) :
    f.ofPattern (.finite negative m x) = f.pattern negative significand exponent := by
  rw [ofPattern, nearest_canonical can wide same, pattern]

theorem read_finite_iff {bits : Nat} :
    (∃ negative significand exponent, f.read bits = .finite negative significand exponent)
      ↔ bits % f.signBit < f.infinity := by
  unfold read
  dsimp only
  split_ifs with undefined infinite bottom
  · exact ⟨fun ⟨_, _, _, h⟩ => (nomatch h), fun h => absurd undefined (by omega)⟩
  · exact ⟨fun ⟨_, _, _, h⟩ => (nomatch h), fun h => absurd infinite (by omega)⟩
  · exact ⟨fun _ => by omega, fun _ => ⟨_, _, _, rfl⟩⟩
  · exact ⟨fun _ => by omega, fun _ => ⟨_, _, _, rfl⟩⟩

end BinaryFormat

open Float.Model Float.Model.UnpackedFloat

/-- The format of a float. -/
def BinaryFormat.ofModel (spec : Format) : BinaryFormat :=
  ⟨spec.mantissaBitsWithoutImplicit + 1, spec.exponentBits⟩

theorem BinaryFormat.ofModel_lead (spec : Format) :
    (ofModel spec).lead = 2 ^ spec.mantissaBitsWithoutImplicit := lead_eq _

theorem exponent_ones_iff (spec : Format) (b : BitVec spec.numBits) :
    unpackExponent b = BitVec.allOnes spec.exponentBits
      ↔ (BinaryFormat.ofModel spec).infinity
          ≤ b.toNat % (BinaryFormat.ofModel spec).signBit := by
  have field : (unpackExponent b).toNat
      = b.toNat % (BinaryFormat.ofModel spec).signBit / (BinaryFormat.ofModel spec).lead := by
    rw [unpackExponent_def, BitVec.extractLsb'_toNat, BinaryFormat.signBit_eq, Nat.mul_comm,
      Nat.mod_mul_right_div_self, BinaryFormat.ofModel_lead, Nat.shiftRight_eq_div_pow]
    rfl
  have range := (unpackExponent b).isLt
  rw [BinaryFormat.infinity_eq, ← Nat.le_div_iff_mul_le (BinaryFormat.lead_pos _), ← field,
    ← BitVec.toNat_inj, BitVec.toNat_allOnes]
  change _ ↔ 2 ^ spec.exponentBits - 1 ≤ _
  omega

theorem unpack_isFinite_iff (spec : Format) (b : BitVec spec.numBits) :
    (unpack spec b).isFinite = true
      ↔ b.toNat % (BinaryFormat.ofModel spec).signBit
          < (BinaryFormat.ofModel spec).infinity := by
  rw [← Nat.not_le, ← exponent_ones_iff]
  unfold UnpackedFloat.unpack
  rw [BitVec.neg_one_eq_allOnes]
  dsimp only
  split_ifs with ones zero bottom zero
  all_goals simp [UnpackedFloat.isFinite, ones]

theorem pack_unpack_of_finite {spec : Format} {b : BitVec spec.numBits}
    (wide : 2 ≤ spec.exponentBits)
    (finite : b.toNat % (BinaryFormat.ofModel spec).signBit
      < (BinaryFormat.ofModel spec).infinity) :
    pack spec (unpack spec b) = b := by
  rw [pack_unpack b wide, if_neg]
  rw [isNaNBits, decide_eq_true_iff, BitVec.neg_one_eq_allOnes, exponent_ones_iff]
  omega

theorem isFinite_iff_patternSingle {x : Float32} :
    x.isFinite = true ↔ ∃ negative significand exponent,
      patternSingle x = .finite negative significand exponent :=
  (unpack_isFinite_iff Format.binary32 x.toBits.toBitVec).trans
    BinaryFormat.read_finite_iff.symm

theorem toBits_ofBits {bits : UInt64}
    (finite : bits.toNat % BinaryFormat.double.signBit < BinaryFormat.double.infinity) :
    (Float.ofBits bits).toBits = bits := by
  have packed : pack Format.binary64 (unpack Format.binary64 bits.toBitVec) = bits.toBitVec :=
    pack_unpack_of_finite (by decide) finite
  exact UInt64.toBitVec_inj.1 packed

theorem canonical_double {significand : Nat} {exponent : Int}
    (can : BinaryFormat.single.Canonical significand exponent) :
    ∃ (m : Nat) (x : Int), BinaryFormat.double.Canonical m x ∧
      BinaryFormat.SameValue significand exponent m x := by
  have short : significand < 2 * 2 ^ 23 := can.short
  have low : -149 ≤ exponent := can.least
  have reach : (exponent + 149).toNat * 2 ^ 23 + significand < 255 * 2 ^ 23 := can.reach
  by_cases zero : significand = 0
  · refine ⟨0, -1074, ⟨by decide, le_refl _, .inr rfl, by decide⟩, ?_⟩
    rw [BinaryFormat.SameValue, zero, Nat.zero_mul, Nat.zero_mul]
  · -- The significand is shifted until its leading bit is where the wider format has it.
    have top : significand.log2 < 24 := (Nat.log2_lt zero).2 short
    obtain ⟨k, shift⟩ : ∃ k, significand.log2 + k = 52 := ⟨52 - significand.log2, by omega⟩
    have full : 2 ^ 52 ≤ significand * 2 ^ k := by
      rw [← shift, Nat.pow_add]
      exact Nat.mul_le_mul_right _ (Nat.log2_self_le zero)
    have fits : significand * 2 ^ k < 2 * 2 ^ 52 := by
      rw [← Nat.pow_succ', ← shift, Nat.succ_eq_add_one, Nat.add_right_comm, Nat.pow_add]
      exact Nat.mul_lt_mul_of_pos_right Nat.lt_log2_self (by positivity)
    refine ⟨significand * 2 ^ k, exponent - k, ⟨fits, ?_, .inl full, ?_⟩, ?_⟩
    · change (-1074 : Int) ≤ _
      omega
    · have steps : (exponent - k + 1074).toNat ≤ 1300 := by omega
      calc (exponent - k + 1074).toNat * 2 ^ 52 + significand * 2 ^ k
          < 1300 * 2 ^ 52 + 2 * 2 ^ 52 :=
            Nat.add_lt_add_of_le_of_lt (Nat.mul_le_mul_right _ steps) fits
        _ ≤ 2047 * 2 ^ 52 := by decide
    · rw [BinaryFormat.SameValue, Nat.mul_assoc, ← Nat.pow_add]
      congr 2
      omega

theorem patternDouble_widen {x : Float32} {negative : Bool} {significand : Nat} {exponent : Int}
    (h : patternSingle x = .finite negative significand exponent) :
    ∃ (m : Nat) (y : Int), patternDouble (widen x) = .finite negative m y ∧
      BinaryFormat.SameValue significand exponent m y := by
  have range : x.toBits.toNat < 2 * BinaryFormat.single.signBit := x.toBits.toNat_lt
  obtain ⟨can, -⟩ := BinaryFormat.canonical_of_read range h
  obtain ⟨m, y, wide, same⟩ := canonical_double can
  have bits : BinaryFormat.double.ofPattern (patternSingle x)
      = BinaryFormat.double.pattern negative m y := by
    rw [h]
    exact BinaryFormat.ofPattern_finite wide (by decide) same
  have word : (UInt64.ofNat (BinaryFormat.double.pattern negative m y)).toNat
      = BinaryFormat.double.pattern negative m y :=
    UInt64.toNat_ofNat_of_lt (BinaryFormat.pattern_lt wide)
  have read : BinaryFormat.double.read (BinaryFormat.double.pattern negative m y)
      = .finite negative m y := BinaryFormat.read_pattern wide
  refine ⟨m, y, ?_, same⟩
  rw [patternDouble, widen, doubleOfPattern, bits, toBits_ofBits, word, read]
  rw [word]
  exact BinaryFormat.read_finite_iff.1 ⟨_, _, _, read⟩

theorem narrow_widen {x : Float32} (finite : x.isFinite = true) : narrow (widen x) = x := by
  obtain ⟨negative, significand, exponent, h⟩ := isFinite_iff_patternSingle.1 finite
  have range : x.toBits.toNat < 2 * BinaryFormat.single.signBit := x.toBits.toNat_lt
  obtain ⟨can, bits⟩ := BinaryFormat.canonical_of_read range h
  obtain ⟨m, y, wide, same⟩ := patternDouble_widen h
  rw [narrow, wide, singleOfPattern, BinaryFormat.ofPattern_finite can (by decide) same.symm,
    ← bits, UInt32.ofNat_toNat, Float32.ofBits_toBits]

end Flowchart.Decimal
