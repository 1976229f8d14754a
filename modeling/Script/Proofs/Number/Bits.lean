import Mathlib
import Script.Proofs.Number.Rounding

/-!
Numbers as bits. A finite number is made up of its sign and its magnitude, which is on the grid;
negation changes the sign and nothing else.
-/

namespace Script.Number

open Float.Model Float.Model.UnpackedFloat

section Fields

theorem exponent_eq (b : BitVec 64) :
    (@unpackExponent Format.binary64 b).toNat = b.toNat / 2 ^ 52 % 2 ^ 11 := by
  rw [unpackExponent_def, BitVec.extractLsb'_toNat, Nat.shiftRight_eq_div_pow]

theorem mantissa_eq (b : BitVec 64) :
    (@unpackMantissa Format.binary64 b).toNat = b.toNat % 2 ^ 52 := by
  rw [unpackMantissa_def, BitVec.extractLsb'_toNat]
  rfl

theorem sign_eq (b : BitVec 64) :
    (@unpackSign Format.binary64 b).toNat = b.toNat / 2 ^ 63 := by
  have within := b.isLt
  rw [unpackSign_def, BitVec.extractLsb'_toNat, Nat.shiftRight_eq_div_pow]
  show b.toNat / 2 ^ 63 % 2 ^ 1 = _
  omega

def sign (negative : Bool) : Sign := if negative then .negative else .positive

theorem ofBitVec_sign (b : BitVec 64) :
    Sign.ofBitVec (@unpackSign Format.binary64 b) = sign (decide (2 ^ 63 ≤ b.toNat)) := by
  have known := sign_eq b
  have within := b.isLt
  have zero : @unpackSign Format.binary64 b = 0#1 ↔ ¬ 2 ^ 63 ≤ b.toNat := by
    rw [← BitVec.toNat_inj, known]
    show _ = 0 ↔ _
    omega
  unfold Sign.ofBitVec sign
  by_cases high : 2 ^ 63 ≤ b.toNat
  · rw [if_neg fun same => zero.mp same high, decide_eq_true high]
    rfl
  · rw [if_pos (zero.mpr high), decide_eq_false high]
    rfl

/-- Packed again, the bits may differ only in which of those that are no number they are. -/
theorem unpack_pack_unpack (b : BitVec 64) :
    unpack .binary64 (UnpackedFloat.pack .binary64 (unpack .binary64 b)) = unpack .binary64 b := by
  rw [pack_unpack]
  split
  · next noNumber =>
      obtain ⟨exponent, mantissa⟩ := of_decide_eq_true noNumber
      rw [unpack_packedNaN]
      unfold UnpackedFloat.unpack
      simp only [exponent, mantissa, if_pos]
      rfl
  · rfl

theorem unpack_neg {b b' : BitVec 64} (low : b.toNat < 2 ^ 63)
    (flipped : b'.toNat = b.toNat + 2 ^ 63) :
    unpack .binary64 b' = (unpack .binary64 b).neg := by
  have exponent : @unpackExponent Format.binary64 b' = @unpackExponent Format.binary64 b := by
    rw [← BitVec.toNat_inj, exponent_eq, exponent_eq]
    omega
  have mantissa : @unpackMantissa Format.binary64 b' = @unpackMantissa Format.binary64 b := by
    rw [← BitVec.toNat_inj, mantissa_eq, mantissa_eq]
    omega
  have plus : Sign.ofBitVec (@unpackSign Format.binary64 b) = .positive := by
    rw [ofBitVec_sign, decide_eq_false (by omega)]
    rfl
  have minus : Sign.ofBitVec (@unpackSign Format.binary64 b') = .negative := by
    rw [ofBitVec_sign, decide_eq_true (by omega)]
    rfl
  unfold UnpackedFloat.unpack
  simp only [exponent, mantissa, plus, minus]
  split
  · split <;> rfl
  · split
    · split <;> rfl
    · rfl

end Fields

section Magnitude

variable {x : Number}

theorem bits_lt (finite : x.isFinite) : x.toBits.toNat % 2 ^ 63 < infinityBits := by
  by_contra high
  have bound : infinityBits = 2047 * 2 ^ 52 := rfl
  have exponent : @unpackExponent Format.binary64 x.toBits.toBitVec = -1#11 := by
    have within := x.toBits.toBitVec.isLt
    rw [← BitVec.toNat_inj, exponent_eq]
    show x.toBits.toNat / 2 ^ 52 % 2 ^ 11 = 2047
    have : x.toBits.toNat < 2 ^ 64 := within
    omega
  have known : (unpack .binary64 x.toBits.toBitVec).isFinite := finite
  unfold UnpackedFloat.unpack at known
  simp only [exponent, if_pos] at known
  split at known <;> cases known

theorem units_eq_zero_iff : x.units = 0 ↔ x.toBits.toNat % 2 ^ 63 = 0 := by
  unfold units
  dsimp only
  split
  · rfl
  · next large =>
      have some : x.toBits.toNat % Nat.pow 2 63 ≠ 0 := by
        intro none
        rw [none] at large
        exact large (by decide)
      refine iff_of_false ?_ some
      rw [Nat.shiftLeft_eq]
      have : 0 < Nat.pow 2 52 := by decide
      positivity

theorem shift_eq {m k : Nat} (small : m < 2 ^ 53) (leading : k = 0 ∨ 2 ^ 52 ≤ m) :
    (m * 2 ^ k).log2 - 52 = k := by
  rcases leading with rfl | leading
  · rw [Nat.pow_zero, Nat.mul_one]
    by_cases none : m = 0
    · rw [none]
      rfl
    · have bound := (Nat.log2_lt none).mpr small
      omega
  · have bits : (m * 2 ^ k).log2 = 52 + k := by
      rw [Nat.log2_eq_iff (by positivity)]
      constructor
      · rw [Nat.pow_add]
        exact Nat.mul_le_mul_right _ leading
      · rw [Nat.add_right_comm, Nat.pow_add]
        exact Nat.mul_lt_mul_of_pos_right small (by positivity)
    omega

/-- The bits in use of a magnitude and how far up they stand. -/
theorem units_form (finite : x.isFinite) :
    ∃ m k, x.units = m * 2 ^ k ∧ m < 2 ^ 53 ∧ (k = 0 ∨ 2 ^ 52 ≤ m) ∧ k < 2046 ∧
      x.toBits.toNat % 2 ^ 63 = k * 2 ^ 52 + m := by
  have bits := bits_lt finite
  have bound : infinityBits = 2047 * 2 ^ 52 := rfl
  unfold units
  dsimp only
  rw [pow_eq, pow_eq, pow_eq]
  generalize x.toBits.toNat % 2 ^ 63 = n at bits ⊢
  split
  · next small =>
      refine ⟨n, 0, ?_, small, .inl rfl, by decide, by omega⟩
      rw [Nat.pow_zero, Nat.mul_one]
  · next large =>
      refine ⟨n % 2 ^ 52 + 2 ^ 52, n / 2 ^ 52 - 1, Nat.shiftLeft_eq _ _, ?_, .inr ?_, ?_, ?_⟩
      all_goals omega

theorem units_onGrid (finite : x.isFinite) : OnGrid x.units := by
  obtain ⟨m, k, known, small, leading, -⟩ := units_form finite
  unfold OnGrid
  rw [known, shift_eq small leading]
  exact Nat.dvd_mul_left _ _

theorem units_lt (finite : x.isFinite) : x.units < beyond := by
  obtain ⟨m, k, known, small, -, low, -⟩ := units_form finite
  have room : 53 + k ≤ scale + 1024 := by
    rw [scale_eq]
    omega
  calc x.units = m * 2 ^ k := known
    _ < 2 ^ 53 * 2 ^ k := Nat.mul_lt_mul_of_pos_right small (by positivity)
    _ ≤ 2 ^ (scale + 1024) := by
        rw [← Nat.pow_add]
        exact Nat.pow_le_pow_right (by decide) room
    _ = beyond := beyond_eq.symm

theorem ofUnits_units (finite : x.isFinite) : ofUnits x.isNegative x.units = x := by
  obtain ⟨m, k, known, small, leading, -, bits⟩ := units_form finite
  have low := bits_lt finite
  have shifted : x.units >>> k = m := by
    rw [known, Nat.shiftRight_eq_div_pow, Nat.mul_div_cancel _ (by positivity)]
  have kept : min ((k <<< 52) + (x.units >>> k)) infinityBits = x.toBits.toNat % 2 ^ 63 := by
    rw [shifted, Nat.shiftLeft_eq, ← bits]
    omega
  have whole : (if x.isNegative then x.toBits.toNat % 2 ^ 63 + Nat.pow 2 63
      else x.toBits.toNat % 2 ^ 63) = x.toBits.toNat := by
    have within : x.toBits.toNat < 2 ^ 64 := x.toBits.toBitVec.isLt
    unfold isNegative
    rw [pow_eq]
    split
    · next high =>
        rw [decide_eq_true_iff] at high
        omega
    · next low =>
        rw [decide_eq_true_iff] at low
        omega
  unfold ofUnits
  have shift : x.units.log2 - 52 = k := by rw [known, shift_eq small leading]
  dsimp only
  rw [shift, kept, whole, UInt64.ofNat_toNat, Float.ofBits_toBits]

theorem unpack_ofBits (a : UInt64) :
    (Float.ofBits a).toModel.unpack = UnpackedFloat.unpack .binary64 a.toBitVec :=
  unpack_pack_unpack a.toBitVec

theorem neg_eq (x : Number) : -x = .ofModel (.pack x.toModel.unpack.neg) := rfl

theorem ofBits_eq (a : UInt64) :
    Float.ofBits a = .ofModel (.pack (UnpackedFloat.unpack .binary64 a.toBitVec)) := rfl

theorem neg_ofUnits (u : Nat) : -ofUnits false u = ofUnits true u := by
  unfold ofUnits
  dsimp only
  rw [pow_eq]
  generalize held : min (((u.log2 - 52) <<< 52) + (u >>> (u.log2 - 52))) infinityBits = n
  have low : n ≤ infinityBits := by
    rw [← held]
    exact Nat.min_le_right _ _
  have bound : infinityBits = 2047 * 2 ^ 52 := rfl
  have bits {n : Nat} (within : n < 2 ^ 64) : (UInt64.ofNat n).toBitVec.toNat = n := by
    rw [UInt64.toNat_toBitVec, UInt64.toNat_ofNat', Nat.mod_eq_of_lt within]
  have plus : (UInt64.ofNat n).toBitVec.toNat = n := bits (by omega)
  have minus : (UInt64.ofNat (n + 2 ^ 63)).toBitVec.toNat = n + 2 ^ 63 := bits (by omega)
  have flipped := unpack_neg (by rw [plus]; omega) (minus.trans (congrArg (· + 2 ^ 63) plus.symm))
  rw [if_pos rfl, if_neg Bool.false_ne_true, neg_eq, unpack_ofBits, ← flipped, ← ofBits_eq]

end Magnitude

end Script.Number
