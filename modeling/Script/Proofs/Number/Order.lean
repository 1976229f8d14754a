import Mathlib
import Script.Proofs.Number.Bits

/-!
The order of numbers. The bits below the sign count the magnitudes from zero on, up to infinity and
past it, so numbers compare as these counts do, and finite numbers as their units do.
-/

namespace Script.Number

open Float.Model Float.Model.UnpackedFloat

def count (x : Number) : Nat := x.toBits.toNat % 2 ^ 63

/-- A count above zero, or below it if the sign is negative. -/
def signed (negative : Bool) (n : Nat) : Int := if negative then -n else n

def rank (x : Number) : Int := signed x.isNegative x.count

/-- What bits with this sign and this count below it stand for. -/
inductive Unpacks (negative : Bool) : Nat → UnpackedFloat → Prop
  | zero : Unpacks negative 0 (.zero (sign negative))
  | finite {n m k : Nat} {e : Int} {some : 0 < m} (counts : n = k * 2 ^ 52 + m)
      (power : e = k - 1074) (small : m < 2 ^ 53) (leading : k = 0 ∨ 2 ^ 52 ≤ m) (low : k < 2046) :
      Unpacks negative n (.finite (sign negative) m e some)
  | infinity : Unpacks negative infinityBits (.infinity (sign negative))
  | nan {n : Nat} (past : infinityBits < n) : Unpacks negative n .notANumber

theorem infinityBits_eq : infinityBits = 2047 * 2 ^ 52 := rfl

section Unpacking

theorem unpacks (b : BitVec 64) :
    Unpacks (decide (2 ^ 63 ≤ b.toNat)) (b.toNat % 2 ^ 63) (unpack .binary64 b) := by
  have exponent := exponent_eq b
  have mantissa := mantissa_eq b
  have full : @unpackExponent Format.binary64 b = -1#11 ↔ b.toNat / 2 ^ 52 % 2 ^ 11 = 2047 := by
    rw [← BitVec.toNat_inj, exponent]
    rfl
  have tiny : @unpackExponent Format.binary64 b = 0#11 ↔ b.toNat / 2 ^ 52 % 2 ^ 11 = 0 := by
    rw [← BitVec.toNat_inj, exponent]
    rfl
  have none : @unpackMantissa Format.binary64 b = 0#52 ↔ b.toNat % 2 ^ 52 = 0 := by
    rw [← BitVec.toNat_inj, mantissa]
    rfl
  generalize negative : decide (2 ^ 63 ≤ b.toNat) = s
  unfold UnpackedFloat.unpack
  simp only [ofBitVec_sign, negative]
  split
  · next high =>
      rw [full] at high
      split
      · next zero =>
          rw [none] at zero
          have count : b.toNat % 2 ^ 63 = infinityBits := by
            rw [infinityBits_eq]
            omega
          rw [count]
          exact .infinity
      · next some =>
          rw [none] at some
          apply Unpacks.nan
          rw [infinityBits_eq]
          omega
  · next regular =>
      rw [full] at regular
      split
      · next low =>
          rw [tiny] at low
          split
          · next zero =>
              rw [none] at zero
              have count : b.toNat % 2 ^ 63 = 0 := by omega
              rw [count]
              exact .zero
          · next some =>
              have exponent : (@unpackExponent Format.binary64 b).toNat = 0 := exponent.trans low
              refine .finite (k := 0) ?_ ?_ ?_ (.inl rfl) (by decide)
              · omega
              · show (_ : Int) - 1075 + 1 = 0 - 1074
                omega
              · omega
      · next normal =>
          rw [tiny] at normal
          have whole : (1#1 ++ @unpackMantissa Format.binary64 b).toNat =
              2 ^ 52 + b.toNat % 2 ^ 52 := by
            rw [BitVec.toNat_append, mantissa]
            exact (Nat.two_pow_add_eq_or_of_lt (Nat.mod_lt _ (Nat.two_pow_pos 52)) 1).symm
          refine .finite (k := b.toNat / 2 ^ 52 % 2 ^ 11 - 1) ?_ ?_ ?_ (.inr ?_) ?_
          · omega
          · show (_ : Int) - 1075 = _
            omega
          · omega
          · omega
          · omega

theorem signed_true (n : Nat) : signed true n = -n := rfl

theorem signed_false (n : Nat) : signed false n = n := rfl

theorem compare_further {n n' : Nat} (s t : Bool) (less : n < n') :
    compare (signed s n) (signed t n') = if t then .gt else .lt := by
  cases t with
  | false =>
      refine Int.compare_eq_lt.mpr ?_
      cases s <;> simp only [signed_true, signed_false] <;> omega
  | true =>
      refine Int.compare_eq_gt.mpr ?_
      cases s <;> simp only [signed_true, signed_false] <;> omega

theorem compare_nearer {n n' : Nat} (s t : Bool) (more : n' < n) :
    compare (signed s n) (signed t n') = if s then .lt else .gt := by
  rw [← Int.compare_swap, compare_further t s more]
  cases s <;> rfl

theorem compare_signed (s : Bool) (n n' : Nat) :
    compare (signed s n) (signed s n') = if s then (compare n n').swap else compare n n' := by
  cases s with
  | false =>
      rw [signed_false, signed_false, if_neg Bool.false_ne_true]
      rcases Nat.lt_trichotomy n n' with less | rfl | more
      · rw [Nat.compare_eq_lt.mpr less, Int.compare_eq_lt.mpr (by omega)]
      · rw [Nat.compare_eq_eq.mpr rfl, Int.compare_eq_eq.mpr rfl]
      · rw [Nat.compare_eq_gt.mpr more, Int.compare_eq_gt.mpr (by omega)]
  | true =>
      rw [signed_true, signed_true, if_pos rfl]
      rcases Nat.lt_trichotomy n n' with less | rfl | more
      · rw [Nat.compare_eq_lt.mpr less, Int.compare_eq_gt.mpr (by omega)]
        rfl
      · rw [Nat.compare_eq_eq.mpr rfl, Int.compare_eq_eq.mpr rfl]
        rfl
      · rw [Nat.compare_eq_gt.mpr more, Int.compare_eq_lt.mpr (by omega)]
        rfl

/-- With their leading bits in place, magnitudes compare as their exponents and then their bits. -/
theorem compare_parts {n n' m m' k k' : Nat} {e e' : Int} (counts : n = k * 2 ^ 52 + m)
    (counts' : n' = k' * 2 ^ 52 + m') (power : e = k - 1074) (power' : e' = k' - 1074)
    (small : m < 2 ^ 53) (small' : m' < 2 ^ 53) (leading : k = 0 ∨ 2 ^ 52 ≤ m)
    (leading' : k' = 0 ∨ 2 ^ 52 ≤ m') : (compare e e').then (compare m m') = compare n n' := by
  rcases Nat.lt_trichotomy k k' with less | rfl | more
  · rw [Int.compare_eq_lt.mpr (by omega), Nat.compare_eq_lt.mpr (show n < n' by omega)]
    rfl
  · rw [Int.compare_eq_eq.mpr (by omega)]
    show compare m m' = compare n n'
    rcases Nat.lt_trichotomy m m' with less | rfl | more
    · rw [Nat.compare_eq_lt.mpr less, Nat.compare_eq_lt.mpr (by omega)]
    · rw [Nat.compare_eq_eq.mpr rfl, Nat.compare_eq_eq.mpr (by omega)]
    · rw [Nat.compare_eq_gt.mpr more, Nat.compare_eq_gt.mpr (by omega)]
  · rw [Int.compare_eq_gt.mpr (by omega), Nat.compare_eq_gt.mpr (show n' < n by omega)]
    rfl

theorem Unpacks.compare_eq {s t : Bool} {n n' : Nat} {f g : UnpackedFloat} (left : Unpacks s n f)
    (right : Unpacks t n' g) (number : f.isNaN = false) (number' : g.isNaN = false) :
    f.compare g = some (compare (signed s n) (signed t n')) := by
  have bound := infinityBits_eq
  cases left with
  | nan => cases number
  | zero =>
      cases right with
      | nan => cases number'
      | zero => cases s <;> cases t <;> rfl
      | finite counts =>
          rw [compare_further s t (by omega)]
          cases t <;> rfl
      | infinity =>
          rw [compare_further s t (by omega)]
          cases t <;> rfl
  | infinity =>
      cases right with
      | nan => cases number'
      | infinity => cases s <;> cases t <;> rfl
      | zero =>
          rw [compare_nearer s t (by omega)]
          cases s <;> rfl
      | finite counts =>
          rw [compare_nearer s t (by omega)]
          cases s <;> rfl
  | finite counts power small leading low =>
      cases right with
      | nan => cases number'
      | zero =>
          rw [compare_nearer s t (by omega)]
          cases s <;> rfl
      | infinity =>
          rw [compare_further s t (by omega)]
          cases t <;> rfl
      | finite counts' power' small' leading' low' =>
          have parts := compare_parts counts counts' power power' small small' leading leading'
          cases s with
          | false =>
              cases t with
              | false =>
                  rw [compare_signed, ← parts]
                  rfl
              | true =>
                  rw [Int.compare_eq_gt.mpr (by simp only [signed_true, signed_false]; omega)]
                  rfl
          | true =>
              cases t with
              | false =>
                  rw [Int.compare_eq_lt.mpr (by simp only [signed_true, signed_false]; omega)]
                  rfl
              | true =>
                  rw [compare_signed, ← parts]
                  rfl

theorem Unpacks.status {s : Bool} {n : Nat} {f : UnpackedFloat} (known : Unpacks s n f) :
    (f.isFinite = true ↔ n < infinityBits) ∧ (f.isInf = true ↔ n = infinityBits) ∧
      (f.isNaN = true ↔ infinityBits < n) := by
  have bound := infinityBits_eq
  cases known with
  | zero | finite => simp [UnpackedFloat.isFinite, UnpackedFloat.isInf, UnpackedFloat.isNaN]; omega
  | infinity => simp [UnpackedFloat.isFinite, UnpackedFloat.isInf, UnpackedFloat.isNaN]
  | nan past =>
      simp [UnpackedFloat.isFinite, UnpackedFloat.isInf, UnpackedFloat.isNaN, past]
      omega

end Unpacking

variable {x y z : Number}

theorem unpacks_bits (x : Number) : Unpacks x.isNegative x.count x.toModel.unpack :=
  unpacks x.toBits.toBitVec

theorem isFinite_iff : x.isFinite = true ↔ x.count < infinityBits := x.unpacks_bits.status.1

theorem isInf_iff : x.isInf = true ↔ x.count = infinityBits := x.unpacks_bits.status.2.1

theorem isNaN_iff : x.isNaN = true ↔ infinityBits < x.count := x.unpacks_bits.status.2.2

theorem isNaN_of_finite (finite : x.isFinite) : x.isNaN = false := by
  rw [isFinite_iff] at finite
  rw [← Bool.not_eq_true, isNaN_iff]
  omega

theorem isInf_of_finite (finite : x.isFinite) : x.isInf = false := by
  rw [isFinite_iff] at finite
  rw [← Bool.not_eq_true, isInf_iff]
  omega

section Comparison

theorem compare_eq (number : x.isNaN = false) (number' : y.isNaN = false) :
    x.toModel.unpack.compare y.toModel.unpack = some (compare x.rank y.rank) :=
  x.unpacks_bits.compare_eq y.unpacks_bits number number'

theorem compare_nan (nan : ¬ (x.isNaN = false ∧ y.isNaN = false)) :
    x.toModel.unpack.compare y.toModel.unpack = none := by
  have left : x.isNaN = true ↔ x.toModel.unpack = .notANumber := UnpackedFloat.isNaN_iff
  have right : y.isNaN = true ↔ y.toModel.unpack = .notANumber := UnpackedFloat.isNaN_iff
  rw [not_and_or, Bool.not_eq_false, Bool.not_eq_false, left, right] at nan
  rcases nan with same | same
  · rw [same]
    rfl
  · rw [same]
    cases x.toModel.unpack <;> rfl

theorem lt_iff : x < y ↔ (x.isNaN = false ∧ y.isNaN = false) ∧ x.rank < y.rank := by
  have compared : x < y ↔ x.toModel.unpack.lt y.toModel.unpack = true := decide_eq_true_iff
  rw [compared, UnpackedFloat.lt]
  by_cases numbers : x.isNaN = false ∧ y.isNaN = false
  · rw [compare_eq numbers.1 numbers.2, beq_iff_eq, Option.some_inj, Int.compare_eq_lt]
    exact (and_iff_right numbers).symm
  · rw [compare_nan numbers]
    exact iff_of_false Bool.false_ne_true fun both => numbers both.1

theorem le_iff : x ≤ y ↔ (x.isNaN = false ∧ y.isNaN = false) ∧ x.rank ≤ y.rank := by
  have compared : x ≤ y ↔ x.toModel.unpack.le y.toModel.unpack = true := decide_eq_true_iff
  rw [compared, UnpackedFloat.le]
  by_cases numbers : x.isNaN = false ∧ y.isNaN = false
  · rw [compare_eq numbers.1 numbers.2, Option.any_some, Int.isLE_compare]
    exact (and_iff_right numbers).symm
  · rw [compare_nan numbers]
    exact iff_of_false Bool.false_ne_true fun both => numbers both.1

theorem beq_iff : (x == y) = true ↔ (x.isNaN = false ∧ y.isNaN = false) ∧ x.rank = y.rank := by
  show x.toModel.unpack.beq y.toModel.unpack = true ↔ _
  rw [UnpackedFloat.beq]
  by_cases numbers : x.isNaN = false ∧ y.isNaN = false
  · rw [compare_eq numbers.1 numbers.2, beq_iff_eq, Option.some_inj, Int.compare_eq_eq]
    exact (and_iff_right numbers).symm
  · rw [compare_nan numbers]
    exact iff_of_false Bool.false_ne_true fun both => numbers both.1

theorem not_le_iff (number : x.isNaN = false) (number' : y.isNaN = false) : ¬ x ≤ y ↔ y < x := by
  rw [le_iff, lt_iff, and_iff_right ⟨number, number'⟩, and_iff_right ⟨number', number⟩, not_le]

theorem beq_self : (x == x) = true ↔ x.isNaN = false := by
  rw [beq_iff]
  exact ⟨fun both => both.1.1, fun number => ⟨⟨number, number⟩, rfl⟩⟩

theorem beq_symm (x y : Number) : (x == y) = (y == x) := by
  rw [Bool.eq_iff_iff, beq_iff, beq_iff, and_comm (a := x.isNaN = false), eq_comm (a := x.rank)]

theorem beq_trans (first : (x == y) = true) (second : (y == z) = true) : (x == z) = true := by
  rw [beq_iff] at first second ⊢
  exact ⟨⟨first.1.1, second.1.2⟩, first.2.trans second.2⟩

theorem lt_trans (first : x < y) (second : y < z) : x < z := by
  rw [lt_iff] at first second ⊢
  exact ⟨⟨first.1.1, second.1.2⟩, Int.lt_trans first.2 second.2⟩

theorem lt_zero_iff (finite : x.isFinite) : x < 0 ↔ x.isNegative = true ∧ x.units ≠ 0 := by
  have zero : rank 0 = 0 := by decide
  have counted : x.units ≠ 0 ↔ x.count ≠ 0 := not_congr units_eq_zero_iff
  have numbers : x.isNaN = false ∧ Float.isNaN 0 = false := ⟨isNaN_of_finite finite, by decide⟩
  rw [lt_iff, and_iff_right numbers, zero, counted, rank]
  cases x.isNegative with
  | false =>
      rw [signed_false]
      exact iff_of_false (by omega) fun both => nomatch both.1
  | true =>
      rw [signed_true]
      exact ⟨fun less => ⟨rfl, by omega⟩, fun both => by omega⟩

end Comparison

section Magnitude

theorem toBits_ofBits {a : UInt64} (number : a.toNat % 2 ^ 63 ≤ infinityBits) :
    (Float.ofBits a).toBits = a := by
  have bits : (Float.ofBits a).toBits =
      UInt64.ofBitVec (UnpackedFloat.pack .binary64 (unpack .binary64 a.toBitVec)) := rfl
  have known : ¬ @isNaNBits Format.binary64 a.toBitVec = true := by
    have bound := infinityBits_eq
    have small : a.toBitVec.toNat % 2 ^ 63 ≤ infinityBits := number
    unfold isNaNBits
    rw [decide_eq_true_iff]
    rintro ⟨full, some⟩
    rw [← BitVec.toNat_inj, exponent_eq] at full
    rw [Ne, ← BitVec.toNat_inj, mantissa_eq] at some
    replace full : a.toBitVec.toNat / 2 ^ 52 % 2 ^ 11 = 2047 := full
    replace some : ¬ a.toBitVec.toNat % 2 ^ 52 = 0 := some
    omega
  rw [bits, pack_unpack, if_neg known]

theorem unpack_abs {b b' : BitVec 64} (low : b'.toNat = b.toNat % 2 ^ 63) :
    unpack .binary64 b' = (unpack .binary64 b).abs := by
  have exponent : @unpackExponent Format.binary64 b' = @unpackExponent Format.binary64 b := by
    rw [← BitVec.toNat_inj, exponent_eq, exponent_eq]
    omega
  have mantissa : @unpackMantissa Format.binary64 b' = @unpackMantissa Format.binary64 b := by
    rw [← BitVec.toNat_inj, mantissa_eq, mantissa_eq]
    omega
  have plus : Sign.ofBitVec (@unpackSign Format.binary64 b') = .positive := by
    rw [ofBitVec_sign, decide_eq_false (by omega)]
    rfl
  unfold UnpackedFloat.unpack
  simp only [exponent, mantissa, plus]
  split
  · split <;> rfl
  · split
    · split <;> rfl
    · rfl

theorem abs_eq (x : Number) : x.abs = Float.ofBits (UInt64.ofNat x.count) := by
  have bound : x.count < 2 ^ 64 := by
    have : x.count < 2 ^ 63 := Nat.mod_lt _ (by decide)
    omega
  have low : (UInt64.ofNat x.count).toBitVec.toNat = x.toBits.toBitVec.toNat % 2 ^ 63 := by
    rw [UInt64.toNat_toBitVec, UInt64.toNat_ofNat', Nat.mod_eq_of_lt bound]
    rfl
  rw [ofBits_eq, unpack_abs low]
  rfl

theorem fields_ofBits {n : Nat} (small : n ≤ infinityBits) (negative : Bool) :
    let y := Float.ofBits (UInt64.ofNat (if negative then n + 2 ^ 63 else n))
    count y = n ∧ isNegative y = negative := by
  intro y
  have bound := infinityBits_eq
  have bits : (UInt64.ofNat (if negative then n + 2 ^ 63 else n)).toNat =
      if negative then n + 2 ^ 63 else n := by
    rw [UInt64.toNat_ofNat', Nat.mod_eq_of_lt]
    split <;> omega
  have low : (if negative then n + 2 ^ 63 else n) % 2 ^ 63 = n := by
    split <;> omega
  have kept : y.toBits.toNat = if negative then n + 2 ^ 63 else n := by
    rw [toBits_ofBits (by rw [bits, low]; exact small), bits]
  refine ⟨by rw [count, kept, low], ?_⟩
  rw [isNegative, kept, pow_eq]
  cases negative with
  | false => exact decide_eq_false (by rw [if_neg nofun]; omega)
  | true => exact decide_eq_true (by rw [if_pos rfl]; omega)

theorem rank_abs (number : x.isNaN = false) : x.abs.isNaN = false ∧ rank x.abs = x.count := by
  have small : x.count ≤ infinityBits := by
    rw [← Bool.not_eq_true, isNaN_iff] at number
    omega
  obtain ⟨counted, plus⟩ := fields_ofBits small false
  rw [abs_eq]
  refine ⟨?_, ?_⟩
  · rw [← Bool.not_eq_true, isNaN_iff]
    exact (Nat.le_of_eq counted).trans small |>.not_gt
  · rw [rank]
    exact congrArg₂ signed plus counted

theorem isNaN_ofUnits (negative : Bool) (u : Nat) : (ofUnits negative u).isNaN = false := by
  obtain ⟨counted, -⟩ := fields_ofBits (Nat.min_le_right _ infinityBits) negative
  rw [← Bool.not_eq_true, isNaN_iff]
  exact (Nat.le_of_eq counted).trans (Nat.min_le_right _ _) |>.not_gt

theorem beq_zero_iff (finite : x.isFinite) : (x == 0) = true ↔ x.units = 0 := by
  have zero : rank 0 = 0 := by decide
  have numbers : x.isNaN = false ∧ Float.isNaN 0 = false := ⟨isNaN_of_finite finite, by decide⟩
  have counted : x.units = 0 ↔ x.count = 0 := units_eq_zero_iff
  rw [beq_iff, and_iff_right numbers, zero, counted, rank, signed]
  split <;> omega

theorem abs_eq_zero_iff (finite : x.isFinite) : x.abs = 0 ↔ x.units = 0 := by
  have counted : x.units = 0 ↔ x.count = 0 := units_eq_zero_iff
  rw [counted]
  constructor
  · intro none
    have ranked := (rank_abs (isNaN_of_finite finite)).2
    have zero : rank 0 = 0 := by decide
    rw [none, zero] at ranked
    exact Int.ofNat_eq_zero.mp ranked.symm
  · intro none
    rw [abs_eq, none]
    decide

theorem units_lt_of_count (finite : x.isFinite) (finite' : y.isFinite) (less : x.count < y.count) :
    x.units < y.units := by
  obtain ⟨m, k, known, small, leading, -, bits⟩ := units_form finite
  obtain ⟨m', k', known', small', leading', -, bits'⟩ := units_form finite'
  rw [count, count, bits, bits'] at less
  rw [known, known']
  rcases Nat.lt_trichotomy k k' with before | rfl | after
  · have leading' : 2 ^ 52 ≤ m' := by omega
    calc m * 2 ^ k < 2 ^ 53 * 2 ^ k := Nat.mul_lt_mul_of_pos_right small (by positivity)
      _ = 2 ^ 52 * 2 ^ (k + 1) := by ring
      _ ≤ m' * 2 ^ k' := Nat.mul_le_mul leading' (Nat.pow_le_pow_right (by decide) before)
  · exact Nat.mul_lt_mul_of_pos_right (by omega) (by positivity)
  · omega

theorem units_lt_iff (finite : x.isFinite) (finite' : y.isFinite) :
    x.units < y.units ↔ x.count < y.count := by
  refine ⟨fun less => ?_, units_lt_of_count finite finite'⟩
  rcases Nat.lt_trichotomy x.count y.count with before | same | after
  · exact before
  · have equal : x.units = y.units := by
      have same : x.toBits.toNat % Nat.pow 2 63 = y.toBits.toNat % Nat.pow 2 63 := same
      rw [units, units, same]
    omega
  · have more := units_lt_of_count finite' finite after
    omega

theorem abs_lt_iff (finite : x.isFinite) (bound : y.isFinite) (plus : y.isNegative = false) :
    x.abs < y ↔ x.units < y.units := by
  obtain ⟨number, counted⟩ := rank_abs (isNaN_of_finite finite)
  rw [lt_iff, and_iff_right ⟨number, isNaN_of_finite bound⟩, counted, rank, plus, signed_false,
    units_lt_iff finite bound]
  exact Int.ofNat_lt

theorem le_abs_iff (finite : x.isFinite) (bound : y.isFinite) (plus : y.isNegative = false) :
    y ≤ x.abs ↔ y.units ≤ x.units := by
  obtain ⟨number, counted⟩ := rank_abs (isNaN_of_finite finite)
  rw [le_iff, and_iff_right ⟨isNaN_of_finite bound, number⟩, counted, rank, plus, signed_false,
    ← Nat.not_lt, units_lt_iff finite bound, Nat.not_lt]
  exact Int.ofNat_le

end Magnitude

end Script.Number
