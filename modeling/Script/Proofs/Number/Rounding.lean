import Mathlib
import Script.Number.Decimal

/-!
Decimals and the grid. A decimal is read as the point of the grid that is nearest to its value, so
zeros at the end of its digits do not matter, and the shortest decimal of a point is read as it.
-/

namespace Script

namespace Number

/-- At most 53 leading bits are in use. -/
def OnGrid (u : Nat) : Prop := 2 ^ (u.log2 - 52) ∣ u

/-- How many times one is halved down to a unit. -/
def scale : Nat := 1074

theorem scale_eq : scale = 1074 := rfl

attribute [irreducible] scale

/-- More units than any finite number has. -/
def beyond : Nat := Nat.pow 2 2098

theorem pow_eq (b n : Nat) : Nat.pow b n = b ^ n := rfl

theorem one_eq : one = 2 ^ scale := by
  unfold one
  rw [← scale_eq, pow_eq]

theorem beyond_eq : beyond = 2 ^ (scale + 1024) := by
  have places : 2098 = scale + 1024 := by rw [scale_eq]
  unfold beyond
  rw [places, pow_eq]

section Nearest

variable {u num den num' den' factor : Nat}

theorem divNearest_mul (pos : 0 < den) : divNearest (u * den) den = u := by
  unfold divNearest
  rw [Nat.mul_div_cancel u pos, Nat.mul_mod_left]
  exact if_pos (.inl pos)

theorem divNearest_mul_right (pos : 0 < factor) :
    divNearest (num * factor) (den * factor) = divNearest num den := by
  have twice : 2 * (num % den * factor) = 2 * (num % den) * factor := by ring
  unfold divNearest
  simp only [Nat.mul_div_mul_right num den pos, Nat.mul_mod_mul_right, twice,
    Nat.mul_lt_mul_right pos, Nat.mul_left_inj (Nat.ne_of_gt pos)]

theorem le_divNearest : num / den ≤ divNearest num den := by
  unfold divNearest
  dsimp only
  split
  · exact Nat.le_refl _
  · exact Nat.le_succ _

theorem divNearest_le : divNearest num den ≤ num / den + 1 := by
  unfold divNearest
  dsimp only
  split
  · exact Nat.le_succ _
  · exact Nat.le_refl _

theorem nearest_mul (grid : OnGrid u) (pos : 0 < den) : nearest (u * den) den = u := by
  obtain ⟨k, same⟩ := grid
  unfold nearest
  dsimp only
  rw [Nat.mul_div_cancel u pos]
  generalize u.log2 - 52 = shift at same ⊢
  have scaled : u * den = k * (den <<< shift) := by
    rw [Nat.shiftLeft_eq, same]
    ring
  have more : 0 < den <<< shift := by
    rw [Nat.shiftLeft_eq]
    positivity
  rw [scaled, divNearest_mul more, Nat.shiftLeft_eq, same, Nat.mul_comm]

theorem nearest_mul_right (pos : 0 < factor) :
    nearest (num * factor) (den * factor) = nearest num den := by
  have shifted (shift : Nat) : (den * factor) <<< shift = den <<< shift * factor := by
    rw [Nat.shiftLeft_eq, Nat.shiftLeft_eq]
    ring
  unfold nearest
  dsimp only
  rw [Nat.mul_div_mul_right num den pos, shifted, divNearest_mul_right pos]

theorem nearest_ratio (same : num * den' = num' * den) (pos : 0 < den) (pos' : 0 < den') :
    nearest num den = nearest num' den' := by
  calc nearest num den = nearest (num * den') (den * den') := (nearest_mul_right pos').symm
    _ = nearest (num' * den) (den' * den) := by rw [same, Nat.mul_comm den den']
    _ = nearest num' den' := nearest_mul_right pos

theorem nearest_low (below : 2 * num < den) : nearest num den = 0 := by
  have none : num / den = 0 := Nat.div_eq_of_lt (by omega)
  have left : num % den = num := Nat.mod_eq_of_lt (by omega)
  have down : divNearest num den = 0 := by
    unfold divNearest
    rw [none, left]
    exact if_pos (.inl below)
  unfold nearest
  rw [none]
  exact congrArg (· <<< 0) down

theorem le_nearest {b : Nat} (pos : 0 < den) (above : 2 ^ b * den ≤ num) :
    2 ^ b ≤ nearest num den := by
  have above' : 2 ^ b ≤ num / den := (Nat.le_div_iff_mul_le pos).mpr above
  have some : num / den ≠ 0 := by
    intro none
    rw [none] at above'
    exact absurd above' (by simp)
  have long : b ≤ (num / den).log2 := (Nat.le_log2 some).mpr above'
  have leads : 2 ^ (num / den).log2 * den ≤ num :=
    (Nat.le_div_iff_mul_le pos).mp (Nat.log2_self_le some)
  unfold nearest
  dsimp only
  generalize (num / den).log2 = top at long leads ⊢
  generalize shifts : top - 52 = shift
  have within : top - shift + shift = top := by omega
  have more : 0 < den * 2 ^ shift := by positivity
  have leading : 2 ^ (top - shift) ≤ num / den <<< shift := by
    rw [Nat.shiftLeft_eq, Nat.le_div_iff_mul_le more]
    calc 2 ^ (top - shift) * (den * 2 ^ shift) = 2 ^ (top - shift + shift) * den := by ring
      _ ≤ num := by rwa [within]
  rw [Nat.shiftLeft_eq (divNearest _ _)]
  calc 2 ^ b ≤ 2 ^ top := Nat.pow_le_pow_right (by decide) long
    _ = 2 ^ (top - shift) * 2 ^ shift := by rw [← Nat.pow_add, within]
    _ ≤ divNearest num (den <<< shift) * 2 ^ shift :=
        Nat.mul_le_mul_right _ (Nat.le_trans leading le_divNearest)

theorem nearest_le {b : Nat} (pos : 0 < den) (below : num < 2 ^ b * den) :
    nearest num den ≤ 2 ^ b := by
  have below' : num / den < 2 ^ b := (Nat.div_lt_iff_lt_mul pos).mpr below
  have short : (num / den).log2 - 52 ≤ b := by
    by_cases none : num / den = 0
    · rw [none]
      exact Nat.zero_le b
    · have := (Nat.log2_lt none).mpr below'
      omega
  unfold nearest
  dsimp only
  generalize (num / den).log2 - 52 = shift at short ⊢
  have more : 0 < den * 2 ^ shift := by positivity
  have room : num / den <<< shift < 2 ^ (b - shift) := by
    rw [Nat.shiftLeft_eq, Nat.div_lt_iff_lt_mul more]
    calc num < 2 ^ b * den := below
      _ = 2 ^ (b - shift + shift) * den := by rw [Nat.sub_add_cancel short]
      _ = 2 ^ (b - shift) * (den * 2 ^ shift) := by ring
  rw [Nat.shiftLeft_eq (divNearest _ _)]
  calc divNearest num (den <<< shift) * 2 ^ shift ≤ 2 ^ (b - shift) * 2 ^ shift :=
        Nat.mul_le_mul_right _ (Nat.le_trans divNearest_le room)
    _ = 2 ^ b := by rw [← Nat.pow_add, Nat.sub_add_cancel short]

end Nearest

end Number

namespace Decimal

open Number

variable {u : Nat} {d d' : Decimal}

def value (d : Decimal) : ℚ := d.digits * 10 ^ d.exponent

/-- The point of the grid that is nearest to the value, however far out of range. -/
def rounded (d : Decimal) : Nat :=
  nearest (d.digits * 10 ^ d.exponent.toNat * one) (10 ^ (-d.exponent).toNat)

theorem value_mul (d : Decimal) :
    d.value * 10 ^ (-d.exponent).toNat = d.digits * 10 ^ d.exponent.toNat := by
  have ten : (10 : ℚ) ≠ 0 := by norm_num
  have powers : (10 : ℚ) ^ d.exponent * 10 ^ (-d.exponent).toNat = 10 ^ d.exponent.toNat := by
    rw [← zpow_natCast, ← zpow_natCast, ← zpow_add₀ ten]
    congr 1
    omega
  rw [value, mul_assoc, powers]

theorem rounded_of_value (same : d.value = d'.value) : d.rounded = d'.rounded := by
  have ratios : d.digits * 10 ^ d.exponent.toNat * 10 ^ (-d'.exponent).toNat =
      d'.digits * 10 ^ d'.exponent.toNat * 10 ^ (-d.exponent).toNat := by
    have ratio := d.value_mul
    have ratio' := d'.value_mul
    rw [same] at ratio
    have cast : (d.digits * 10 ^ d.exponent.toNat * 10 ^ (-d'.exponent).toNat : ℚ) =
        d'.digits * 10 ^ d'.exponent.toNat * 10 ^ (-d.exponent).toNat := by
      rw [← ratio, ← ratio']
      ring
    exact_mod_cast cast
  apply nearest_ratio
  · rw [Nat.mul_right_comm, ratios, Nat.mul_right_comm]
  · positivity
  · positivity

section Bounds

variable {b : Nat}

theorem le_rounded (above : 2 ^ b ≤ d.value * one) : 2 ^ b ≤ d.rounded := by
  apply le_nearest (by positivity)
  have scaled : (2 ^ b * 10 ^ (-d.exponent).toNat : ℚ) ≤
      d.digits * 10 ^ d.exponent.toNat * one := by
    rw [← value_mul, mul_right_comm d.value]
    exact mul_le_mul_of_nonneg_right above (by positivity)
  exact_mod_cast scaled

theorem rounded_le (below : d.value * one < 2 ^ b) : d.rounded ≤ 2 ^ b := by
  apply nearest_le (by positivity)
  have scaled : (d.digits * 10 ^ d.exponent.toNat * one : ℚ) <
      2 ^ b * 10 ^ (-d.exponent).toNat := by
    rw [← value_mul, mul_right_comm d.value]
    exact mul_lt_mul_of_pos_right below (by positivity)
  exact_mod_cast scaled

theorem rounded_of_half (below : 2 * (d.value * one) < 1) : d.rounded = 0 := by
  apply nearest_low
  have scaled : (2 * (d.digits * 10 ^ d.exponent.toNat * one) : ℚ) <
      10 ^ (-d.exponent).toNat := by
    rw [← value_mul, mul_right_comm d.value, ← mul_assoc]
    exact mul_lt_of_lt_one_left (by positivity) below
  exact_mod_cast scaled

end Bounds

theorem rounded_of_none (none : d.digits = 0) : d.rounded = 0 := by
  unfold rounded
  apply nearest_low
  rw [none, Nat.zero_mul, Nat.zero_mul]
  positivity

theorem rounded_high (some : d.digits ≠ 0) (high : 400 < d.exponent) : beyond ≤ d.rounded := by
  have down : (-d.exponent).toNat = 0 := by omega
  have room : scale + 1024 ≤ 3 * d.exponent.toNat + scale := by omega
  unfold rounded
  rw [down, Nat.pow_zero, beyond_eq]
  apply le_nearest Nat.one_pos
  rw [Nat.mul_one]
  calc 2 ^ (scale + 1024) ≤ 2 ^ (3 * d.exponent.toNat + scale) :=
        Nat.pow_le_pow_right (by decide) room
    _ = 1 * 8 ^ d.exponent.toNat * one := by rw [Nat.pow_add, Nat.pow_mul, one_eq, Nat.one_mul]
    _ ≤ d.digits * 10 ^ d.exponent.toNat * one :=
        Nat.mul_le_mul_right _
          (Nat.mul_le_mul (Nat.pos_of_ne_zero some) (Nat.pow_le_pow_left (by decide) _))

theorem rounded_low (low : d.exponent < -(d.digits.log2 + 1100 : Int)) : d.rounded = 0 := by
  have up : d.exponent.toNat = 0 := by omega
  have room : d.digits.log2 + 2 + scale ≤ (-d.exponent).toNat := by
    rw [scale_eq]
    omega
  unfold rounded
  rw [up, Nat.pow_zero, Nat.mul_one]
  apply nearest_low
  calc 2 * (d.digits * one) = d.digits * (2 * one) := by ring
    _ < 2 ^ (d.digits.log2 + 1) * (2 * one) :=
        Nat.mul_lt_mul_of_pos_right Nat.lt_log2_self (by rw [one_eq]; positivity)
    _ = 2 ^ (d.digits.log2 + 2 + scale) := by
        rw [one_eq]
        ring
    _ ≤ 2 ^ (-d.exponent).toNat := Nat.pow_le_pow_right (by decide) room
    _ ≤ 10 ^ (-d.exponent).toNat := Nat.pow_le_pow_left (by decide) _

/-- The bounds that spare the work far out of range do not show in the range of finite numbers. -/
theorem units_eq_iff (small : u < beyond) : d.units = u ↔ d.rounded = u := by
  unfold units
  split
  · next none => rw [rounded_of_none none]
  · next some =>
      split
      · next high =>
          have past := rounded_high some high
          unfold beyond at small past
          exact ⟨fun same => absurd same.symm (Nat.ne_of_lt small), fun same => by omega⟩
      · split
        · next low => rw [rounded_low low]
        · unfold rounded
          split
          · next up =>
              have down : (-d.exponent).toNat = 0 := by omega
              rw [down]
              rfl
          · next down =>
              have up : d.exponent.toNat = 0 := by omega
              rw [up, Nat.pow_zero, Nat.mul_one]
              rfl

theorem value_trim (d : Decimal) : d.trim.value = d.value := by
  fun_induction trim d with
  | case1 => rfl
  | case2 d ends again =>
      obtain ⟨some, last⟩ := not_or.mp ends
      have split : d.digits = d.digits / 10 * 10 := by omega
      have digits : (d.digits : ℚ) = (d.digits / 10 : Nat) * 10 := by exact_mod_cast split
      rw [again, value, value, digits, zpow_add_one₀ (by norm_num)]
      ring

end Decimal

namespace Number

open Decimal

variable {u : Nat}

theorem rounded_allDigits (grid : OnGrid u) : (allDigits u).rounded = u := by
  have tens : 5 ^ scale * one = 10 ^ scale := by rw [one_eq, ← Nat.mul_pow]
  have places : (-1074 : Int) = -scale := by rw [scale_eq, Nat.cast_ofNat]
  have all : allDigits u = ⟨u * 5 ^ scale, -scale⟩ := by
    unfold allDigits
    rw [← scale_eq, pow_eq, places]
  have up : (-(scale : Int)).toNat = 0 := by omega
  have down : (- -(scale : Int)).toNat = scale := by omega
  unfold rounded
  rw [all]
  dsimp only
  rw [up, down, Nat.pow_zero, Nat.mul_one, Nat.mul_assoc, tens]
  exact nearest_mul grid (by positivity)

theorem rounded_whole (grid : OnGrid u) (whole : u % one = 0) :
    rounded ⟨u / one, 0⟩ = u := by
  have same : u / one * one = u := Nat.div_mul_cancel (Nat.dvd_of_mod_eq_zero whole)
  have kept : nearest (u * 1) 1 = u := nearest_mul grid Nat.one_pos
  unfold rounded
  dsimp only
  rw [Int.neg_zero, Int.toNat_zero, Nat.pow_zero, Nat.mul_one, same]
  rwa [Nat.mul_one] at kept

theorem rounded_shortestUnits (grid : OnGrid u) (small : u < beyond) :
    (shortestUnits u).rounded = u := by
  unfold shortestUnits
  split
  · next none =>
      rw [none]
      exact rounded_of_none rfl
  · rw [rounded_of_value (value_trim _)]
    cases found : (List.range 17).findSome? fun n => withDigits u (n + 1) with
    | none => exact rounded_allDigits grid
    | some d =>
        obtain ⟨n, -, known⟩ := List.exists_of_findSome?_eq_some found
        have reads := List.find?_some known
        exact (units_eq_iff small).mp (of_decide_eq_true reads)

end Number

end Script
