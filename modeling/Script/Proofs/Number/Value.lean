import Mathlib
import Script.Proofs.Number.Order

/-!
The value of a number as a fraction.
-/

namespace Script

def withSign (negative : Bool) (q : ℚ) : ℚ := if negative then -q else q

namespace Number

/-- What a finite number is worth; both zeros are worth nothing. -/
def value (x : Number) : ℚ := withSign x.isNegative (x.units / one)

variable {x : Number} {n : Nat}

theorem one_pos : (0 : ℚ) < one := by
  rw [one_eq]
  exact_mod_cast Nat.two_pow_pos scale

theorem units_div_nonneg (x : Number) : 0 ≤ (x.units / one : ℚ) :=
  div_nonneg (Nat.cast_nonneg _) one_pos.le

theorem whole?_eq_some : x.whole? = some n ↔ x.isFinite = true ∧ (x.units / one : ℚ) = n := by
  have scaled : (x.units / one : ℚ) = n ↔ x.units = n * one := by
    rw [div_eq_iff one_pos.ne']
    norm_cast
  rw [scaled, whole?]
  have some : 0 < one := by exact_mod_cast one_pos
  constructor
  · intro known
    split at known
    · next whole =>
        cases known
        exact ⟨whole.1, (Nat.div_mul_cancel (Nat.dvd_of_mod_eq_zero whole.2)).symm⟩
    · cases known
  · rintro ⟨finite, units⟩
    rw [if_pos ⟨finite, by rw [units, Nat.mul_mod_left]⟩, units, Nat.mul_div_cancel n some]

theorem isWhole_iff (finite : x.isFinite) : x.isWhole = true ↔ ∃ n : ℤ, x.value = n := by
  rw [isWhole, Option.isSome_iff_exists]
  constructor
  · rintro ⟨n, known⟩
    have worth := (whole?_eq_some.mp known).2
    refine ⟨if x.isNegative then -n else n, ?_⟩
    rw [value, withSign, worth]
    split <;> simp
  · rintro ⟨n, worth⟩
    refine ⟨n.natAbs, whole?_eq_some.mpr ⟨finite, ?_⟩⟩
    have size : |x.value| = (x.units / one : ℚ) := by
      rw [value, withSign]
      split
      · rw [abs_neg, abs_of_nonneg x.units_div_nonneg]
      · rw [abs_of_nonneg x.units_div_nonneg]
    rw [← size, worth, Nat.cast_natAbs, Int.cast_abs]

theorem value_eq (finite : x.isFinite) :
    x.value = withSign (decide (x < 0)) (x.units / one) := by
  rw [value]
  by_cases negative : x.isNegative = true
  · by_cases none : x.units = 0
    · rw [none, Nat.cast_zero, zero_div, withSign, withSign, neg_zero, ite_self, ite_self]
    · rw [decide_eq_true ((lt_zero_iff finite).mpr ⟨negative, none⟩), negative]
  · rw [decide_eq_false fun below => negative ((lt_zero_iff finite).mp below).1,
      Bool.not_eq_true _ |>.mp negative]

theorem place?_eq_some : x.place? = some n ↔ x.isFinite = true ∧ x.value = n := by
  rw [place?]
  by_cases finite : x.isFinite
  · have worth := value_eq finite
    by_cases below : x < 0
    · have some := ((lt_zero_iff finite).mp below).2
      rw [decide_eq_true below] at worth
      have less : x.value < 0 := by
        rw [worth]
        exact neg_lt_zero.mpr (div_pos (Nat.cast_pos.mpr (Nat.pos_of_ne_zero some)) one_pos)
      rw [if_pos below]
      refine iff_of_false nofun fun known => ?_
      rw [known.2] at less
      exact absurd less (Nat.cast_nonneg n).not_gt
    · rw [decide_eq_false below] at worth
      rw [if_neg below, whole?_eq_some, worth]
      rfl
  · have none : x.whole? = none := if_neg fun whole => finite whole.1
    rw [none, ite_self]
    exact iff_of_false nofun fun known => finite known.1

end Number

end Script
