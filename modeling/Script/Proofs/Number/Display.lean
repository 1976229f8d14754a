import Mathlib
import Script.Proofs.Number.Value
import Script.Proofs.Number.Written

/-!
How numbers are shown. A number that is not whole is below `2 ^ 53`, where its shortest text has no
exponent yet. So each finite number is shown in one of four forms, which the bounds of the shortest
text and those of what programs see part without a gap.
-/

namespace Script

open Nat (ofDigitChars)

namespace Text

variable {mark : Char} {ds before after : List Char}

theorem partsAt_of_none (none : mark ∉ before) : partsAt mark before = [before] := by
  induction before with
  | nil => rfl
  | cons c cs again =>
      obtain ⟨first, rest⟩ := List.ne_and_not_mem_of_not_mem_cons none
      rw [partsAt, if_neg first.symm, again rest]
      rfl

theorem partsAt_append (none : mark ∉ before) (none' : mark ∉ after) :
    partsAt mark (before ++ mark :: after) = [before, after] := by
  induction before with
  | nil => rw [List.nil_append, partsAt, if_pos rfl, partsAt_of_none none']
  | cons c cs again =>
      obtain ⟨first, rest⟩ := List.ne_and_not_mem_of_not_mem_cons none
      rw [List.cons_append, partsAt, if_neg first.symm, again rest]
      rfl

theorem digitRow?_digits (more : ds ≠ []) (digits : ∀ c ∈ ds, c.isDigit) :
    digitRow? ds = some (ds.map asciiValue) := by
  fun_induction digitRow? ds with
  | case1 => exact absurd rfl more
  | case2 c =>
      rw [digitValue?_digit (digits c List.mem_cons_self)]
      rfl
  | case3 c rest again =>
      exact absurd (digits '_' (List.mem_cons_of_mem c List.mem_cons_self)) (by decide)
  | case4 c rest some other again =>
      obtain ⟨first, others⟩ := List.forall_mem_cons.mp digits
      have more : rest ≠ [] := some
      rw [digitValue?_digit first, again more others]
      rfl

theorem natural?_digits (more : ds ≠ []) (digits : ∀ c ∈ ds, c.isDigit)
    (short : ds.length ≤ mostDigits) : natural? ds = some (ofDigitChars 10 ds 0) := by
  have few : (ds.map asciiValue).length ≤ mostDigits := by rwa [List.length_map]
  rw [natural?, digitRow?_digits more digits, Option.bind_eq_bind, Option.bind_some, if_pos few,
    Decimal.ofDigits_eq_count, Decimal.count_digits]

theorem integer?_power {power : Int} {n : Nat}
    (short : (List.replicate n '0' ++ Nat.toDigits 10 power.natAbs).length ≤ mostDigits) :
    integer? (String.ofList (Decimal.powerSign power ::
      (List.replicate n '0' ++ Nat.toDigits 10 power.natAbs))) = some power := by
  have digits := padded_isDigit n power.natAbs
  have size := natural?_digits (List.append_ne_nil_of_right_ne_nil _ Nat.toDigits_ne_nil) digits short
  rw [ofDigitChars_padded] at size
  generalize List.replicate n '0' ++ Nat.toDigits 10 power.natAbs = ds at digits size
  have inside : ∀ c ∈ Decimal.powerSign power :: ds, isMargin c = false := by
    refine List.forall_mem_cons.mpr ⟨?_, fun c member => ?_⟩
    · unfold Decimal.powerSign
      split <;> rfl
    · rw [isMargin, isBlank_digit (isSome_digitValue? (digits c member)), Bool.false_and]
  rw [integer?, String.toList_ofList, trimBy_eq_self inside]
  rcases le_or_gt 0 power with up | down
  · have sign : Decimal.powerSign power = '+' := if_pos up
    rw [sign]
    show ((natural? ds).bind fun n => some (n : Int)).map (fun n => n) = some power
    rw [size]
    exact congrArg some (Int.natAbs_of_nonneg up)
  · have sign : Decimal.powerSign power = '-' := if_neg down.not_ge
    rw [sign]
    show ((natural? ds).bind fun n => some (n : Int)).map (fun n => -n) = some power
    rw [size]
    have below : -(power.natAbs : Int) = power := by omega
    exact congrArg some below

end Text

namespace Number

open Decimal

section Texts

variable {text : String} {negative : Bool} {d : Decimal} {n : Nat}

theorem spread?_of_spells (spells : Spells text.toList negative d) :
    ∃ shown, spread? text = some shown ∧
      shown.toList = minus negative ++ (d.plain "").toList := by
  rw [spread?, read?_eq_some.mpr spells, Option.map_some]
  exact ⟨_, rfl, by rw [String.toList_append, minus_toList]⟩

theorem shorten?_exponential (same : text.toList = minus negative ++ d.exponential n)
    (some : d.power ≠ 0)
    (short : (List.replicate n '0' ++ Nat.toDigits 10 d.power.natAbs).length ≤ Text.mostDigits) :
    ∃ shown, shorten? text = Option.some shown ∧
      shown.toList = minus negative ++ d.exponential 0 := by
  have first : 'e' ∉ minus negative ++ mantissa (Nat.toDigits 10 d.digits) := by
    rw [List.mem_append, not_or]
    refine ⟨?_, mantissa_not_mem_e (toDigits_isDigit _)⟩
    cases negative <;> decide
  have last : 'e' ∉ powerSign d.power ::
      (List.replicate n '0' ++ Nat.toDigits 10 d.power.natAbs) := by
    rw [List.mem_cons, not_or]
    refine ⟨?_, fun member => absurd (padded_isDigit _ _ 'e' member) (by decide)⟩
    unfold powerSign
    split <;> decide
  have parts := Text.partsAt_append first last
  rw [List.append_assoc, ← exponential, ← same] at parts
  have sign : (if 0 < d.power then "+" else "-").toList = [powerSign d.power] := by
    unfold powerSign
    rcases lt_or_gt_of_ne some with down | up
    · rw [if_neg (by omega), if_neg (by omega)]
      rfl
    · rw [if_pos up, if_pos up.le]
      rfl
  rw [shorten?, parts]
  dsimp only
  rw [Text.integer?_power short, Option.map_some]
  refine ⟨_, rfl, ?_⟩
  rw [exponential]
  simp only [String.toList_append, String.toList_ofList, sign, Nat.toString_eq_repr,
    Nat.toList_repr, List.append_assoc, List.replicate_zero, List.nil_append]
  rfl

end Texts

variable {x : Number}

section Repr

/-- A magnitude that `repr` writes without an exponent. -/
def Short (x : Number) : Prop := x.abs = 0 ∨ 1e-4 ≤ x.abs ∧ x.abs < 1e16

theorem short_iff_fits :
    (decide (x.abs = 0) || decide (1e-4 ≤ x.abs) && decide (x.abs < 1e16)) = true ↔ x.Short := by
  rw [Bool.or_eq_true, Bool.and_eq_true, decide_eq_true_iff, decide_eq_true_iff,
    decide_eq_true_iff]
  rfl

theorem repr_toList_short (short : x.Short) :
    x.repr.toList = minus x.isNegative ++ (x.shortest.plain ".0").toList := by
  rw [repr, String.toList_append, minus_toList, if_pos (short_iff_fits.mpr short)]

theorem repr_toList_long (long : ¬ x.Short) : x.repr.toList = minus x.isNegative ++
    x.shortest.exponential (2 - (Nat.toDigits 10 x.shortest.power.natAbs).length) := by
  rw [repr, String.toList_append, minus_toList, if_neg (mt short_iff_fits.mp long),
    scientific_toList]

theorem not_mem_minus (negative : Bool) : 'e' ∉ minus negative := by
  cases negative <;> decide

theorem mem_repr (x : Number) : 'e' ∈ x.repr.toList ↔ ¬ x.Short := by
  by_cases short : x.Short
  · rw [repr_toList_short short, List.mem_append, or_iff_right (not_mem_minus _)]
    exact iff_of_false (plain_worth (.inr rfl) x.shortest).1.not_mem_e (not_not.mpr short)
  · rw [repr_toList_long short, exponential]
    exact iff_of_true (by simp) short

theorem repr_spells (x : Number) :
    ∃ d, Spells x.repr.toList x.isNegative d ∧ d.value = x.shortest.value := by
  by_cases short : x.Short
  · obtain ⟨numeral, d, spells, value⟩ := plain_worth (.inr rfl) x.shortest
    rw [repr_toList_short short]
    exact ⟨d, spells.minus numeral.unsigned _, value⟩
  · rw [repr_toList_long short]
    exact ⟨_, (exponential_spells _ _).minus (exponential_unsigned _ _) _, rfl⟩

end Repr

section Bounds

theorem rounded_shortest (finite : x.isFinite) : x.shortest.rounded = x.units :=
  rounded_shortestUnits (units_onGrid finite) (units_lt finite)

theorem shortest_digits (finite : x.isFinite) (some : x.units ≠ 0) : 0 < x.shortest.digits := by
  rw [Nat.pos_iff_ne_zero]
  intro none
  rw [← rounded_shortest finite, rounded_of_none none] at some
  exact some rfl

theorem le_power (finite : x.isFinite) (some : x.units ≠ 0) : -1100 ≤ x.shortest.power := by
  by_contra small
  have high := (value_power (shortest_digits finite some)).2
  have tiny : x.shortest.value ≤ 10 ^ (-1100 : ℤ) :=
    high.le.trans (zpow_le_zpow_right₀ (by norm_num) (by omega))
  have room : (2 : ℚ) ^ (scale + 1) < 10 ^ 1100 := by
    calc (2 : ℚ) ^ (scale + 1) < 2 ^ 1100 := by
          rw [scale_eq]
          exact pow_lt_pow_right₀ (by norm_num) (by norm_num)
      _ ≤ 10 ^ 1100 := pow_le_pow_left₀ (by norm_num) (by norm_num) _
  -- so small a decimal is rounded to zero
  apply some
  rw [← rounded_shortest finite]
  apply rounded_of_half
  rw [one_eq, Nat.cast_pow, Nat.cast_ofNat]
  calc 2 * (x.shortest.value * 2 ^ scale) ≤ 2 * (10 ^ (-1100 : ℤ) * 2 ^ scale) := by gcongr
    _ = 2 ^ (scale + 1) / 10 ^ 1100 := by
        rw [zpow_neg, pow_succ, div_eq_inv_mul, mul_left_comm, mul_comm (2 : ℚ) (2 ^ scale)]
        rfl
    _ < 1 := (div_lt_one (by positivity)).mpr room

theorem power_lt (finite : x.isFinite) (some : x.units ≠ 0) : x.shortest.power < 1100 := by
  by_contra large
  have low := (value_power (shortest_digits finite some)).1
  have huge : (2 : ℚ) ^ 1024 ≤ x.shortest.value := by
    calc (2 : ℚ) ^ 1024 ≤ 10 ^ 1024 := pow_le_pow_left₀ (by norm_num) (by norm_num) _
      _ = 10 ^ (1024 : ℤ) := rfl
      _ ≤ 10 ^ x.shortest.power := zpow_le_zpow_right₀ (by norm_num) (by omega)
      _ ≤ x.shortest.value := low
  -- so large a decimal is rounded past all finite numbers
  have past : 2 ^ (scale + 1024) ≤ x.shortest.rounded := by
    apply le_rounded
    rw [one_eq, pow_add, mul_comm, Nat.cast_pow, Nat.cast_ofNat]
    exact mul_le_mul_of_nonneg_right huge (by positivity)
  rw [rounded_shortest finite, ← beyond_eq] at past
  exact (units_lt finite).not_ge past

theorem units_one : units 1 = one := by
  decide +kernel

theorem bounds_order : units 1e-6 < units 1e-4 ∧ units 1e-4 < units 1 ∧ units 1 < units 1e16 ∧
    units 1e16 < units 1e21 := by
  decide +kernel

theorem short_iff (finite : x.isFinite) :
    x.Short ↔ x.units = 0 ∨ units 1e-4 ≤ x.units ∧ x.units < units 1e16 := by
  rw [Short, abs_eq_zero_iff finite, le_abs_iff finite (by decide) (by decide),
    abs_lt_iff finite (by decide) (by decide)]

theorem short_of_power (finite : x.isFinite) (some : x.units ≠ 0) (place : x.shortest.power = 0) :
    x.Short := by
  obtain ⟨low, high⟩ := value_power (shortest_digits finite some)
  rw [place] at low high
  have least : 2 ^ scale ≤ x.units := by
    rw [← rounded_shortest finite]
    apply le_rounded
    rw [one_eq, Nat.cast_pow, Nat.cast_ofNat]
    exact le_mul_of_one_le_left (by positivity) low
  have limit : x.units ≤ 2 ^ (scale + 4) := by
    rw [← rounded_shortest finite]
    apply rounded_le
    rw [one_eq, pow_add, mul_comm, Nat.cast_pow, Nat.cast_ofNat]
    exact mul_lt_mul_of_pos_left (high.trans (by norm_num)) (by positivity)
  have small := bounds_order.2.1.le
  have large : one * 2 ^ 4 < units 1e16 := by decide +kernel
  rw [units_one, one_eq] at small
  rw [one_eq, ← Nat.pow_add] at large
  exact (short_iff finite).mpr (.inr ⟨small.trans least, limit.trans_lt large⟩)

theorem isWhole_iff_mod : x.isWhole = true ↔ x.isFinite = true ∧ x.units % one = 0 := by
  rw [isWhole, whole?, Option.isSome_iff_exists]
  constructor
  · rintro ⟨n, known⟩
    by_contra part
    rw [if_neg part] at known
    cases known
  · intro whole
    exact ⟨_, if_pos whole⟩

theorem units_lt_of_part (finite : x.isFinite) (part : ¬ x.isWhole = true) :
    x.units < one * 2 ^ 53 := by
  obtain ⟨m, k, known, small, -⟩ := units_form finite
  have low : k < scale := by
    by_contra high
    have divides : one ∣ x.units := by
      rw [known, one_eq]
      exact Dvd.dvd.mul_left (Nat.pow_dvd_pow 2 (Nat.le_of_not_lt high)) m
    exact part (isWhole_iff_mod.mpr ⟨finite, Nat.mod_eq_zero_of_dvd divides⟩)
  calc x.units = m * 2 ^ k := known
    _ < 2 ^ 53 * 2 ^ k := Nat.mul_lt_mul_of_pos_right small (by positivity)
    _ ≤ 2 ^ 53 * 2 ^ scale := Nat.mul_le_mul_left _ (Nat.pow_le_pow_right (by decide) low.le)
    _ = one * 2 ^ 53 := by rw [one_eq, Nat.mul_comm]

/-- A number that is not whole is too small for its shortest text to have an exponent for its size. -/
theorem abs_lt_of_part (finite : x.isFinite) (part : ¬ x.isWhole = true) : x.abs < 1e16 := by
  have room : one * 2 ^ 53 ≤ units 1e16 := by decide +kernel
  rw [abs_lt_iff finite (by decide) (by decide)]
  exact (units_lt_of_part finite part).trans_le room

end Bounds

section Forms

def Full (x : Number) : Prop := x.isWhole = true ∧ x.abs < 1e21

theorem full_iff_fits : (x.isWhole && decide (x.abs < 1e21)) = true ↔ x.Full := by
  rw [Bool.and_eq_true, decide_eq_true_iff]
  rfl

theorem Full.whole?_eq (full : x.Full) : x.whole? = some (x.units / one) :=
  if_pos (isWhole_iff_mod.mp full.1)

theorem Full.rounded_eq (full : x.Full) : Decimal.rounded ⟨x.units / one, 0⟩ = x.units := by
  obtain ⟨finite, whole⟩ := isWhole_iff_mod.mp full.1
  exact rounded_whole (units_onGrid finite) whole

/-- Too small or too large to be shown without an exponent. -/
def Far (x : Number) : Prop := x.units ≠ 0 ∧ (x.abs < 1e-6 ∨ 1e21 ≤ x.abs)

/-- The four forms that finite numbers are shown in. -/
inductive Displays (x : Number) : List Char → Prop
  | full (full : x.Full) :
      Displays x (minus (decide (x < 0)) ++ Nat.toDigits 10 (x.units / one))
  | short (other : ¬ x.Full) (short : x.Short) :
      Displays x (minus x.isNegative ++ (x.shortest.plain ".0").toList)
  | spread (other : ¬ x.Full) (least : 1e-6 ≤ x.abs) (limit : x.abs < 1e-4) :
      Displays x (minus x.isNegative ++ (x.shortest.plain "").toList)
  | far (other : ¬ x.Full) (far : x.Far) :
      Displays x (minus x.isNegative ++ x.shortest.exponential 0)

/-- The bounds `1e-6`, `1e-4`, `1e16` and `1e21` leave no gap. Between the last two there are whole
numbers alone, so that an exponent for the size of a number is one that programs see. -/
theorem far_of_long (finite : x.isFinite) (other : ¬ x.Full) (long : ¬ x.Short) :
    (1e-6 ≤ x.abs ∧ x.abs < 1e-4 ∧ x.abs < 1) ∨ ¬ (1e-6 ≤ x.abs ∧ x.abs < 1) ∧ x.Far := by
  have bound (y : Number) (known : y.isFinite ∧ y.isNegative = false) :
      (x.abs < y ↔ x.units < y.units) ∧ (y ≤ x.abs ↔ y.units ≤ x.units) :=
    ⟨abs_lt_iff finite known.1 known.2, le_abs_iff finite known.1 known.2⟩
  have order := bounds_order
  have part : x.isWhole = true → units 1e21 ≤ x.units := by
    intro whole
    have large : ¬ x.abs < 1e21 := fun small => other ⟨whole, small⟩
    rwa [(bound 1e21 (by decide)).1, Nat.not_lt] at large
  have whole : units 1e16 ≤ x.units → x.isWhole = true := by
    intro large
    by_contra part
    have small := abs_lt_of_part finite part
    rw [(bound 1e16 (by decide)).1] at small
    omega
  rw [short_iff finite] at long
  rw [Far, (bound 1e-6 (by decide)).1, (bound 1e-6 (by decide)).2, (bound 1e-4 (by decide)).1,
    (bound 1 (by decide)).1, (bound 1e21 (by decide)).2]
  by_cases size : units 1e16 ≤ x.units
  · have huge := part (whole size)
    omega
  · omega

theorem padded_length (finite : x.isFinite) (some : x.units ≠ 0) :
    (List.replicate (2 - (Nat.toDigits 10 x.shortest.power.natAbs).length) '0' ++
      Nat.toDigits 10 x.shortest.power.natAbs).length ≤ Text.mostDigits := by
  have low := le_power finite some
  have high := power_lt finite some
  have short : (Nat.toDigits 10 x.shortest.power.natAbs).length ≤ 4 :=
    (Nat.length_toDigits_le_iff (by decide) (by decide)).mpr (by omega)
  rw [List.length_append, List.length_replicate, Text.mostDigits]
  omega

section Branches

variable (finite : x.isFinite)

include finite

theorem display?_finite : x.display? =
    if x.isWhole && x.abs < 1e21 then
      some ((if x < 0 then "-" else "") ++ toString (x.units / one))
    else if x.repr.toList.contains 'e' && 1e-6 ≤ x.abs && x.abs < 1 then spread? x.repr
    else if x.repr.toList.contains 'e' then shorten? x.repr
    else some x.repr := by
  rw [display?, isNaN_of_finite finite, if_neg Bool.false_ne_true, isInf_of_finite finite,
    if_neg Bool.false_ne_true]

theorem display?_full (full : x.Full) :
    x.display? = some ((if x < 0 then "-" else "") ++ toString (x.units / one)) := by
  rw [display?_finite finite, if_pos (full_iff_fits.mpr full)]

theorem display?_short (other : ¬ x.Full) (short : x.Short) : x.display? = some x.repr := by
  have plain : x.repr.toList.contains 'e' = false := by
    rw [← Bool.not_eq_true, List.contains_iff_mem, mem_repr]
    exact not_not.mpr short
  rw [display?_finite finite, if_neg (mt full_iff_fits.mp other), plain, Bool.false_and,
    Bool.false_and, if_neg Bool.false_ne_true, if_neg Bool.false_ne_true]

theorem display?_long (other : ¬ x.Full) (long : ¬ x.Short) : x.display? =
    if 1e-6 ≤ x.abs ∧ x.abs < 1 then spread? x.repr else shorten? x.repr := by
  have marked : x.repr.toList.contains 'e' = true := by
    rw [List.contains_iff_mem, mem_repr]
    exact long
  rw [display?_finite finite, if_neg (mt full_iff_fits.mp other), marked, Bool.true_and, if_pos rfl]
  simp only [Bool.and_eq_true, decide_eq_true_eq]

theorem display?_displays : ∃ text, x.display? = some text ∧ x.Displays text.toList := by
  by_cases full : x.Full
  · rw [display?_full finite full]
    refine ⟨_, rfl, ?_⟩
    have sign : (if x < 0 then "-" else "").toList = minus (decide (x < 0)) := by
      rw [← minus_toList]
      by_cases below : x < 0 <;> simp [below]
    rw [String.toList_append, sign, Nat.toString_eq_repr, Nat.toList_repr]
    exact .full full
  by_cases short : x.Short
  · rw [display?_short finite full short]
    refine ⟨_, rfl, ?_⟩
    rw [repr_toList_short short]
    exact .short full short
  have text := repr_toList_long short
  rw [display?_long finite full short]
  rcases far_of_long finite full short with ⟨least, limit, one⟩ | ⟨apart, far⟩
  · have spells : Spells x.repr.toList x.isNegative x.shortest := by
      rw [text]
      exact (exponential_spells _ _).minus (exponential_unsigned _ _) _
    obtain ⟨shown, known, same⟩ := spread?_of_spells spells
    rw [if_pos ⟨least, one⟩]
    refine ⟨shown, known, ?_⟩
    rw [same]
    exact .spread full least limit
  · have power : x.shortest.power ≠ 0 := fun none => short (short_of_power finite far.1 none)
    obtain ⟨shown, known, same⟩ := shorten?_exponential text power (padded_length finite far.1)
    rw [if_neg apart]
    refine ⟨shown, known, ?_⟩
    rw [same]
    exact .far full far

end Branches

theorem display?_eq (finite : x.isFinite) : x.display? = some x.display := by
  obtain ⟨text, known, -⟩ := display?_displays finite
  rw [display, known, Option.getD_some]

theorem displays (finite : x.isFinite) : x.Displays x.display.toList := by
  obtain ⟨text, known, shown⟩ := display?_displays finite
  rwa [display, known, Option.getD_some]

end Forms

/-- A number that is written in full: a zero without a sign or one that needs no exponent. -/
structure Plain (x : Number) : Prop where
  finite : x.isFinite
  size : x = 0 ∨ 1e-6 ≤ x.abs ∧ x.abs < 1e21

theorem Plain.units_ne_zero (plain : x.Plain) (negative : x.isNegative = true) : x.units ≠ 0 := by
  intro none
  have same : ofUnits true 0 = x := by
    rw [← negative, ← none]
    exact ofUnits_units plain.finite
  rcases plain.size with rfl | ⟨large, -⟩
  · exact absurd negative (by decide)
  · rw [← same] at large
    exact absurd large (by decide)

theorem Plain.lt_zero_iff (plain : x.Plain) : x < 0 ↔ x.isNegative = true := by
  rw [Number.lt_zero_iff plain.finite]
  exact and_iff_left_of_imp plain.units_ne_zero

theorem Plain.not_far (plain : x.Plain) : ¬ x.Far := by
  rintro ⟨some, far⟩
  rcases plain.size with rfl | ⟨least, limit⟩
  · exact some (by decide)
  · have number := isNaN_of_finite plain.finite
    have size := (rank_abs number).1
    rcases far with low | high
    · exact (not_le_iff (by decide) size).mpr low least
    · exact (not_le_iff (by decide) size).mpr limit high

theorem value_of_writes {word : List Char} (finite : x.isFinite) (writes : Writes word x.units) :
    (if x.isNegative then -Lexeme.numberValue word else Lexeme.numberValue word) = x := by
  obtain ⟨-, d, reads, rounded⟩ := writes
  have units : d.units = x.units := (Decimal.units_eq_iff (units_lt finite)).mpr rounded
  have value : Lexeme.numberValue word = ofUnits false x.units := by
    rw [Lexeme.numberValue, reads, ← units]
    rfl
  have whole := ofUnits_units finite
  rw [value]
  split
  · next negative =>
      rw [negative] at whole
      rw [neg_ofUnits, whole]
  · next positive =>
      rw [Bool.not_eq_true] at positive
      rwa [positive] at whole

theorem Plain.display_eq (plain : x.Plain) : ∃ word, Writes word x.units ∧
    x.display.toList = minus x.isNegative ++ word := by
  have written {wholeEnd : String} (tails : wholeEnd = "" ∨ wholeEnd = ".0") :
      Writes (x.shortest.plain wholeEnd).toList x.units := by
    rw [← rounded_shortest plain.finite]
    exact (plain_worth tails x.shortest).writes
  have shown := displays plain.finite
  generalize x.display.toList = text at shown
  cases shown with
  | full full =>
      have sign : decide (x < 0) = x.isNegative := by
        rw [Bool.eq_iff_iff, decide_eq_true_iff]
        exact plain.lt_zero_iff
      have writes := (Worth.toDigits (x.units / one)).writes
      rw [full.rounded_eq] at writes
      rw [sign]
      exact ⟨_, writes, rfl⟩
  | short other short => exact ⟨_, written (.inr rfl), rfl⟩
  | spread other least limit => exact ⟨_, written (.inl rfl), rfl⟩
  | far other far => exact absurd far plain.not_far

end Number

end Script
