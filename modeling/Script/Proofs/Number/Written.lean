import Mathlib
import Script.Number.Layout
import Script.Proofs.Number.Reading
import Script.Proofs.Token.Spelling

/-!
Decimals written out. Wherever the point is put and whatever power of ten is left for an exponent,
the text spells the decimal it was made from, or one that is worth as much.
-/

namespace Script

open Nat (ofDigitChars)
open Text (asciiValue)

def minus (negative : Bool) : List Char := if negative then ['-'] else []

theorem minus_toList (negative : Bool) : (if negative then "-" else "").toList = minus negative := by
  cases negative <;> rfl

section Digits

variable {ds fs : List Char}

theorem toDigits_isDigit (n : Nat) : ∀ c ∈ Nat.toDigits 10 n, c.isDigit := fun _ member =>
  Nat.isDigit_of_mem_toDigits (by decide) (by decide) member

theorem zeros_isDigit (n : Nat) : ∀ c ∈ List.replicate n '0', c.isDigit := by
  intro c member
  rw [List.eq_of_mem_replicate member]
  rfl

theorem padded_isDigit (n k : Nat) : ∀ c ∈ List.replicate n '0' ++ Nat.toDigits 10 k, c.isDigit :=
  List.forall_mem_append.mpr ⟨zeros_isDigit n, toDigits_isDigit k⟩

theorem ofDigitChars_padded (n k : Nat) :
    ofDigitChars 10 (List.replicate n '0' ++ Nat.toDigits 10 k) 0 = k := by
  rw [Nat.ofDigitChars_append, Nat.ofDigitChars_replicate_zero, Nat.mul_zero,
    Nat.ofDigitChars_ten_toDigits]

theorem toDigits_head {n : Nat} (some : 0 < n) : (Nat.toDigits 10 n).head? ≠ Option.some '0' := by
  induction n using Nat.strong_induction_on with
  | h n again =>
      rcases Nat.lt_or_ge n 10 with small | large
      · have digit : ∀ n < 10, 0 < n → [n.digitChar].head? ≠ Option.some '0' := by decide
        rw [Nat.toDigits_of_lt_base small]
        exact digit n small some
      · have more := again (n / 10) (Nat.div_lt_self some (by decide)) (by omega)
        rw [Nat.toDigits_of_base_le (by decide) large, List.head?_append_of_ne_nil _ Nat.toDigits_ne_nil]
        exact more

namespace Decimal

theorem count_digits (ds : List Char) : count (ds.map asciiValue) = ofDigitChars 10 ds 0 := by
  rw [← ofDigits_eq_count, Text.ofDigits, List.foldl_map, Nat.ofDigitChars_eq_foldl]
  rfl

theorem digits_of_isDigit (digits : ∀ c ∈ ds, c.isDigit) : Digits ds (ds.map asciiValue) := by
  induction ds with
  | nil => exact .nil
  | cons c ds again =>
      obtain ⟨first, others⟩ := List.forall_mem_cons.mp digits
      exact .cons (Text.digitValue?_digit first) (again others)

theorem Spells.whole (more : ds ≠ []) (digits : ∀ c ∈ ds, c.isDigit) :
    Spells ds false ⟨ofDigitChars 10 ds 0, 0⟩ := by
  have spells := Spells.mk .none (.whole (digits_of_isDigit digits) more) .none
  rwa [List.append_nil, List.append_nil, count_digits] at spells

theorem Spells.fraction (more : ds ≠ []) (digits : ∀ c ∈ ds, c.isDigit)
    (decimals : ∀ c ∈ fs, c.isDigit) :
    Spells (ds ++ '.' :: fs) false ⟨ofDigitChars 10 (ds ++ fs) 0, -fs.length⟩ := by
  have spells := Spells.mk .none
    (.point (digits_of_isDigit digits) more (digits_of_isDigit decimals)) .none
  rwa [List.append_nil, ← List.map_append, count_digits, List.length_map, Int.zero_sub] at spells

theorem Spells.minus {cs : List Char} {d : Decimal} (spells : Spells cs false d)
    (free : Unsigned cs) (negative : Bool) : Spells (Script.minus negative ++ cs) negative d := by
  cases negative with
  | false => exact spells
  | true =>
      obtain ⟨signs, digits, powers⟩ := spells
      cases signs with
      | none =>
          have below := Spells.mk .minus digits powers
          exact below
      | plus => exact absurd rfl (free '+' rfl).2

theorem read?_whole (more : ds ≠ []) (digits : ∀ c ∈ ds, c.isDigit) :
    read? ds = some (false, ⟨ofDigitChars 10 ds 0, 0⟩) :=
  read?_eq_some.mpr (.whole more digits)

theorem read?_fraction (more : ds ≠ []) (digits : ∀ c ∈ ds, c.isDigit)
    (decimals : ∀ c ∈ fs, c.isDigit) :
    read? (ds ++ '.' :: fs) = some (false, ⟨ofDigitChars 10 (ds ++ fs) 0, -fs.length⟩) :=
  read?_eq_some.mpr (.fraction more digits decimals)

end Decimal

end Digits

namespace Lexeme.Numeral

variable {word : List Char}

theorem unsigned (numeral : Numeral word) : Decimal.Unsigned word := by
  cases numeral with
  | whole some digits =>
      have free := (Decimal.digits_of_isDigit digits).unsigned some []
      rwa [List.append_nil] at free
  | fraction some digits => exact (Decimal.digits_of_isDigit digits).unsigned some _

theorem not_mem_e (numeral : Numeral word) : 'e' ∉ word := by
  cases numeral with
  | whole some digits => exact fun member => absurd (digits 'e' member) (by decide)
  | fraction some digits more decimals =>
      rw [List.mem_append, List.mem_cons]
      rintro (before | point | behind)
      · exact absurd (digits 'e' before) (by decide)
      · exact absurd point (by decide)
      · exact absurd (decimals 'e' behind) (by decide)

/-- The general reader makes of a literal what it is worth. -/
theorem parse?_eq (numeral : Numeral word) : Number.parse? word = some (numberValue word) := by
  have spelt : ∃ d, Decimal.Spells word false d := by
    cases numeral with
    | whole some digits => exact ⟨_, .whole some digits⟩
    | fraction some digits more decimals => exact ⟨_, .fraction some digits decimals⟩
  obtain ⟨d, spells⟩ := spelt
  rw [Number.parse?_of_plain (Number.not_foreign_of_spells spells), numberValue,
    Decimal.read?_eq_some.mpr spells]
  rfl

end Lexeme.Numeral

def Writes (word : List Char) (u : Nat) : Prop :=
  Lexeme.Numeral word ∧ ∃ d, Decimal.read? word = some (false, d) ∧ d.rounded = u

/-- The text is a literal, and its decimal is worth `q`. -/
def Worth (word : List Char) (q : ℚ) : Prop :=
  Lexeme.Numeral word ∧ ∃ d, Decimal.Spells word false d ∧ d.value = q

namespace Worth

variable {ds fs : List Char}

theorem writes {word : List Char} {d : Decimal} (worth : Worth word d.value) :
    Writes word d.rounded := by
  obtain ⟨numeral, d', spells, value⟩ := worth
  exact ⟨numeral, d', Decimal.read?_eq_some.mpr spells, Decimal.rounded_of_value value⟩

theorem whole (more : ds ≠ []) (digits : ∀ c ∈ ds, c.isDigit) :
    Worth ds (Decimal.value ⟨ofDigitChars 10 ds 0, 0⟩) :=
  ⟨.whole more digits, _, .whole more digits, rfl⟩

theorem toDigits (n : Nat) : Worth (Nat.toDigits 10 n) (Decimal.value ⟨n, 0⟩) := by
  have worth := whole Nat.toDigits_ne_nil (toDigits_isDigit n)
  rwa [Nat.ofDigitChars_ten_toDigits] at worth

theorem fraction (more : ds ≠ []) (digits : ∀ c ∈ ds, c.isDigit) (others : fs ≠ [])
    (decimals : ∀ c ∈ fs, c.isDigit) :
    Worth (ds ++ '.' :: fs) (Decimal.value ⟨ofDigitChars 10 (ds ++ fs) 0, -fs.length⟩) :=
  ⟨.fraction more digits others decimals, _, .fraction more digits decimals, rfl⟩

theorem value_zeros (ds : List Char) (n : Nat) (exponent : Int) :
    Decimal.value ⟨ofDigitChars 10 (ds ++ List.replicate n '0') 0, exponent⟩ =
      Decimal.value ⟨ofDigitChars 10 ds 0, exponent + n⟩ := by
  rw [Nat.ofDigitChars_append, Nat.ofDigitChars_replicate_zero, Decimal.value, Decimal.value,
    zpow_add₀ (by norm_num), zpow_natCast]
  push_cast
  ring

theorem before (more : ds ≠ []) (digits : ∀ c ∈ ds, c.isDigit) (n : Nat) :
    Worth ('0' :: '.' :: (List.replicate n '0' ++ ds))
      (Decimal.value ⟨ofDigitChars 10 ds 0, -(n + ds.length : Nat)⟩) := by
  have decimals : ∀ c ∈ List.replicate n '0' ++ ds, c.isDigit :=
    List.forall_mem_append.mpr ⟨zeros_isDigit n, digits⟩
  have worth := fraction (List.cons_ne_nil '0' []) (zeros_isDigit 1)
    (List.append_ne_nil_of_right_ne_nil (List.replicate n '0') more) decimals
  have value : ofDigitChars 10 (['0'] ++ (List.replicate n '0' ++ ds)) 0 =
      ofDigitChars 10 ds 0 := by
    show ofDigitChars 10 (List.replicate n '0' ++ ds) 0 = _
    rw [Nat.ofDigitChars_append, Nat.ofDigitChars_replicate_zero, Nat.mul_zero]
  rwa [value, List.length_append, List.length_replicate] at worth

theorem behind (more : ds ≠ []) (digits : ∀ c ∈ ds, c.isDigit) (n : Nat) {tail : List Char}
    (tails : tail = [] ∨ tail = ['.', '0']) :
    Worth (ds ++ List.replicate n '0' ++ tail) (Decimal.value ⟨ofDigitChars 10 ds 0, n⟩) := by
  have more' := List.append_ne_nil_of_left_ne_nil more (List.replicate n '0')
  have digits' : ∀ c ∈ ds ++ List.replicate n '0', c.isDigit :=
    List.forall_mem_append.mpr ⟨digits, zeros_isDigit n⟩
  rcases tails with rfl | rfl
  · have worth := whole more' digits'
    rwa [value_zeros, Int.zero_add, ← List.append_nil (ds ++ _)] at worth
  · have worth := fraction more' digits' (List.cons_ne_nil '0' []) (zeros_isDigit 1)
    have zero : ds ++ List.replicate n '0' ++ ['0'] = ds ++ List.replicate (n + 1) '0' := by
      rw [List.append_assoc, ← List.replicate_succ']
    have place : -((['0'] : List Char).length : Int) + (n + 1 : Nat) = n := by simp
    rwa [zero, value_zeros, place] at worth

theorem between (digits : ∀ c ∈ ds, c.isDigit) {n : Nat} (some : 0 < n) (within : n < ds.length) :
    Worth (ds.take n ++ '.' :: ds.drop n)
      (Decimal.value ⟨ofDigitChars 10 ds 0, -(ds.length - n : Nat)⟩) := by
  have first : ds.take n ≠ [] := by
    rw [← List.length_pos_iff, List.length_take]
    omega
  have last : ds.drop n ≠ [] := by
    rw [← List.length_pos_iff, List.length_drop]
    omega
  have worth := fraction first (fun c member => digits c (List.mem_of_mem_take member)) last
    fun c member => digits c (List.mem_of_mem_drop member)
  rwa [List.take_append_drop, List.length_drop] at worth

end Worth

namespace Decimal

theorem plain_worth {wholeEnd : String} (tails : wholeEnd = "" ∨ wholeEnd = ".0") (d : Decimal) :
    Worth (d.plain wholeEnd).toList d.value := by
  have digits := toDigits_isDigit d.digits
  have more : Nat.toDigits 10 d.digits ≠ [] := Nat.toDigits_ne_nil
  have value {exponent : Int} (same : exponent = d.exponent) :
      Decimal.value ⟨ofDigitChars 10 (Nat.toDigits 10 d.digits) 0, exponent⟩ = d.value := by
    rw [Nat.ofDigitChars_ten_toDigits, same]
  unfold plain zeros
  dsimp only
  generalize Nat.toDigits 10 d.digits = ds at digits more value ⊢
  generalize known : d.exponent + ds.length = place
  split
  · next small =>
      have worth := Worth.before more digits (-place).toNat
      rw [value (by omega)] at worth
      simpa using worth
  · next large =>
      split
      · next short =>
          have tails' : wholeEnd.toList = [] ∨ wholeEnd.toList = ['.', '0'] :=
            tails.imp (congrArg String.toList) (congrArg String.toList)
          have worth := Worth.behind more digits (place.toNat - ds.length) tails'
          rw [value (by omega)] at worth
          simpa using worth
      · next long =>
          have worth := Worth.between digits (n := place.toNat) (by omega) (by omega)
          rw [value (by omega)] at worth
          simpa using worth

section Exponent

variable {ds : List Char}

def mantissa (ds : List Char) : List Char :=
  ds.take 1 ++ if ds.length ≤ 1 then [] else '.' :: ds.drop 1

def powerSign (power : Int) : Char := if 0 ≤ power then '+' else '-'

/-- The power of ten that is left when the point stands behind the first digit. -/
def power (d : Decimal) : Int := d.exponent + (Nat.toDigits 10 d.digits).length - 1

def exponential (d : Decimal) (n : Nat) : List Char :=
  mantissa (Nat.toDigits 10 d.digits) ++ 'e' :: powerSign d.power ::
    (List.replicate n '0' ++ Nat.toDigits 10 d.power.natAbs)

theorem scientific_toList (d : Decimal) :
    d.scientific.toList = d.exponential (2 - (Nat.toDigits 10 d.power.natAbs).length) := by
  have fraction (ds : List Char) :
      (if ds.length ≤ 1 then "" else "." ++ String.ofList (ds.drop 1)).toList =
        if ds.length ≤ 1 then [] else '.' :: ds.drop 1 := by
    split
    · rfl
    · simp
  have sign : (if 0 ≤ d.power then "+" else "-").toList = [powerSign d.power] := by
    unfold powerSign
    split <;> rfl
  unfold power at sign ⊢
  unfold scientific exponential zeros mantissa power
  simp only [String.toList_append, String.toList_ofList, fraction, sign, List.append_assoc]
  rfl

theorem mantissa_digits (more : ds ≠ []) (digits : ∀ c ∈ ds, c.isDigit) :
    Mantissa (mantissa ds) ((ds.take 1).map asciiValue) ((ds.drop 1).map asciiValue) := by
  obtain ⟨c, cs, rfl⟩ := List.exists_cons_of_ne_nil more
  obtain ⟨first, others⟩ := List.forall_mem_cons.mp digits
  have whole := digits_of_isDigit (List.forall_mem_singleton.mpr first)
  cases cs with
  | nil => exact .whole whole (List.cons_ne_nil c [])
  | cons d ds => exact .point whole (List.cons_ne_nil c []) (digits_of_isDigit others)

theorem power_digits (power : Int) (n : Nat) :
    Power ('e' :: powerSign power :: (List.replicate n '0' ++ Nat.toDigits 10 power.natAbs))
      power := by
  have digits := padded_isDigit n power.natAbs
  have size := ofDigitChars_padded n power.natAbs
  have some : List.replicate n '0' ++ Nat.toDigits 10 power.natAbs ≠ [] :=
    List.append_ne_nil_of_right_ne_nil _ Nat.toDigits_ne_nil
  rw [← count_digits] at size
  have values := digits_of_isDigit digits
  unfold powerSign
  split
  · next up =>
      have powers := Power.some (.inl rfl) .plus values some
      rw [size, if_neg nofun, Int.natAbs_of_nonneg up] at powers
      exact powers
  · next down =>
      have powers := Power.some (.inl rfl) .minus values some
      have below : -(power.natAbs : Int) = power := by omega
      rw [size, if_pos rfl, below] at powers
      exact powers

variable (d : Decimal) (n : Nat)

theorem exponential_spells : Spells (d.exponential n) false d := by
  have more : Nat.toDigits 10 d.digits ≠ [] := Nat.toDigits_ne_nil
  have spells := Spells.mk .none (mantissa_digits more (toDigits_isDigit d.digits))
    (power_digits d.power n)
  have length := List.length_pos_iff.mpr more
  have exponent : d.power - (((Nat.toDigits 10 d.digits).drop 1).map asciiValue).length =
      d.exponent := by
    rw [List.length_map, List.length_drop, power]
    omega
  rw [← List.map_append, List.take_append_drop, count_digits, Nat.ofDigitChars_ten_toDigits,
    exponent] at spells
  exact spells

theorem exponential_unsigned : Unsigned (d.exponential n) :=
  (mantissa_digits Nat.toDigits_ne_nil (toDigits_isDigit d.digits)).unsigned _

theorem mantissa_not_mem_e (digits : ∀ c ∈ ds, c.isDigit) : 'e' ∉ mantissa ds := by
  intro member
  rcases List.mem_append.mp member with first | others
  · exact absurd (digits 'e' (List.mem_of_mem_take first)) (by decide)
  · split at others
    · cases others
    · rcases List.mem_cons.mp others with point | rest
      · exact absurd point (by decide)
      · exact absurd (digits 'e' (List.mem_of_mem_drop rest)) (by decide)

/-- With the point behind its first digit a decimal is worth as much as that digit, and not as much as
the next. -/
theorem value_power {d : Decimal} (some : 0 < d.digits) :
    10 ^ d.power ≤ d.value ∧ d.value < 10 ^ (d.power + 1) := by
  have more : 0 < (Nat.toDigits 10 d.digits).length := List.length_pos_iff.mpr Nat.toDigits_ne_nil
  obtain ⟨k, length⟩ := Nat.exists_eq_add_of_le' more
  have high : d.digits < 10 ^ (k + 1) :=
    (Nat.length_toDigits_le_iff (by decide) (Nat.succ_pos k)).mp length.le
  have low : 10 ^ k ≤ d.digits := by
    by_contra below
    rcases Nat.eq_zero_or_pos k with rfl | rest
    · exact below some
    · have short := (Nat.length_toDigits_le_iff (by decide) rest).mpr (Nat.lt_of_not_le below)
      omega
  have place : d.power = k + d.exponent := by
    rw [power]
    omega
  have ten : (10 : ℚ) ≠ 0 := by norm_num
  have scale : (0 : ℚ) < 10 ^ d.exponent := by positivity
  rw [value, place, add_right_comm, zpow_add₀ ten, zpow_add₀ ten]
  refine ⟨mul_le_mul_of_nonneg_right ?_ scale.le, mul_lt_mul_of_pos_right ?_ scale⟩
  · exact_mod_cast low
  · exact_mod_cast high

end Exponent

end Decimal

end Script
