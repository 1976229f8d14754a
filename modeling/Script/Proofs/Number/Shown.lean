import Mathlib
import Script.Proofs.Number.Display
import Script.Value.Render

/-!
Numbers shown and read back. Whatever its form, what programs see of a number is worth as much as its
shortest text, or as much as the number itself, and is read as a number that is equal to it.
-/

namespace Script

namespace Decimal

variable {cs : List Char} {negative : Bool} {d : Decimal}

/-- The text is a decimal that is worth `q`. -/
def Denotes (cs : List Char) (q : ℚ) : Prop :=
  ∃ negative d, Spells cs negative d ∧ withSign negative d.value = q

theorem Known.not_blank {c : Char} (known : Known c) : Text.isBlank c = false := by
  have blank : ∀ c ∈ marks, Text.isBlank c = false := by
    simp only [marks, List.forall_mem_cons]
    exact ⟨rfl, rfl, rfl, rfl, rfl, List.forall_mem_nil _⟩
  exact known.elim Text.isBlank_digit (blank c)

theorem Spells.ofText_eq {s : String} (spells : Spells s.toList negative d) :
    Number.ofText s = d.toNumber negative := by
  have inside : Text.trim s.toList = s.toList :=
    Text.trimBy_eq_self fun c member => (spells.known.2 c member).not_blank
  rw [Number.ofText, inside]
  exact Number.ofTrimmed_of_reads (.decimal spells)

end Decimal

namespace Number

open Decimal

variable {x : Number}

section Reading

theorem toNumber_of_rounded {d : Decimal} (finite : x.isFinite) (rounds : d.rounded = x.units)
    (negative : Bool) : d.toNumber negative = ofUnits negative x.units := by
  rw [Decimal.toNumber, (Decimal.units_eq_iff (units_lt finite)).mpr rounds]

theorem ofText_of_spells {text : String} {d : Decimal} (finite : x.isFinite)
    (spells : Spells text.toList x.isNegative d) (worth : d.value = x.shortest.value) :
    ofText text = x := by
  have rounds : d.rounded = x.units := (rounded_of_value worth).trans (rounded_shortest finite)
  rw [spells.ofText_eq, toNumber_of_rounded finite rounds, ofUnits_units finite]

theorem ofText_repr (finite : x.isFinite) : ofText x.repr = x := by
  obtain ⟨d, spells, worth⟩ := x.repr_spells
  exact ofText_of_spells finite spells worth

theorem beq_ofUnits (finite : x.isFinite) : (ofUnits (decide (x < 0)) x.units == x) = true := by
  have same := ofUnits_units finite
  have self := beq_self.mpr (isNaN_of_finite finite)
  by_cases below : x < 0
  · have negative := ((lt_zero_iff finite).mp below).1
    rw [negative] at same
    rwa [decide_eq_true below, same]
  · by_cases negative : x.isNegative = true
    · have none : x.units = 0 := by
        by_contra some
        exact below ((lt_zero_iff finite).mpr ⟨negative, some⟩)
      have zeros : (ofUnits false 0 == ofUnits true 0) = true := by decide +kernel
      rw [negative, none] at same
      rw [same] at zeros
      rwa [decide_eq_false below, none]
    · rw [Bool.not_eq_true _ |>.mp negative] at same
      rwa [decide_eq_false below, same]

end Reading

section Whole

theorem whole_spells (x : Number) :
    Spells (minus (decide (x < 0)) ++ Nat.toDigits 10 (x.units / one)) (decide (x < 0))
      ⟨x.units / one, 0⟩ := by
  have digits := toDigits_isDigit (x.units / one)
  have spells := Spells.whole Nat.toDigits_ne_nil digits
  rw [Nat.ofDigitChars_ten_toDigits] at spells
  exact spells.minus (Lexeme.Numeral.whole Nat.toDigits_ne_nil digits).unsigned _

theorem Full.denotes (full : x.Full) :
    Denotes (minus (decide (x < 0)) ++ Nat.toDigits 10 (x.units / one)) x.value := by
  obtain ⟨finite, worth⟩ := whole?_eq_some.mp full.whole?_eq
  refine ⟨_, _, x.whole_spells, ?_⟩
  rw [value_eq finite, worth, Decimal.value, zpow_zero, mul_one]

theorem not_mem_whole {c : Char} (other : c.isDigit = false ∧ c ≠ '-') :
    c ∉ minus (decide (x < 0)) ++ Nat.toDigits 10 (x.units / one) := by
  rw [List.mem_append, not_or]
  constructor
  · unfold minus
    split
    · exact fun member => other.2 (List.mem_singleton.mp member)
    · exact List.not_mem_nil
  · intro member
    rw [toDigits_isDigit _ c member] at other
    exact absurd other.1 nofun

end Whole

section Marks

theorem far_iff (finite : x.isFinite) :
    x.Far ↔ x.units ≠ 0 ∧ (x.units < units 1e-6 ∨ units 1e21 ≤ x.units) := by
  rw [Far, abs_lt_iff finite (by decide) (by decide), le_abs_iff finite (by decide) (by decide)]

theorem Full.not_far (full : x.Full) : ¬ x.Far := by
  obtain ⟨finite, whole⟩ := isWhole_iff_mod.mp full.1
  have limit := (abs_lt_iff finite (by decide) (by decide)).mp full.2
  have order := bounds_order
  rw [units_one] at order
  rw [far_iff finite]
  rintro ⟨some, far⟩
  have least : one ≤ x.units :=
    Nat.le_of_dvd (Nat.pos_of_ne_zero some) (Nat.dvd_of_mod_eq_zero whole)
  omega

theorem Short.not_far (finite : x.isFinite) (short : x.Short) : ¬ x.Far := by
  have order := bounds_order
  rw [short_iff finite] at short
  rw [far_iff finite]
  omega

theorem not_far_of_spread (finite : x.isFinite) (least : 1e-6 ≤ x.abs) (limit : x.abs < 1e-4) :
    ¬ x.Far := by
  have order := bounds_order
  rw [le_abs_iff finite (by decide) (by decide)] at least
  rw [abs_lt_iff finite (by decide) (by decide)] at limit
  rw [far_iff finite]
  omega

theorem not_mem_plain {wholeEnd : String} (tails : wholeEnd = "" ∨ wholeEnd = ".0") :
    'e' ∉ minus x.isNegative ++ (x.shortest.plain wholeEnd).toList := by
  rw [List.mem_append, not_or]
  exact ⟨not_mem_minus _, (plain_worth tails _).1.not_mem_e⟩

theorem mem_display (finite : x.isFinite) : 'e' ∈ x.display.toList ↔ x.Far := by
  have shown := displays finite
  generalize x.display.toList = text at shown
  cases shown with
  | full full => exact iff_of_false (not_mem_whole (by decide)) full.not_far
  | short other short => exact iff_of_false (not_mem_plain (.inr rfl)) (short.not_far finite)
  | spread other least limit =>
      exact iff_of_false (not_mem_plain (.inl rfl)) (not_far_of_spread finite least limit)
  | far other far =>
      refine iff_of_true (List.mem_append_right _ ?_) far
      exact List.mem_append_right _ List.mem_cons_self

theorem far_text (finite : x.isFinite) (long : x.Far) :
    x.display.toList = minus x.isNegative ++ x.shortest.exponential 0 := by
  have shown := displays finite
  generalize x.display.toList = text at shown
  cases shown with
  | full full => exact absurd long full.not_far
  | short other short => exact absurd long (short.not_far finite)
  | spread other least limit => exact absurd long (not_far_of_spread finite least limit)
  | far => rfl

theorem display_power (finite : x.isFinite) (long : x.Far) :
    ∃ mantissa sign ds, x.display.toList = mantissa ++ 'e' :: sign :: ds ∧
      (sign = '+' ∨ sign = '-') ∧ ds ≠ [] ∧ (∀ c ∈ ds, c.isDigit) ∧ ds.head? ≠ some '0' := by
  have power : x.shortest.power ≠ 0 := fun none =>
    (short_of_power finite long.1 none).not_far finite long
  refine ⟨minus x.isNegative ++ mantissa (Nat.toDigits 10 x.shortest.digits),
    powerSign x.shortest.power, _, ?_, ?_, Nat.toDigits_ne_nil, toDigits_isDigit _,
    toDigits_head (Int.natAbs_pos.mpr power)⟩
  · rw [far_text finite long, exponential, List.replicate_zero, List.nil_append,
      List.append_assoc]
  · unfold powerSign
    split
    · exact .inl rfl
    · exact .inr rfl

end Marks

/-- Apart from whole numbers the text is worth as much as the shortest decimal. -/
theorem display_spells (finite : x.isFinite) (other : ¬ x.Full) :
    ∃ d, Spells x.display.toList x.isNegative d ∧ d.value = x.shortest.value := by
  have plain {wholeEnd : String} (tails : wholeEnd = "" ∨ wholeEnd = ".0") :
      ∃ d, Spells (minus x.isNegative ++ (x.shortest.plain wholeEnd).toList) x.isNegative d ∧
        d.value = x.shortest.value := by
    obtain ⟨numeral, d, spells, worth⟩ := plain_worth tails x.shortest
    exact ⟨d, spells.minus numeral.unsigned _, worth⟩
  have shown := displays finite
  generalize x.display.toList = text at shown
  cases shown with
  | full full => exact absurd full other
  | short => exact plain (.inr rfl)
  | spread => exact plain (.inl rfl)
  | far => exact ⟨_, (exponential_spells _ _).minus (exponential_unsigned _ _) _, rfl⟩

theorem full_text (finite : x.isFinite) (full : x.Full) :
    x.display.toList = minus (decide (x < 0)) ++ Nat.toDigits 10 (x.units / one) := by
  have shown := displays finite
  generalize x.display.toList = text at shown
  cases shown with
  | full => rfl
  | short other | spread other | far other => exact absurd full other

theorem display?_infinite (infinite : x.isInf = true) : x.display? = some x.display ∧
    (ofText x.display == x) = true := by
  have count := isInf_iff.mp infinite
  have number : x.isNaN = false := by
    rw [← Bool.not_eq_true, isNaN_iff, count]
    exact Nat.lt_irrefl _
  have shown : x.display? = some (if 0 < x then "Infinity" else "-Infinity") := by
    rw [display?, number, infinite, if_neg Bool.false_ne_true, if_pos rfl]
  have known : x.display = if 0 < x then "Infinity" else "-Infinity" := by
    rw [display, shown, Option.getD_some]
  refine ⟨shown.trans (congrArg some known.symm), ?_⟩
  have ranked : x.rank = signed x.isNegative infinityBits := by rw [rank, count]
  have sign : 0 < x ↔ 0 < x.rank := by
    have zero : Float.isNaN 0 = false ∧ rank 0 = 0 := by decide
    rw [lt_iff, zero.2]
    exact and_iff_right ⟨zero.1, number⟩
  rw [known, beq_iff, ranked]
  cases negative : x.isNegative with
  | true =>
      have read : (ofText "-Infinity").isNaN = false ∧
          (ofText "-Infinity").rank = signed true infinityBits := by decide +kernel
      have below : ¬ 0 < x := by
        rw [sign, ranked, negative]
        decide
      rw [if_neg below]
      exact ⟨⟨read.1, number⟩, read.2⟩
  | false =>
      have read : (ofText "Infinity").isNaN = false ∧
          (ofText "Infinity").rank = signed false infinityBits := by decide +kernel
      have above : 0 < x := by
        rw [sign, ranked, negative]
        decide
      rw [if_pos above]
      exact ⟨⟨read.1, number⟩, read.2⟩

theorem isFinite_of_not (number : x.isNaN = false) (bounded : ¬ x.isInf = true) :
    x.isFinite = true := by
  rw [isInf_iff] at bounded
  rw [← Bool.not_eq_true, isNaN_iff] at number
  rw [isFinite_iff]
  omega

theorem display?_eq_some (x : Number) : x.display? = some x.display := by
  by_cases nan : x.isNaN = true
  · have shown : x.display? = some "NaN" := if_pos nan
    rw [display, shown, Option.getD_some]
  · by_cases infinite : x.isInf = true
    · exact (display?_infinite infinite).1
    · exact display?_eq (isFinite_of_not (Bool.not_eq_true _ |>.mp nan) infinite)

theorem ofText_display (number : x.isNaN = false) : (ofText x.display == x) = true := by
  by_cases infinite : x.isInf = true
  · exact (display?_infinite infinite).2
  have finite := isFinite_of_not number infinite
  by_cases full : x.Full
  · have spells := x.whole_spells
    rw [← full_text finite full] at spells
    rw [spells.ofText_eq, toNumber_of_rounded finite full.rounded_eq]
    exact beq_ofUnits finite
  · obtain ⟨d, spells, worth⟩ := display_spells finite full
    rw [ofText_of_spells finite spells worth]
    exact beq_self.mpr number

/-- What programs see of a finite number beside its shortest text that is read back. What they see is
worth the same, or for an integer that is not too large the number itself, and has an exponent only
far from one. -/
structure Shown (x : Number) : Prop where
  reprReads : ofText x.repr = x
  reprPower : 'e' ∈ x.repr.toList ↔ (x == 0) = false ∧ (x.abs < 1e-4 ∨ 1e16 ≤ x.abs)
  integer : (∃ n : ℤ, x.value = n) → x.abs < 1e21 →
    Denotes x.display.toList x.value ∧ '.' ∉ x.display.toList
  same : ¬ ((∃ n : ℤ, x.value = n) ∧ x.abs < 1e21) →
    ∃ q, Denotes x.display.toList q ∧ Denotes x.repr.toList q
  power : 'e' ∈ x.display.toList ↔ (x == 0) = false ∧ (x.abs < 1e-6 ∨ 1e21 ≤ x.abs)
  powerDigits : 'e' ∈ x.display.toList → ∃ mantissa sign ds,
    x.display.toList = mantissa ++ 'e' :: sign :: ds ∧ (sign = '+' ∨ sign = '-') ∧ ds ≠ [] ∧
      (∀ c ∈ ds, c.isDigit) ∧ ds.head? ≠ some '0'

theorem shown (finite : x.isFinite) : x.Shown where
  reprReads := ofText_repr finite
  reprPower := by
    rw [mem_repr, short_iff finite, ← Bool.not_eq_true, beq_zero_iff finite,
      abs_lt_iff finite (by decide) (by decide), le_abs_iff finite (by decide) (by decide)]
    omega
  integer whole small := by
    have full : x.Full := ⟨(isWhole_iff finite).mpr whole, small⟩
    rw [full_text finite full]
    exact ⟨full.denotes, not_mem_whole (by decide)⟩
  same other := by
    rw [← isWhole_iff finite] at other
    obtain ⟨d, spells, worth⟩ := display_spells finite other
    obtain ⟨d', spells', worth'⟩ := x.repr_spells
    exact ⟨_, ⟨_, _, spells, rfl⟩, _, _, spells', by rw [worth, worth']⟩
  power := by
    rw [mem_display finite, Far, ← Bool.not_eq_true, beq_zero_iff finite]
  powerDigits long := display_power finite ((mem_display finite).mp long)

end Number

/-- Every number is shown, and what is shown of a finite one is worth the number. As the text of a
number is read as it again, no two numbers have one text but those that are equal, as the zeros are. -/
theorem numbers_shown : (∀ x : Number, x.display? = some x.display) ∧
    (∀ x : Number, x.isFinite = true → x.Shown) ∧
    (∀ (h : Heap) (x : Number), x.isNaN = false → ∃ y,
      (Value.string ((Value.number x).display h)).toNumber? = some y ∧ (y == x) = true) ∧
    ∀ (h : Heap) (x y : Number), x.isNaN = false → y.isNaN = false →
      (Value.number x).display h = (Value.number y).display h → (x == y) = true := by
  have text (h : Heap) (x : Number) : (Value.number x).display h = x.display := rfl
  refine ⟨Number.display?_eq_some, fun x => Number.shown, fun h x number => ?_,
    fun h x y number number' same => ?_⟩
  · rw [text]
    exact ⟨_, rfl, Number.ofText_display number⟩
  · rw [text, text] at same
    have read := Number.ofText_display number
    have read' := Number.ofText_display number'
    rw [same, Number.beq_symm] at read
    exact Number.beq_trans read read'

end Script
