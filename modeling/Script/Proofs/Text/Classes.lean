import Mathlib
import Script.Text.Blank
import Script.Text.Digit
import Script.Text.Letter

/-!
Digits beside the other classes of characters: no script has a digit that is a blank or a letter.
-/

namespace Script.Text

variable {c : Char} {cs : List Char} {ranges : Ranges}

def asciiValue (c : Char) : Nat := c.toNat - '0'.toNat

theorem toNat_digit (digit : c.isDigit) : 48 ≤ c.toNat ∧ c.toNat ≤ 57 := by
  simp only [Char.isDigit, Bool.and_eq_true, decide_eq_true_eq] at digit
  exact digit

theorem toNat_alpha (letter : c.isAlpha) : 65 ≤ c.toNat ∧ c.toNat ≤ 122 := by
  simp only [Char.isAlpha, Char.isUpper, Char.isLower, Bool.or_eq_true, Bool.and_eq_true,
    decide_eq_true_eq] at letter
  rcases letter with ⟨low, high⟩ | ⟨low, high⟩
  · exact ⟨low, Nat.le_trans high (by decide)⟩
  · exact ⟨Nat.le_trans (by decide) low, high⟩

theorem digitValue?_digit (digit : c.isDigit) : digitValue? c = some (asciiValue c) := by
  have within := (toNat_digit digit).2
  have ascii : isAscii c = true := decide_eq_true (by omega)
  rw [digitValue?, if_pos ascii, if_pos digit]
  rfl

theorem isSome_digitValue? (digit : c.isDigit) : (digitValue? c).isSome := by
  rw [digitValue?_digit digit]
  rfl

theorem digit_row (digit : (digitValue? c).isSome) :
    ∃ first ∈ '0'.toNat :: zeroDigits, first ≤ c.toNat ∧ c.toNat < first + 10 := by
  unfold digitValue? at digit
  split at digit
  · split at digit
    · next ascii =>
        obtain ⟨low, high⟩ := toNat_digit ascii
        exact ⟨_, List.mem_cons_self, low, Nat.lt_succ_of_le high⟩
    · cases digit
  · rw [Option.isSome_map, List.find?_isSome] at digit
    obtain ⟨first, member, within⟩ := digit
    simp only [Bool.and_eq_true, decide_eq_true_eq] at within
    exact ⟨first, List.mem_cons_of_mem _ member, within⟩

/-- The class has no character in a row of digits. -/
def Apart (ranges : Ranges) : Prop :=
  ∀ first ∈ '0'.toNat :: zeroDigits, ∀ range ∈ ranges, range.2 < first ∨ first + 10 ≤ range.1

theorem Apart.has_digit (apart : Apart ranges) (digit : (digitValue? c).isSome) :
    ranges.has c = false := by
  obtain ⟨first, member, low, high⟩ := digit_row digit
  refine List.any_eq_false.mpr fun range within => ?_
  have away := apart first member range within
  simp only [Bool.and_eq_true, decide_eq_true_eq]
  omega

theorem isBlank_digit (digit : (digitValue? c).isSome) : isBlank c = false := by
  have apart : Apart blankRanges := by
    unfold Apart
    decide
  exact apart.has_digit digit

theorem letters_apart : Apart letterRanges := by
  unfold Apart
  decide +kernel

theorem isLetter_digit (digit : (digitValue? c).isSome) : isLetter c = false := by
  unfold isLetter
  split
  · next ascii =>
      rw [digitValue?, if_pos ascii] at digit
      split at digit
      · next number =>
          rw [← Bool.not_eq_true]
          intro letter
          have := toNat_digit number
          have := toNat_alpha letter
          omega
      · cases digit
  · exact letters_apart.has_digit digit

theorem isLetter_alpha (letter : c.isAlpha) : isLetter c = true := by
  have within := (toNat_alpha letter).2
  have ascii : isAscii c = true := decide_eq_true (by omega)
  rw [isLetter, if_pos ascii, letter]

theorem trimBy_eq_self {p : Char → Bool} (inside : ∀ c ∈ cs, p c = false) : trimBy p cs = cs := by
  have kept {ds : List Char} (inside : ∀ c ∈ ds, p c = false) : ds.dropWhile p = ds := by
    cases ds with
    | nil => rfl
    | cons c ds =>
        rw [List.dropWhile_cons, inside c List.mem_cons_self]
        rfl
  have back : ∀ c ∈ cs.reverse, p c = false := fun c member => inside c (List.mem_reverse.mp member)
  rw [trimBy, kept inside, kept back, List.reverse_reverse]

end Script.Text
