import Script.Text.Blank
import Script.Text.Digit

/-!
Whole numbers in settings: a sign, then decimal digits of any script with single underscores between
them, blanks around it all. The separators U+001C to U+001F are no blanks here.
-/

namespace Script.Text

def mostDigits : Nat := 4300

/-- The values of the digits; an underscore has to stand between two of them. -/
def digitRow? : List Char → Option (List Nat)
  | [] => none
  | [c] => (digitValue? c).map ([·])
  | c :: '_' :: rest => do return (← digitValue? c) :: (← digitRow? rest)
  | c :: rest => do return (← digitValue? c) :: (← digitRow? rest)

def natural? (cs : List Char) : Option Nat := do
  let digits ← digitRow? cs
  if digits.length ≤ mostDigits then some (ofDigits digits) else none

def isMargin (c : Char) : Bool := isBlank c && !(0x1c ≤ c.toNat && c.toNat ≤ 0x1f)

def integer? (text : String) : Option Int :=
  match trimBy isMargin text.toList with
  | '-' :: rest => (natural? rest).map fun n => -(n : Int)
  | '+' :: rest => (natural? rest).map fun n => (n : Int)
  | cs => (natural? cs).map fun n => (n : Int)

end Script.Text
