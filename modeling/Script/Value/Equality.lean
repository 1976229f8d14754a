import Script.Number.Reading
import Script.Value.Basic

/-!
Reading values as numbers, and the two equalities. Strict equality is sameness, but for numbers,
which compare as numbers do; the loose one also takes `null` for `undefined` and compares scalars of
different types as numbers.
-/

namespace Script.Value

/-- The number a value is read as; arrays and built-ins have none. -/
def toNumber? : Value → Option Number
  | .number x => some x
  | .string s => some (Number.ofText s)
  | .boolean b => some (if b then 1 else 0)
  | .undefined => some Number.nan
  | .null => some 0
  | .array _ | .function _ | .library _ => none

def noNumber (v : Value) : String := "cannot convert " ++ v.type.name ++ " to a number"

def isScalar : Value → Bool
  | .number _ | .string _ | .boolean _ => true
  | _ => false

def strictEquals : Value → Value → Bool
  | .number x, .number y => x == y
  | left, right => left = right

/-- Nothing, if a value without a number would be read as one. -/
def looseEquals? (left right : Value) : Option Bool :=
  if left.type = right.type ∧ !left.isArray then some (left.strictEquals right)
  else if left.isNullish || right.isNullish then some (left.isNullish && right.isNullish)
  else if left.isScalar && right.isScalar then do
    let x ← left.toNumber?
    let y ← right.toNumber?
    return x == y
  else some (left = right)

def looseEquals (left right : Value) : Bool := (left.looseEquals? right).getD false

end Script.Value
