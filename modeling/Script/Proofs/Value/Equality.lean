import Script.Value.Equality

/-!
The equalities on values of all kinds. Loose equality settles `undefined` and `null` first, then what
is only ever itself, then values of one kind; what is left are scalars, which are read as numbers.
-/

namespace Script.Value

/-- What a value is. The name of its type is coarser: `null`, arrays and libraries are objects. -/
inductive Kind
  | number | string | boolean | undefined | null | array | function | library
  deriving DecidableEq

def kind : Value → Kind
  | .number _ => .number
  | .string _ => .string
  | .boolean _ => .boolean
  | .undefined => .undefined
  | .null => .null
  | .array _ => .array
  | .function _ => .function
  | .library _ => .library

def isReference : Value → Bool
  | .array _ | .function _ | .library _ => true
  | .number _ | .string _ | .boolean _ | .undefined | .null => false

theorem looseEquals?_eq (left right : Value) : left.looseEquals? right = some
    (if left.isNullish || right.isNullish then left.isNullish && right.isNullish
    else if left.isReference || right.isReference then left = right
    else if left.kind = right.kind then left.strictEquals right
    else left.toNumber?.getD Number.nan == right.toNumber?.getD Number.nan) := by
  cases left <;> cases right <;> rfl

theorem looseEquals?_isSome (left right : Value) : (left.looseEquals? right).isSome := by
  rw [looseEquals?_eq]
  rfl

end Script.Value
