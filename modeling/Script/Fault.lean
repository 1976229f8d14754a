import Script.Number.Layout
import Script.Tree.Basic
import Script.Value.Basic

/-!
What can go wrong in a running program: a fault breaks a rule of the language. An operation can also
ask for the remainder of an infinite number, which is no fault and has no place.
-/

namespace Script

inductive FaultKind
  | unboundIdentifier
  | typeMismatch
  | divisionByZero
  | invalidBuiltinArgument
  | indexOutOfRange
  | constAssignment
  | redeclaration
  | notCallable
  deriving DecidableEq, Repr

def FaultKind.name : FaultKind → String
  | .unboundIdentifier => "UnboundIdentifier"
  | .typeMismatch => "TypeMismatch"
  | .divisionByZero => "DivisionByZero"
  | .invalidBuiltinArgument => "InvalidBuiltinArgument"
  | .indexOutOfRange => "IndexOutOfRange"
  | .constAssignment => "ConstAssignment"
  | .redeclaration => "Redeclaration"
  | .notCallable => "NotCallable"

inductive Fault
  | unbound (name : String)
  | unboundTarget (name : String)
  | noMember (library : Library) (name : String)
  | operands (op : BinaryOp) (left right : ValueType)
  | operand (type : ValueType)
  | noProperty (name : String) (type : ValueType)
  | notIndexable (type : ValueType)
  | notIndexAssignable (type : ValueType)
  | indexType (type : ValueType)
  | divisionByZero
  | moduloByZero
  | argumentCount (library : Library) (f : Builtin) (wanted given : Nat)
  | argumentType (library : Library) (f : Builtin) (type : ValueType)
  | invalidIndex (x : Number)
  | indexOutOfRange (index length : Nat)
  | indexPastEnd (index length : Nat)
  | constant (name : String)
  | library (name : String)
  | redeclared (name : String)
  | notCallable (type : ValueType)
  deriving DecidableEq

namespace Fault

def kind : Fault → FaultKind
  | .unbound _ | .unboundTarget _ | .noMember .. => .unboundIdentifier
  | .operands .. | .operand _ | .noProperty .. | .notIndexable _ | .notIndexAssignable _
  | .indexType _ => .typeMismatch
  | .divisionByZero | .moduloByZero => .divisionByZero
  | .argumentCount .. | .argumentType .. => .invalidBuiltinArgument
  | .invalidIndex _ | .indexOutOfRange .. | .indexPastEnd .. => .indexOutOfRange
  | .constant _ | .library _ => .constAssignment
  | .redeclared _ => .redeclaration
  | .notCallable _ => .notCallable

def message : Fault → String
  | .unbound name => s!"'{name}' is not defined"
  | .unboundTarget name => s!"Cannot assign to undeclared variable '{name}'"
  | .noMember l name => s!"'{l.name}.{name}' is not defined"
  | .operands op left right =>
    s!"Operator '{op.spelling}' cannot be applied to {left.name} and {right.name}"
  | .operand type => s!"Unary '-' needs a number, got {type.name}"
  | .noProperty name type => s!"Cannot read property '{name}' of {type.name}"
  | .notIndexable type => s!"Cannot index into {type.name}"
  | .notIndexAssignable type => s!"Cannot assign into an index of {type.name}"
  | .indexType type => s!"Index must be a number, got {type.name}"
  | .divisionByZero => "Division by zero"
  | .moduloByZero => "Modulo by zero"
  | .argumentCount l f wanted given =>
    let noun := if wanted = 1 then "argument" else "arguments"
    s!"{l.name}.{f.name} expects {wanted} {noun}, got {given}"
  | .argumentType l f type => s!"{l.name}.{f.name} expects numeric arguments, got {type.name}"
  | .invalidIndex x => s!"Invalid index {x.display}"
  | .indexOutOfRange index length => s!"Index {index} out of range for length {length}"
  | .indexPastEnd index length => s!"Index {index} is past the end of an array of length {length}"
  | .constant name => s!"Assignment to constant variable '{name}'"
  | .library name => s!"Cannot reassign built-in '{name}'"
  | .redeclared name => s!"Cannot redeclare constant '{name}'"
  | .notCallable type => s!"{type.name} is not a function"

end Fault

/-- Why an operation has no result. -/
inductive Refusal
  | fault (cause : Fault)
  | domain
  deriving DecidableEq

def Refusal.domainMessage : String := "math domain error"

end Script
