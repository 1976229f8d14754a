import Script.Fault
import Script.Value.Equality
import Script.Value.Render

/-!
The operators on values.
-/

namespace Script

namespace BinaryOp

/-- Division and remainder refuse a zero on the right, the remainder also an infinite number on the
left of a number. -/
def onNumbers (op : BinaryOp) (x y : Number) : Except Refusal Value :=
  match op with
  | .add => .ok (.number (x + y))
  | .sub => .ok (.number (x - y))
  | .mul => .ok (.number (x * y))
  | .div => if y == 0 then .error (.fault .divisionByZero) else .ok (.number (x / y))
  | .rem =>
    if y == 0 then .error (.fault .moduloByZero)
    else if x.isInf && !y.isNaN then .error .domain
    else .ok (.number (x.remainder y))
  | .lt => .ok (.boolean (x < y))
  | .le => .ok (.boolean (x ≤ y))
  | .gt => .ok (.boolean (x > y))
  | .ge => .ok (.boolean (x ≥ y))
  | .eq | .strictEq => .ok (.boolean (x == y))
  | .ne | .strictNe => .ok (.boolean (x != y))

def mismatch (op : BinaryOp) (left right : Value) : Except Refusal Value :=
  .error (.fault (.operands op left.type right.type))

def plus (h : Heap) (left right : Value) : Except Refusal Value :=
  match left, right with
  | .string s, _ => .ok (.string (s ++ right.display h))
  | _, .string s => .ok (.string (left.display h ++ s))
  | .number x, .number y => onNumbers .add x y
  | _, _ => mismatch .add left right

def arithmetic (op : BinaryOp) (left right : Value) : Except Refusal Value :=
  match left, right with
  | .number x, .number y => onNumbers op x y
  | _, _ => mismatch op left right

def comparison (op : BinaryOp) (onStrings : String → String → Bool) (left right : Value) :
    Except Refusal Value :=
  match left, right with
  | .number x, .number y => onNumbers op x y
  | .string s, .string t => .ok (.boolean (onStrings s t))
  | _, _ => mismatch op left right

def apply (h : Heap) (op : BinaryOp) (left right : Value) : Except Refusal Value :=
  match op with
  | .add => plus h left right
  | .sub | .mul | .div | .rem => arithmetic op left right
  | .lt => comparison op (fun s t => s < t) left right
  | .le => comparison op (fun s t => ¬ t < s) left right
  | .gt => comparison op (fun s t => t < s) left right
  | .ge => comparison op (fun s t => ¬ s < t) left right
  | .eq => .ok (.boolean (left.looseEquals right))
  | .ne => .ok (.boolean (!left.looseEquals right))
  | .strictEq => .ok (.boolean (left.strictEquals right))
  | .strictNe => .ok (.boolean (!left.strictEquals right))

end BinaryOp

namespace UnaryOp

def apply (op : UnaryOp) (v : Value) : Except Fault Value :=
  match op with
  | .neg =>
    match v with
    | .number x => .ok (.number (-x))
    | _ => .error (.operand v.type)
  | .not => .ok (.boolean !v.isTruthy)
  | .typeof => .ok (.string v.type.name)

end UnaryOp

namespace Value

def place (index : Value) : Except Fault Nat :=
  match index with
  | .number x =>
    match x.place? with
    | some n => .ok n
    | none => .error (.invalidIndex x)
  | _ => .error (.indexType index.type)

end Value

end Script
