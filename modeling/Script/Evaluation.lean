import Script.Machine
import Script.Value.Builtin
import Script.Value.Operator

/-!
The values of expressions. Operands are evaluated from left to right, to any depth of nesting; a
host evaluates only as deep as its stack goes.
-/

namespace Script

def Literal.toValue : Literal → Value
  | .number x => .number x
  | .string s => .string s
  | .boolean b => .boolean b
  | .null => .null
  | .undefined => .undefined

namespace Value

def member (h : Heap) (object : Value) (name : String) : Except Fault Value :=
  match object with
  | .library l =>
    match l.member? name with
    | some f => .ok (.function f)
    | none => .error (.noMember l name)
  | .array ref =>
    if name = "length" then .ok (.number (Float.ofNat (h.items ref).size))
    else .error (.noProperty name object.type)
  | .string s =>
    if name = "length" then .ok (.number (Float.ofNat s.length))
    else .error (.noProperty name object.type)
  | _ => .error (.noProperty name object.type)

def item (h : Heap) (object index : Value) : Except Fault Value :=
  match object with
  | .array ref => do
    let n ← index.place
    match (h.items ref)[n]? with
    | some v => return v
    | none => .error (.indexOutOfRange n (h.items ref).size)
  | .string s => do
    let n ← index.place
    match s.toList[n]? with
    | some c => return .string (String.singleton c)
    | none => .error (.indexOutOfRange n s.length)
  | _ => .error (.notIndexable object.type)

end Value

namespace Run

def read (pos : Pos) (name : String) : Run Value := do
  match (← get).lookup? name with
  | some v => return v
  | none => throw (.fault (.unbound name) pos)

def alloc (items : List Value) : Run Value :=
  modifyGet fun m =>
    let (ref, heap) := m.heap.alloc items.toArray
    (.array ref, { m with heap })

def call (pos : Pos) (callee : Value) (arguments : List Value) : Run Value := do
  match callee with
  | .function f =>
    let (v, line?) ← ofResult pos (f.call (← get).heap arguments)
    match line? with
    | some line => print line
    | none => pure ()
    return v
  | _ => throw (.fault (.notCallable callee.type) pos)

end Run

namespace Expr

def isUnbound (e : Expr) (m : Machine) : Bool :=
  match e with
  | .name _ text => (m.lookup? text).isNone
  | _ => false

mutual

def eval : Expr → Run Value
  | .literal _ value => return value.toValue
  | .name pos text => Run.read pos text
  | .array _ items => do Run.alloc (← evalAll items)
  | .binary pos op left right => do
    let a ← left.eval
    let b ← right.eval
    Run.ofAnswer pos (op.apply (← get).heap a b)
  | .logical _ op left right => do
    let a ← left.eval
    match op, a.isTruthy with
    | .and, true | .or, false => right.eval
    | _, _ => return a
  | .unary pos op operand => do
    if op = .typeof && operand.isUnbound (← get) then return .string ValueType.undefined.name
    else
      let v ← operand.eval
      Run.ofResult pos (op.apply v)
  | .member pos object text namePos => do
    let v ← object.eval
    Run.ofResult (match v with | .library _ => namePos | _ => pos) (v.member (← get).heap text)
  | .index pos object position => do
    let a ← object.eval
    let b ← position.eval
    Run.ofResult pos (a.item (← get).heap b)
  | .call pos callee arguments => do
    let f ← callee.eval
    let values ← evalAll arguments
    Run.call pos f values

def evalAll : List Expr → Run (List Value)
  | [] => return []
  | e :: rest => do
    let v ← e.eval
    let values ← evalAll rest
    return v :: values

end

end Expr

end Script
