import Script.Fault
import Script.Value.Render

/-!
The built-in functions.
-/

namespace Script

namespace Number

def isOdd (x : Number) : Bool := x.whole?.any (· % 2 = 1)

/-- The power, with a number only where the real power has a value or a limit. -/
def power (x y : Number) : Number :=
  if y.isNaN then nan
  else if y == 0 then 1
  else if x.abs == 1 && y.isInf then nan
  else if x == 0 && y < 0 then if y.isOdd && x.isNegative then -infinity else infinity
  else x.pow y

def root (x : Number) : Number := if x.isNaN || x < 0 then nan else x.sqrt

end Number

namespace Builtin

def numbers (f : Builtin) (wanted : Nat) (arguments : List Value) : Except Fault (List Number) :=
  if arguments.length = wanted then
    arguments.mapM fun v =>
      match v with
      | .number x => .ok x
      | _ => .error (.argumentType .math f v.type)
  else .error (.argumentCount .math f wanted arguments.length)

def call (h : Heap) (f : Builtin) (arguments : List Value) : Except Fault (Value × Option String) :=
  match f with
  | .log => .ok (.undefined, some (" ".intercalate (arguments.map (·.inspect h))))
  | .sqrt => do
    match ← numbers f 1 arguments with
    | [x] => return (.number x.root, none)
    | _ => return (.undefined, none)
  | .pow => do
    match ← numbers f 2 arguments with
    | [x, y] => return (.number (x.power y), none)
    | _ => return (.undefined, none)

end Builtin

end Script
