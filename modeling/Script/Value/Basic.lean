import Script.Number.Basic

/-!
Values of a running program. Arrays live in a heap and are shared: an array value is a reference.
-/

namespace Script

inductive Builtin
  | log | sqrt | pow
  deriving DecidableEq, Repr

inductive Library
  | console | math
  deriving DecidableEq, Repr

abbrev Ref := Nat

inductive Value
  | number (x : Number)
  | string (s : String)
  | boolean (b : Bool)
  | undefined
  | null
  | array (ref : Ref)
  | function (f : Builtin)
  | library (l : Library)
  deriving DecidableEq, Inhabited

inductive ValueType
  | number | string | boolean | undefined | object | function
  deriving DecidableEq, Repr

def ValueType.name : ValueType → String
  | .number => "number"
  | .string => "string"
  | .boolean => "boolean"
  | .undefined => "undefined"
  | .object => "object"
  | .function => "function"

namespace Builtin

def name : Builtin → String
  | .log => "log"
  | .sqrt => "sqrt"
  | .pow => "pow"

end Builtin

namespace Library

def name : Library → String
  | .console => "console"
  | .math => "Math"

def all : List Library := [.console, .math]

def members : Library → List Builtin
  | .console => [.log]
  | .math => [.sqrt, .pow]

def named? (name : String) : Option Library := all.find? (·.name = name)

def member? (l : Library) (name : String) : Option Builtin := l.members.find? (·.name = name)

end Library

namespace Value

def type : Value → ValueType
  | .number _ => .number
  | .string _ => .string
  | .boolean _ => .boolean
  | .undefined => .undefined
  | .null | .array _ | .library _ => .object
  | .function _ => .function

def isArray : Value → Bool
  | .array _ => true
  | _ => false

def isNullish : Value → Bool
  | .undefined | .null => true
  | _ => false

def isTruthy : Value → Bool
  | .number x => !(x == 0 || x.isNaN)
  | .string s => !s.isEmpty
  | .boolean b => b
  | .undefined | .null => false
  | .array _ | .function _ | .library _ => true

end Value

end Script
