import Script.Token.Basic

/-!
A place in a row of tokens. The last token, the end of input, is never passed; a step of reading
keeps the proof that fewer tokens are left, so readers end.
-/

namespace Script

inductive Expected
  | expression
  | identifier
  | propertyName
  | initializer
  | target
  | clause
  | singleDefault
  | breakable
  | repeatable
  | mark (mark : Punct)
  | commaOr (closing : Punct)
  deriving DecidableEq, Repr

def Expected.text : Expected → String
  | .expression => "expression"
  | .identifier => "identifier"
  | .propertyName => "property name after '.'"
  | .initializer => "'=' after const name"
  | .target => "identifier or index expression before '='"
  | .clause => "'case', 'default' or '\x7d'"
  | .singleDefault => "a single 'default' clause"
  | .breakable => "'break' inside a loop or switch"
  | .repeatable => "'continue' inside a loop"
  | .mark m => "'" ++ String.singleton m.spelling ++ "'"
  | .commaOr closing => "',' or '" ++ String.singleton closing.spelling ++ "'"

structure ParseError where
  expected : Expected
  found : Token
  deriving DecidableEq

def ParseError.message (e : ParseError) : String :=
  "expected " ++ e.expected.text ++ ", found " ++ e.found.describe

structure Cursor where
  ahead : List Token
  stop : Token
  line : Nat

abbrev Cursor.remaining (c : Cursor) : Nat := c.ahead.length

structure Step (α : Type) (bound : Nat) where
  value : α
  next : Cursor
  shorter : next.remaining < bound

abbrev Parse (α : Type) (bound : Nat) := Except ParseError (Step α bound)

namespace Step

variable {α β : Type} {bound wider : Nat}

def within (s : Step α bound) (h : bound ≤ wider) : Step α wider :=
  ⟨s.value, s.next, Nat.lt_of_lt_of_le s.shorter h⟩

def map (f : α → β) (s : Step α bound) : Step β bound := ⟨f s.value, s.next, s.shorter⟩

def give (s : Step α bound) (value : β) : Step β bound := ⟨value, s.next, s.shorter⟩

/-- A step taken from where `s` ended is a step from where `s` began. -/
def andThen (s : Step α bound) (t : Step β s.next.remaining) : Step β bound :=
  t.within (Nat.le_of_lt s.shorter)

end Step

namespace Cursor

/-- No tokens can be read unless the last one is the end of input. -/
def ofTokens? (tokens : List Token) : Option Cursor :=
  match tokens.getLast? with
  | some stop =>
    if stop.kind = .endOfInput then some ⟨tokens.dropLast, stop, 0⟩ else none
  | none => none

def token (c : Cursor) : Token := c.ahead.headD c.stop

def kind (c : Cursor) : Kind := c.token.kind

def fail {α : Type} (c : Cursor) (expected : Expected) : Except ParseError α :=
  .error ⟨expected, c.token⟩

def takeAs {α : Type} (read : Kind → Option α) (c : Cursor) :
    Option (Step (Token × α) c.remaining) :=
  match c with
  | ⟨[], _, _⟩ => none
  | ⟨t :: rest, stop, _⟩ =>
    (read t.kind).map fun a => ⟨(t, a), ⟨rest, stop, t.pos.line⟩, Nat.lt_succ_self _⟩

def take? (kind : Kind) (c : Cursor) : Option (Step Token c.remaining) :=
  (c.takeAs fun k => if k = kind then some () else none).map (·.map (·.1))

def takeMark? (mark : Punct) (c : Cursor) : Option (Step Token c.remaining) :=
  c.take? (.punct mark)

def expectAs {α : Type} (read : Kind → Option α) (expected : Expected) (c : Cursor) :
    Parse (Token × α) c.remaining :=
  match c.takeAs read with
  | some step => .ok step
  | none => c.fail expected

def expectMark (mark : Punct) (c : Cursor) : Parse Token c.remaining :=
  match c.takeMark? mark with
  | some step => .ok step
  | none => c.fail (.mark mark)

end Cursor

end Script
