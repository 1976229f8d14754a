import Script.Fault

/-!
Scopes: names bound to values. A scope is searched from inside out through the ones around it, and
only an assignment writes into one further out.
-/

namespace Script

structure Binding where
  name : String
  value : Value
  constant : Bool
  deriving DecidableEq

abbrev Scope := List Binding

namespace Scope

def find? (s : Scope) (name : String) : Option Binding := List.find? (·.name = name) s

def bind (b : Binding) : Scope → Scope
  | [] => [b]
  | other :: rest => if other.name = b.name then b :: rest else other :: bind b rest

/-- A name can be declared again, but not over a constant. -/
def define (s : Scope) (b : Binding) : Except Fault Scope :=
  match s.find? b.name with
  | some old => if old.constant then .error (.redeclared b.name) else .ok (s.bind b)
  | none => .ok (s.bind b)

theorem find?_bind_self (s : Scope) (b : Binding) : (s.bind b).find? b.name = some b := by
  induction s with
  | nil => simp [bind, find?]
  | cons other rest ih =>
    by_cases same : other.name = b.name <;> simp_all [bind, find?]

theorem find?_bind_of_ne (s : Scope) {b : Binding} {name : String} (different : b.name ≠ name) :
    (s.bind b).find? name = s.find? name := by
  induction s with
  | nil => simp [bind, find?, different]
  | cons other rest ih =>
    by_cases same : other.name = b.name <;> simp_all [bind, find?, List.find?]

end Scope

/-- Scopes from inside out. -/
abbrev Chain := List Scope

namespace Chain

def find? (c : Chain) (name : String) : Option Binding := c.findSome? (·.find? name)

def depth? (c : Chain) (name : String) : Option Nat := c.findIdx? (·.find? name |>.isSome)

def get (c : Chain) (name : String) : Except Fault Value :=
  match c.find? name with
  | some b => .ok b.value
  | none => .error (.unbound name)

def assign (name : String) (v : Value) : Chain → Except Fault Chain
  | [] => .error (.unboundTarget name)
  | s :: outer =>
    match s.find? name with
    | some b =>
      if b.constant then .error (.constant name) else .ok (s.bind { b with value := v } :: outer)
    | none => (assign name v outer).map (s :: ·)

end Chain

structure Scopes where
  current : Scope
  outer : Chain
  deriving DecidableEq

namespace Scopes

def chain (s : Scopes) : Chain := s.current :: s.outer

def ofChain : Chain → Scopes
  | [] => ⟨[], []⟩
  | current :: outer => ⟨current, outer⟩

def enter (s : Scopes) : Scopes := ⟨[], s.chain⟩

def leave (s : Scopes) : Scopes := ofChain s.outer

def globals (s : Scopes) : Scope := s.chain.getLast (by simp [chain])

def define (s : Scopes) (b : Binding) : Except Fault Scopes :=
  (s.current.define b).map fun current => { s with current }

def assign (s : Scopes) (name : String) (v : Value) : Except Fault Scopes :=
  (s.chain.assign name v).map ofChain

end Scopes

end Script
