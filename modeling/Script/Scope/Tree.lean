import Script.Scope.Basic

/-!
A growing tree of scopes, numbered from the root. What a scope sees is the chain from it to the
root; a write to the chain is a write to the tree. A tree answers one request after another.
-/

namespace Script

structure ScopeNode where
  parent : Option Nat
  scope : Scope
  deriving DecidableEq

abbrev ScopeTree := Array ScopeNode

namespace ScopeTree

def root : ScopeTree := #[⟨none, []⟩]

def child (t : ScopeTree) (n : Nat) : ScopeTree := t.push ⟨some n, []⟩

def scope (t : ScopeTree) (n : Nat) : Scope :=
  match t[n]? with
  | some node => node.scope
  | none => []

/-- From a scope to the root. A parent has a smaller number. -/
def path (t : ScopeTree) (n : Nat) : List Nat :=
  match t[n]?.bind (·.parent) with
  | some parent => if parent < n then n :: t.path parent else [n]
  | none => [n]

def chain (t : ScopeTree) (n : Nat) : Chain := (t.path n).map t.scope

def put (t : ScopeTree) (n : Nat) (s : Scope) : ScopeTree :=
  t.modify n fun node => { node with scope := s }

def resolve? (t : ScopeTree) (n : Nat) (name : String) : Option Nat :=
  ((t.chain n).depth? name).bind ((t.path n)[·]?)

def get (t : ScopeTree) (n : Nat) (name : String) : Except Fault Value := (t.chain n).get name

def define (t : ScopeTree) (n : Nat) (b : Binding) : Except Fault ScopeTree :=
  ((t.scope n).define b).map (t.put n)

def assign (t : ScopeTree) (n : Nat) (name : String) (v : Value) : Except Fault ScopeTree :=
  ((t.chain n).assign name v).map fun scopes =>
    ((t.path n).zip scopes).foldl (fun t (m, s) => t.put m s) t

/-- What is asked of a tree. The number is that of the scope it is asked of. -/
inductive Request
  | child (n : Nat)
  | define (n : Nat) (b : Binding)
  | assign (n : Nat) (name : String) (v : Value)
  | get (n : Nat) (name : String)
  | resolve (n : Nat) (name : String)
  deriving DecidableEq

inductive Reply
  | made (n : Nat)
  | done
  | value (v : Value)
  | found (n? : Option Nat)
  deriving DecidableEq

def written (t : ScopeTree) : Except Fault ScopeTree → Except Fault Reply × ScopeTree
  | .ok t => (.ok .done, t)
  | .error f => (.error f, t)

def answer (t : ScopeTree) : Request → Except Fault Reply × ScopeTree
  | .child n => (.ok (.made t.size), t.child n)
  | .define n b => t.written (t.define n b)
  | .assign n name v => t.written (t.assign n name v)
  | .get n name => ((t.get n name).map .value, t)
  | .resolve n name => (.ok (.found (t.resolve? n name)), t)

end ScopeTree

end Script
