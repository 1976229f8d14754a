import Mathlib.Logic.Equiv.Basic
import Script.Execution

/-!
Other names for variables. A program and a machine with each variable under another name; members
are no variables, and the libraries keep their names.
-/

namespace Script

/-- Another name for each variable, and no name for two of them. -/
structure Renaming where
  other : String → String
  injective : Function.Injective other
  libraries : ∀ l : Library, other l.name = l.name

instance : CoeFun Renaming fun _ => String → String := ⟨Renaming.other⟩

namespace Renaming

def swap (a b : String) (first : Library.named? a = none) (second : Library.named? b = none) :
    Renaming where
  other := Equiv.swap a b
  injective := (Equiv.swap a b).injective
  libraries := by
    intro l
    have apart {name : String} (free : Library.named? name = none) : l.name ≠ name := by
      rintro rfl
      cases l <;> cases free
    exact Equiv.swap_apply_of_ne_of_ne (apart first) (apart second)

end Renaming

variable (r : Renaming)

namespace Expr

mutual

def renamed : Expr → Expr
  | .literal pos value => .literal pos value
  | .name pos text => .name pos (r text)
  | .array pos items => .array pos (renamedAll items)
  | .binary pos op left right => .binary pos op left.renamed right.renamed
  | .logical pos op left right => .logical pos op left.renamed right.renamed
  | .unary pos op operand => .unary pos op operand.renamed
  | .member pos object text namePos => .member pos object.renamed text namePos
  | .index pos object position => .index pos object.renamed position.renamed
  | .call pos callee arguments => .call pos callee.renamed (renamedAll arguments)

def renamedAll : List Expr → List Expr
  | [] => []
  | e :: rest => e.renamed :: renamedAll rest

end

end Expr

def Target.renamed : Target → Target
  | .name pos text => .name pos (r text)
  | .index pos object position => .index pos (object.renamed r) (position.renamed r)

mutual

def Stmt.renamed : Stmt → Stmt
  | .declare pos kind text value? => .declare pos kind (r text) (value?.map (·.renamed r))
  | .assign pos target value => .assign pos (target.renamed r) (value.renamed r)
  | .expr pos value => .expr pos (value.renamed r)
  | .block pos body => .block pos (Stmt.renamedAll body)
  | .if pos test yes none => .if pos (test.renamed r) yes.renamed none
  | .if pos test yes (some no) => .if pos (test.renamed r) yes.renamed (some no.renamed)
  | .while pos test body => .while pos (test.renamed r) body.renamed
  | .switch pos subject clauses => .switch pos (subject.renamed r) (Clause.renamedAll clauses)
  | .break pos => .break pos
  | .continue pos => .continue pos

def Stmt.renamedAll : List Stmt → List Stmt
  | [] => []
  | s :: rest => s.renamed :: Stmt.renamedAll rest

def Clause.renamedAll : List Clause → List Clause
  | [] => []
  | .mk pos test? body :: rest =>
    .mk pos (test?.map (·.renamed r)) (Stmt.renamedAll body) :: Clause.renamedAll rest

end

def Program.renamed (p : Program) : Program := Stmt.renamedAll r p

def Binding.renamed (b : Binding) : Binding := { b with name := r b.name }

def Scope.renamed (s : Scope) : Scope := s.map (Binding.renamed r)

def Chain.renamed (c : Chain) : Chain := c.map (Scope.renamed r)

def Scopes.renamed (s : Scopes) : Scopes := ⟨Scope.renamed r s.current, Chain.renamed r s.outer⟩

def Machine.renamed (m : Machine) : Machine := { m with scopes := m.scopes.renamed r }

def Fault.renamed : Fault → Fault
  | .unbound name => .unbound (r name)
  | .unboundTarget name => .unboundTarget (r name)
  | .constant name => .constant (r name)
  | .library name => .library (r name)
  | .redeclared name => .redeclared (r name)
  | cause => cause

def Stop.renamed : Stop → Stop
  | .fault cause pos => .fault (cause.renamed r) pos
  | stop => stop

variable {r}

theorem Stmt.isBlock_renamed (s : Stmt) : (s.renamed r).isBlock = s.isBlock := by
  cases s with
  | «if» pos test yes no => cases no <;> rfl
  | _ => rfl

theorem Clause.findDefault_renamed (clauses : List Clause) :
    (Clause.renamedAll r clauses).findIdx? (·.test.isNone) =
      clauses.findIdx? (·.test.isNone) := by
  induction clauses with
  | nil => rfl
  | cons clause rest again =>
      obtain ⟨pos, test?, body⟩ := clause
      simp only [Clause.renamedAll, List.findIdx?_cons, again]
      cases test? <;> rfl

theorem Library.named?_renamed (name : String) : named? (r name) = named? name := by
  have same (l : Library) : l.name = r name ↔ l.name = name := by
    have both : r l.name = r name ↔ l.name = name := r.injective.eq_iff
    rwa [r.libraries l] at both
  simp only [named?, same]

section Scopes

def renamedOutcome {α : Type} (f : α → α) (r : Renaming) : Except Fault α → Except Fault α
  | .ok a => .ok (f a)
  | .error cause => .error (cause.renamed r)

theorem Scope.find?_renamed (s : Scope) (name : String) :
    Scope.find? (s.renamed r) (r name) = (s.find? name).map (Binding.renamed r) := by
  have same : (fun b : Binding => decide (b.name = r name)) ∘ Binding.renamed r =
      fun b => decide (b.name = name) := by
    funext b
    exact decide_eq_decide.mpr r.injective.eq_iff
  rw [find?, renamed, List.find?_map, same]
  rfl

theorem Scope.bind_renamed (s : Scope) (b : Binding) :
    Scope.bind (b.renamed r) (s.renamed r) = (s.bind b).renamed r := by
  induction s with
  | nil => rfl
  | cons other rest again =>
      have same : (other.renamed r).name = (b.renamed r).name ↔ other.name = b.name :=
        r.injective.eq_iff
      show (if (other.renamed r).name = (b.renamed r).name then _ else _) = _
      rw [bind]
      by_cases bound : other.name = b.name
      · rw [if_pos (same.mpr bound), if_pos bound]
        rfl
      · rw [if_neg (mt same.mp bound), if_neg bound]
        exact congrArg (other.renamed r :: ·) again

theorem Scope.define_renamed (s : Scope) (b : Binding) :
    Scope.define (s.renamed r) (b.renamed r) =
      renamedOutcome (Scope.renamed r) r (s.define b) := by
  have found : Scope.find? (s.renamed r) (b.renamed r).name = _ := s.find?_renamed b.name
  rw [define, define, found, bind_renamed]
  cases s.find? b.name with
  | none => rfl
  | some old =>
      show (if old.constant then _ else _) = renamedOutcome _ r (if old.constant then _ else _)
      split <;> rfl

theorem Chain.find?_renamed (c : Chain) (name : String) :
    Chain.find? (c.renamed r) (r name) = (c.find? name).map (Binding.renamed r) := by
  induction c with
  | nil => rfl
  | cons s outer again =>
      rw [find?, find?] at again ⊢
      rw [renamed, List.map_cons, List.findSome?_cons, List.findSome?_cons, s.find?_renamed name]
      cases s.find? name with
      | none => exact again
      | some b => rfl

theorem Chain.assign_renamed (c : Chain) (name : String) (v : Value) :
    Chain.assign (r name) v (c.renamed r) =
      renamedOutcome (Chain.renamed r) r (c.assign name v) := by
  induction c with
  | nil => rfl
  | cons s outer again =>
      rw [renamed, List.map_cons, assign, assign, s.find?_renamed name]
      cases s.find? name with
      | none =>
          show (Chain.assign (r name) v (Chain.renamed r outer)).map _ = _
          rw [again]
          cases Chain.assign name v outer <;> rfl
      | some b =>
          show (if b.constant then _ else _) = renamedOutcome _ r (if b.constant then _ else _)
          split
          · rfl
          · have bound := s.bind_renamed (r := r) { b with value := v }
            exact congrArg (fun s => Except.ok (s :: Chain.renamed r outer)) bound

theorem Scopes.define_renamed (s : Scopes) (b : Binding) :
    (s.renamed r).define (b.renamed r) = renamedOutcome (Scopes.renamed r) r (s.define b) := by
  rw [define, define]
  show (Scope.define (Scope.renamed r s.current) (b.renamed r)).map _ = _
  rw [Scope.define_renamed]
  cases s.current.define b <;> rfl

theorem Scopes.ofChain_renamed (c : Chain) : ofChain (c.renamed r) = (ofChain c).renamed r := by
  cases c <;> rfl

theorem Scopes.assign_renamed (s : Scopes) (name : String) (v : Value) :
    (s.renamed r).assign (r name) v = renamedOutcome (Scopes.renamed r) r (s.assign name v) := by
  have assigns := s.chain.assign_renamed (r := r) name v
  rw [assign, assign]
  show (Chain.assign (r name) v (Chain.renamed r s.chain)).map _ = _
  rw [assigns]
  cases s.chain.assign name v with
  | error cause => rfl
  | ok c => exact congrArg Except.ok (ofChain_renamed c)

theorem Scopes.leave_renamed (s : Scopes) : (s.renamed r).leave = s.leave.renamed r :=
  ofChain_renamed s.outer

theorem Scopes.globals_renamed (s : Scopes) :
    (s.renamed r).globals = Scope.renamed r s.globals := by
  have inside : s.chain.map (Scope.renamed r) ≠ [] := nofun
  show (s.chain.map (Scope.renamed r)).getLast inside = _
  rw [List.getLast_map]
  rfl

theorem Machine.lookup?_renamed (m : Machine) (name : String) :
    (m.renamed r).lookup? (r name) = m.lookup? name := by
  have found : Chain.find? (m.renamed r).scopes.chain (r name) = _ :=
    m.scopes.chain.find?_renamed name
  rw [lookup?, lookup?, found, Library.named?_renamed]
  cases m.scopes.chain.find? name <;> rfl

end Scopes

end Script
