import Script.Proofs.Tree.Parts
import Script.Proofs.Value.Alike

/-!
Scopes as a program sees them. On two chains of scopes the names that a program mentions are bound
at the same places, and those that it reads to values that are alike; declarations and assignments
of the program keep this.
-/

namespace Script

namespace Program

def Reads (p : Program) (name : String) : Prop := ∃ pos, p.Uses (.name pos name)

def written? : Stmt → Option String
  | .declare _ _ name _ | .assign _ (.name _ name) _ => some name
  | _ => none

def Mentions (p : Program) (name : String) : Prop :=
  p.Reads name ∨ ∃ s, p.Has s ∧ written? s = some name

end Program

variable {p : Program} {pairs : Ref → Ref → Prop}

/-- Both are constants or neither is, and if the program reads them, their values are alike. -/
structure Binding.Matches (p : Program) (pairs : Ref → Ref → Prop) (name : String)
    (b b' : Binding) : Prop where
  constant : b.constant = b'.constant
  value : p.Reads name → b.value.Alike pairs b'.value

def Scope.Matches (p : Program) (pairs : Ref → Ref → Prop) (s s' : Scope) : Prop :=
  ∀ name, p.Mentions name →
    Option.Rel (Binding.Matches p pairs name) (s.find? name) (s'.find? name)

structure Scopes.Matches (p : Program) (pairs : Ref → Ref → Prop) (s s' : Scopes) : Prop where
  current : s.current.Matches p pairs s'.current
  outer : List.Forall₂ (Scope.Matches p pairs) s.outer s'.outer

namespace Scope.Matches

theorem nil : Matches p pairs [] [] := fun _ _ => .none

variable {s s' : Scope} {b b' : Binding}

theorem bind (scopes : Matches p pairs s s') (name : b.name = b'.name)
    (bindings : b.Matches p pairs b.name b') : Matches p pairs (s.bind b) (s'.bind b') := by
  intro other mentioned
  by_cases same : b.name = other
  · subst same
    rw [find?_bind_self, name, find?_bind_self]
    exact .some (name ▸ bindings)
  · rw [find?_bind_of_ne s same, find?_bind_of_ne s' (name ▸ same)]
    exact scopes other mentioned

theorem define (scopes : Matches p pairs s s') (name : b.name = b'.name)
    (bindings : b.Matches p pairs b.name b') (mentioned : p.Mentions b.name) :
    Agree (Matches p pairs) (s.define b) (s'.define b') := by
  have found := scopes b.name mentioned
  have bound := scopes.bind name bindings
  rw [Scope.define, Scope.define, ← name]
  generalize s.find? b.name = old at found
  generalize s'.find? b.name = old' at found
  cases found with
  | none => exact .ok bound
  | some alike =>
      dsimp only
      rw [alike.constant]
      split
      · exact .error _
      · exact .ok bound

end Scope.Matches

namespace Chain

variable {c c' : Chain}

theorem find?_matches (chains : List.Forall₂ (Scope.Matches p pairs) c c') {name : String}
    (mentioned : p.Mentions name) :
    Option.Rel (Binding.Matches p pairs name) (c.find? name) (c'.find? name) := by
  induction chains with
  | nil => exact .none
  | @cons s s' rest rest' first others again =>
      have found := first name mentioned
      rw [Chain.find?, Chain.find?, List.findSome?_cons, List.findSome?_cons]
      generalize s.find? name = b? at found
      generalize s'.find? name = b?' at found
      cases found with
      | none => exact again
      | some alike => exact .some alike

theorem assign_matches (chains : List.Forall₂ (Scope.Matches p pairs) c c') {name : String}
    (mentioned : p.Mentions name) {v v' : Value} (alike : v.Alike pairs v') :
    Agree (List.Forall₂ (Scope.Matches p pairs)) (c.assign name v) (c'.assign name v') := by
  induction chains with
  | nil => exact .error _
  | @cons s s' rest rest' first others again =>
      have found := first name mentioned
      rw [Chain.assign, Chain.assign]
      generalize known : s.find? name = b? at found
      generalize known' : s'.find? name = b?' at found
      cases found with
      | none => exact again.map fun more => .cons first more
      | @some b b' bindings =>
          have named : b.name = name := by simpa using List.find?_some known
          have named' : b'.name = name := by simpa using List.find?_some known'
          dsimp only
          rw [bindings.constant]
          split
          · exact .error _
          · exact .ok (.cons (first.bind (named.trans named'.symm) ⟨rfl, fun _ => alike⟩) others)

end Chain

namespace Scopes.Matches

variable {s s' : Scopes}

theorem chain (scopes : Matches p pairs s s') :
    List.Forall₂ (Scope.Matches p pairs) s.chain s'.chain :=
  .cons scopes.current scopes.outer

theorem ofChain {c c' : Chain} (chains : List.Forall₂ (Scope.Matches p pairs) c c') :
    Matches p pairs (.ofChain c) (.ofChain c') := by
  cases chains with
  | nil => exact ⟨.nil, .nil⟩
  | cons first others => exact ⟨first, others⟩

theorem enter (scopes : Matches p pairs s s') : Matches p pairs s.enter s'.enter :=
  ⟨.nil, scopes.chain⟩

theorem leave (scopes : Matches p pairs s s') : Matches p pairs s.leave s'.leave :=
  .ofChain scopes.outer

theorem define (scopes : Matches p pairs s s') {b b' : Binding} (name : b.name = b'.name)
    (bindings : b.Matches p pairs b.name b') (mentioned : p.Mentions b.name) :
    Agree (Matches p pairs) (s.define b) (s'.define b') :=
  (scopes.current.define name bindings mentioned).map fun current => ⟨current, scopes.outer⟩

theorem assign (scopes : Matches p pairs s s') {name : String} (mentioned : p.Mentions name)
    {v v' : Value} (alike : v.Alike pairs v') :
    Agree (Matches p pairs) (s.assign name v) (s'.assign name v') :=
  (Chain.assign_matches scopes.chain mentioned alike).map .ofChain

end Scopes.Matches

end Script
