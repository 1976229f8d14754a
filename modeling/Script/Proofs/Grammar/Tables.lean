import Script.Proofs.Grammar.Derivation

/-!
The tables that readers look tokens up in hold what the grammar says.
-/

namespace Script

open Grammar

theorem Connective.ofOperator?_eq_some_iff {op : Operator} {connective : Connective} :
    Connective.ofOperator? op = some connective ↔ Binds op connective.level connective := by
  constructor
  · intro found
    cases op <;> simp [ofOperator?] at found <;> subst found <;> constructor
  · generalize known : connective.level = level
    intro binds
    cases binds <;> rfl

theorem Grammar.Binds.level_eq {op : Operator} {level : Nat} {connective : Connective}
    (binds : Binds op level connective) : connective.level = level := by
  cases binds <;> rfl

theorem Connective.atLevel?_eq_some_iff {level : Nat} {kind : Kind} {connective : Connective} :
    Connective.atLevel? level kind = some connective ↔
      ∃ op, kind = .operator op ∧ Binds op level connective := by
  constructor
  · intro found
    unfold atLevel? at found
    split at found
    · next op =>
        rw [Option.filter_eq_some_iff, ofOperator?_eq_some_iff] at found
        have same : connective.level = level := by simpa using found.2
        exact ⟨op, rfl, same ▸ found.1⟩
    · cases found
  · rintro ⟨op, rfl, binds⟩
    have same := binds.level_eq
    rw [← same] at binds
    simp [atLevel?, ofOperator?_eq_some_iff.mpr binds, same]

theorem UnaryOp.ofKind?_eq_some_iff {kind : Kind} {op : UnaryOp} :
    UnaryOp.ofKind? kind = some op ↔ Leads kind op := by
  constructor
  · intro found
    unfold ofKind? at found
    split at found <;> cases found <;> constructor
  · intro leads
    cases leads <;> rfl

theorem Kind.name?_eq_some_iff {kind : Kind} {text : String} :
    kind.name? = some text ↔ kind = .identifier text := by
  cases kind <;> simp [name?]

theorem Kind.atom?_eq_some_iff {pos : Pos} {kind : Kind} {e : Expr} :
    kind.atom? pos = some e ↔
      (∃ value, Denotes kind value ∧ e = .literal pos value) ∨
        ∃ text, kind = .identifier text ∧ e = .name pos text := by
  constructor
  · intro found
    unfold atom? at found
    split at found <;> cases found
    case h_1 x => exact .inl ⟨_, .number x, rfl⟩
    case h_2 s => exact .inl ⟨_, .string s, rfl⟩
    case h_3 => exact .inl ⟨_, .true, rfl⟩
    case h_4 => exact .inl ⟨_, .false, rfl⟩
    case h_5 => exact .inl ⟨_, .null, rfl⟩
    case h_6 => exact .inl ⟨_, .undefined, rfl⟩
    case h_7 text => exact .inr ⟨text, rfl, rfl⟩
  · rintro (⟨value, denotes, rfl⟩ | ⟨text, rfl, rfl⟩)
    · cases denotes <;> rfl
    · rfl

theorem Grammar.declKind?_eq_some_iff {kind : Kind} {declared : DeclKind} :
    declKind? kind = some declared ↔ Declares kind declared := by
  constructor
  · intro found
    unfold declKind? at found
    split at found <;> cases found <;> constructor
  · intro declares
    cases declares <;> rfl

theorem Target.ofExpr?_eq_some_iff {e : Expr} {target : Target} :
    Target.ofExpr? e = some target ↔ Assignable e target := by
  constructor
  · intro found
    unfold ofExpr? at found
    split at found <;> cases found <;> constructor
  · intro assignable
    cases assignable <;> rfl

end Script
