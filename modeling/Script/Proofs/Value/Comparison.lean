import Mathlib.Data.String.Basic
import Script.Proofs.Number.Order
import Script.Proofs.Value.Equality
import Script.Value.Operator

/-!
The comparison operators on values of all kinds: what the two equalities have to do with each other,
and which values are ordered.
-/

namespace Script

namespace Value

variable {a b c : Value}

def isNaN : Value → Bool
  | .number x => x.isNaN
  | _ => false

/-- Two numbers, or two strings. -/
inductive Comparable : Value → Value → Prop
  | numbers (x y : Number) : Comparable (.number x) (.number y)
  | strings (s t : String) : Comparable (.string s) (.string t)

section Equalities

theorem strictEquals_eq_true : a.strictEquals b = true ↔
    (∃ x y, a = .number x ∧ b = .number y ∧ (x == y) = true) ∨ a.kind ≠ .number ∧ a = b := by
  cases a with
  | number x =>
      cases b with
      | number y =>
          show (x == y) = true ↔ _
          constructor
          · exact fun same => .inl ⟨x, y, rfl, rfl, same⟩
          · rintro (⟨_, _, ⟨⟩, ⟨⟩, same⟩ | ⟨apart, -⟩)
            · exact same
            · exact absurd rfl apart
      | string | boolean | undefined | null | array | function | library =>
          exact iff_of_false nofun (by rintro (⟨_, _, -, ⟨⟩, -⟩ | ⟨-, ⟨⟩⟩))
  | string | boolean | undefined | null | array | function | library =>
      show decide (_ = b) = true ↔ _
      rw [decide_eq_true_iff]
      constructor
      · exact fun same => .inr ⟨nofun, same⟩
      · rintro (⟨_, _, ⟨⟩, -⟩ | ⟨-, same⟩)
        exact same

theorem strictEquals_self : a.strictEquals a = true ↔ a.isNaN = false := by
  rw [strictEquals_eq_true]
  cases a with
  | number x =>
      rw [isNaN, ← Number.beq_self]
      constructor
      · rintro (⟨_, _, ⟨⟩, ⟨⟩, same⟩ | ⟨apart, -⟩)
        · exact same
        · exact absurd rfl apart
      · exact fun same => .inl ⟨x, x, rfl, rfl, same⟩
  | string | boolean | undefined | null | array | function | library =>
      exact iff_of_true (.inr ⟨nofun, rfl⟩) rfl

theorem strictEquals_swap (same : a.strictEquals b = true) : b.strictEquals a = true := by
  rw [strictEquals_eq_true] at same ⊢
  rcases same with ⟨x, y, rfl, rfl, same⟩ | ⟨apart, rfl⟩
  · exact .inl ⟨y, x, rfl, rfl, Number.beq_symm x y ▸ same⟩
  · exact .inr ⟨apart, rfl⟩

theorem strictEquals_symm (a b : Value) : a.strictEquals b = b.strictEquals a :=
  Bool.eq_iff_iff.mpr ⟨strictEquals_swap, strictEquals_swap⟩

theorem strictEquals_trans (first : a.strictEquals b = true) (second : b.strictEquals c = true) :
    a.strictEquals c = true := by
  rw [strictEquals_eq_true] at first
  rcases first with ⟨x, y, rfl, rfl, same⟩ | ⟨-, rfl⟩
  · rw [strictEquals_eq_true] at second
    rcases second with ⟨_, z, ⟨⟩, rfl, next⟩ | ⟨apart, -⟩
    · exact Number.beq_trans same next
    · exact absurd rfl apart
  · exact second

theorem kind_of_strictEquals (same : a.strictEquals b = true) : a.kind = b.kind := by
  rw [strictEquals_eq_true] at same
  rcases same with ⟨x, y, rfl, rfl, -⟩ | ⟨-, rfl⟩ <;> rfl

theorem looseEquals_eq (a b : Value) : a.looseEquals b =
    (if a.isNullish || b.isNullish then a.isNullish && b.isNullish
    else if a.isReference || b.isReference then decide (a = b)
    else if a.kind = b.kind then a.strictEquals b
    else a.toNumber?.getD Number.nan == b.toNumber?.getD Number.nan) := by
  rw [looseEquals, looseEquals?_eq]
  rfl

theorem looseEquals_of_kind (same : a.kind = b.kind) : a.looseEquals b = a.strictEquals b := by
  rw [looseEquals_eq]
  cases a <;> cases b <;> first | rfl | cases same

theorem looseEquals_symm (a b : Value) : a.looseEquals b = b.looseEquals a := by
  rw [looseEquals_eq, looseEquals_eq, Bool.or_comm b.isNullish, Bool.and_comm b.isNullish,
    Bool.or_comm b.isReference, strictEquals_symm b, Number.beq_symm (b.toNumber?.getD _)]
  simp only [eq_comm (a := b), eq_comm (a := b.kind)]

theorem looseEquals_of_nullish (nullish : a.isNullish = true) :
    a.looseEquals b = b.isNullish := by
  rw [looseEquals_eq, nullish, Bool.true_or, if_pos rfl, Bool.true_and]

theorem looseEquals_of_reference (reference : a.isReference = true) :
    a.looseEquals b = decide (a = b) := by
  rw [looseEquals_eq]
  cases a with
  | array | function | library => cases b <;> rfl
  | number | string | boolean | undefined | null => cases reference

end Equalities

end Value

namespace BinaryOp

/-- On the two values the operator comes to `t`. -/
def Says (h : Heap) (op : BinaryOp) (a b : Value) (t : Bool) : Prop :=
  op.apply h a b = .ok (.boolean t)

def relations : List BinaryOp := [.lt, .le, .gt, .ge]

/-- Strict equality never stops a program. It is an equivalence, but that NaN is not equal to itself. -/
structure StrictEquality (h : Heap) : Prop where
  total : ∀ a b, ∃ t, Says h .strictEq a b t
  self : ∀ a, Says h .strictEq a a (!a.isNaN)
  symm : ∀ {a b t}, Says h .strictEq a b t → Says h .strictEq b a t
  trans : ∀ {a b c}, Says h .strictEq a b true → Says h .strictEq b c true →
    Says h .strictEq a c true
  negated : ∀ a b t, Says h .strictNe a b (!t) ↔ Says h .strictEq a b t

/-- Loose equality never stops a program either, whatever it reads as numbers. It says more values
equal, but only of different kinds: `undefined` and `null`, and scalars. -/
structure LooseEquality (h : Heap) : Prop where
  total : ∀ a b, ∃ t, a.looseEquals? b = some t ∧ Says h .eq a b t
  symm : ∀ {a b t}, Says h .eq a b t → Says h .eq b a t
  ofStrict : ∀ {a b}, Says h .strictEq a b true → Says h .eq a b true
  sameKind : ∀ {a b t}, a.kind = b.kind → (Says h .eq a b t ↔ Says h .strictEq a b t)
  nullish : ∀ {a : Value} b, a.isNullish = true → Says h .eq a b b.isNullish
  reference : ∀ {a : Value} b, a.isReference = true → Says h .eq a b (decide (a = b))
  negated : ∀ a b t, Says h .ne a b (!t) ↔ Says h .eq a b t

/-- Numbers are ordered but for NaN, and strings are; nothing else is. -/
structure Ordering (h : Heap) : Prop where
  one : ∀ {a b : Value}, a.Comparable b → a.isNaN = false → b.isNaN = false →
    ∃ less same more, Says h .lt a b less ∧ Says h .strictEq a b same ∧ Says h .gt a b more ∧
      Says h .le a b (less || same) ∧ [less, same, more].count true = 1
  reversed : ∀ {a b : Value}, a.Comparable b → ge.apply h a b = le.apply h b a
  trans : ∀ {a b c}, Says h .lt a b true → Says h .lt b c true → Says h .lt a c true
  nan : ∀ op ∈ relations, ∀ {a b : Value}, a.Comparable b → (a.isNaN || b.isNaN) = true →
    Says h op a b false
  mismatch : ∀ op ∈ relations, ∀ {a b : Value}, ¬ a.Comparable b →
    ∃ cause, op.apply h a b = .error (.fault cause) ∧ cause.kind = .typeMismatch

section Laws

variable {h : Heap} {op : BinaryOp} {a b c : Value} {r t : Bool}

theorem says_iff (known : op.apply h a b = .ok (.boolean r)) : Says h op a b t ↔ r = t := by
  rw [Says, known]
  exact ⟨fun same => by cases same; rfl, fun same => by rw [same]⟩

theorem says_strictEq : Says h .strictEq a b t ↔ a.strictEquals b = t := says_iff rfl

theorem says_eq : Says h .eq a b t ↔ a.looseEquals b = t := says_iff rfl

theorem strictEquality (h : Heap) : StrictEquality h where
  total a b := ⟨_, rfl⟩
  self a := by
    rw [says_strictEq, Bool.eq_iff_iff, Bool.not_eq_true']
    exact Value.strictEquals_self
  symm {a b t} known := by
    rw [says_strictEq] at known ⊢
    rw [Value.strictEquals_symm, known]
  trans {a b c} first second := by
    rw [says_strictEq] at first second ⊢
    exact Value.strictEquals_trans first second
  negated a b t := by
    rw [says_strictEq, says_iff rfl]
    exact Bool.not_inj_iff

theorem looseEquality (h : Heap) : LooseEquality h where
  total a b := by
    obtain ⟨t, known⟩ := Option.isSome_iff_exists.mp (Value.looseEquals?_isSome a b)
    refine ⟨t, known, ?_⟩
    rw [says_eq, Value.looseEquals, known]
    rfl
  symm {a b t} known := by
    rw [says_eq] at known ⊢
    rw [Value.looseEquals_symm, known]
  ofStrict {a b} known := by
    rw [says_strictEq] at known
    rw [says_eq, Value.looseEquals_of_kind (Value.kind_of_strictEquals known), known]
  sameKind {a b t} same := by
    rw [says_strictEq, says_eq, Value.looseEquals_of_kind same]
  nullish {a} b nullish := by
    rw [says_eq, Value.looseEquals_of_nullish nullish]
  reference {a} b reference := by
    rw [says_eq, Value.looseEquals_of_reference reference]
  negated a b t := by
    rw [says_eq, says_iff rfl]
    exact Bool.not_inj_iff

theorem count_decided {α : Type} [LinearOrder α] (p q : α) :
    [decide (p < q), decide (p = q), decide (q < p)].count true = 1 := by
  rcases lt_trichotomy p q with less | rfl | more
  · simp [less, less.ne, less.asymm]
  · simp
  · simp [more, more.ne', more.asymm]

theorem one_of_three (ordered : a.Comparable b) (number : a.isNaN = false)
    (number' : b.isNaN = false) :
    ∃ less same more, Says h .lt a b less ∧ Says h .strictEq a b same ∧ Says h .gt a b more ∧
      Says h .le a b (less || same) ∧ [less, same, more].count true = 1 := by
  cases ordered with
  | numbers x y =>
      have numbers : x.isNaN = false ∧ y.isNaN = false := ⟨number, number'⟩
      have lt : decide (x < y) = decide (x.rank < y.rank) :=
        decide_eq_decide.mpr (Number.lt_iff.trans (and_iff_right numbers))
      have gt : decide (y < x) = decide (y.rank < x.rank) :=
        decide_eq_decide.mpr (Number.lt_iff.trans (and_iff_right numbers.symm))
      have eq : (x == y) = decide (x.rank = y.rank) := by
        rw [Bool.eq_iff_iff, decide_eq_true_iff]
        exact Number.beq_iff.trans (and_iff_right numbers)
      have le : decide (x ≤ y) = (decide (x < y) || (x == y)) := by
        rw [lt, eq, Bool.eq_iff_iff, Bool.or_eq_true, decide_eq_true_iff, decide_eq_true_iff,
          decide_eq_true_iff, ← Int.le_iff_lt_or_eq]
        exact Number.le_iff.trans (and_iff_right numbers)
      refine ⟨decide (x < y), x == y, decide (y < x), rfl, rfl, rfl, (says_iff rfl).mpr le, ?_⟩
      rw [lt, eq, gt]
      exact count_decided x.rank y.rank
  | strings s t =>
      have eq : (Value.string s).strictEquals (.string t) = decide (s = t) := by
        rw [Bool.eq_iff_iff, decide_eq_true_iff]
        show decide (Value.string s = Value.string t) = true ↔ _
        rw [decide_eq_true_iff, Value.string.injEq]
      have le : decide (¬ t < s) = (decide (s < t) || decide (s = t)) := by
        rw [Bool.eq_iff_iff, Bool.or_eq_true, decide_eq_true_iff, decide_eq_true_iff,
          decide_eq_true_iff, not_lt, le_iff_lt_or_eq]
      exact ⟨decide (s < t), decide (s = t), decide (t < s), rfl, says_strictEq.mpr eq, rfl,
        (says_iff rfl).mpr le, count_decided s t⟩

theorem mismatch_of_not_comparable {compared : String → String → Bool} (apart : ¬ a.Comparable b) :
    comparison op compared a b = mismatch op a b := by
  cases a with
  | number x =>
      cases b with
      | number y => exact absurd (.numbers x y) apart
      | string | boolean | undefined | null | array | function | library => rfl
  | string s =>
      cases b with
      | string t => exact absurd (.strings s t) apart
      | number | boolean | undefined | null | array | function | library => rfl
  | boolean | undefined | null | array | function | library => rfl

theorem refused_of_not_comparable (relation : op ∈ relations) (apart : ¬ a.Comparable b) :
    op.apply h a b = mismatch op a b := by
  rcases relation with _ | ⟨_, _ | ⟨_, _ | ⟨_, _ | ⟨_, ⟨⟩⟩⟩⟩⟩ <;>
    exact mismatch_of_not_comparable apart

theorem says_lt_trans (first : Says h .lt a b true) (second : Says h .lt b c true) :
    Says h .lt a c true := by
  by_cases ordered : a.Comparable b
  · cases ordered with
    | numbers x y =>
        cases c with
        | number z =>
            have less : x < y := decide_eq_true_iff.mp ((says_iff rfl).mp first)
            have next : y < z := decide_eq_true_iff.mp ((says_iff rfl).mp second)
            exact (says_iff rfl).mpr (decide_eq_true (Number.lt_trans less next))
        | string | boolean | undefined | null | array | function | library => cases second
    | strings s t =>
        cases c with
        | string u =>
            have less : s < t := decide_eq_true_iff.mp ((says_iff rfl).mp first)
            have next : t < u := decide_eq_true_iff.mp ((says_iff rfl).mp second)
            exact (says_iff rfl).mpr (decide_eq_true (lt_trans less next))
        | number | boolean | undefined | null | array | function | library => cases second
  · rw [Says, refused_of_not_comparable (.head _) ordered] at first
    cases first

theorem says_nan (relation : op ∈ relations) (ordered : a.Comparable b)
    (nan : (a.isNaN || b.isNaN) = true) : Says h op a b false := by
  cases ordered with
  | numbers x y =>
      have left : ¬ (x.isNaN = false ∧ y.isNaN = false) := by
        rw [← Bool.or_eq_false_iff]
        exact Bool.not_eq_false _ |>.mpr nan
      have right : ¬ (y.isNaN = false ∧ x.isNaN = false) := fun both => left both.symm
      rcases relation with _ | ⟨_, _ | ⟨_, _ | ⟨_, _ | ⟨_, ⟨⟩⟩⟩⟩⟩
      · exact (says_iff rfl).mpr (decide_eq_false fun less => left (Number.lt_iff.mp less).1)
      · exact (says_iff rfl).mpr (decide_eq_false fun less => left (Number.le_iff.mp less).1)
      · exact (says_iff rfl).mpr (decide_eq_false fun less => right (Number.lt_iff.mp less).1)
      · exact (says_iff rfl).mpr (decide_eq_false fun less => right (Number.le_iff.mp less).1)
  | strings => cases nan

theorem ordering (h : Heap) : Ordering h where
  one := one_of_three
  reversed {a b} ordered := by
    cases ordered <;> rfl
  trans := says_lt_trans
  nan _ relation {_ _} := says_nan relation
  mismatch _ relation {_ _} apart := ⟨_, refused_of_not_comparable relation apart, rfl⟩

end Laws

end BinaryOp

/-- The comparison operators are coherent on all values. -/
theorem comparisons_coherent (h : Heap) :
    BinaryOp.StrictEquality h ∧ BinaryOp.LooseEquality h ∧ BinaryOp.Ordering h :=
  ⟨BinaryOp.strictEquality h, BinaryOp.looseEquality h, BinaryOp.ordering h⟩

end Script
