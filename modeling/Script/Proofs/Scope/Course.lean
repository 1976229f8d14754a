import Script.Scope.Basic

/-!
Courses of scopes: scopes are entered and left, names are declared and assigned to. What a scope
binds stays bound as long as the scope is not left, and a constant keeps its value.
-/

namespace Script

namespace Scope

variable {s t u : Scope} {name : String}

def binds (s : Scope) (name : String) : Bool := (s.find? name).isSome

def fixes (s : Scope) (name : String) : Bool := (s.find? name).any (·.constant)

structure Alike (s t : Scope) : Prop where
  binds : ∀ name, t.binds name = s.binds name
  fixes : ∀ name, t.fixes name = s.fixes name

/-- Names stay bound, and constants stay with their values. -/
structure Grows (s t : Scope) : Prop where
  binds : ∀ name, s.binds name → t.binds name
  constants : ∀ name b, s.find? name = some b → b.constant → t.find? name = some b

/-- One more name, or the same names, and one more constant if it is one. -/
structure Gains (name : String) (constant : Bool) (s t : Scope) : Prop where
  binds : ∀ other, t.binds other = (other = name || s.binds other)
  fixes : ∀ other, t.fixes other = ((constant && other = name) || s.fixes other)

theorem binds_of_fixes (fixed : s.fixes name) : s.binds name := by
  unfold binds
  unfold fixes at fixed
  cases found : s.find? name with
  | none =>
      rw [found] at fixed
      exact fixed
  | some b => rfl

theorem Alike.refl (s : Scope) : s.Alike s := ⟨fun _ => rfl, fun _ => rfl⟩

theorem Alike.trans (first : s.Alike t) (second : t.Alike u) : s.Alike u where
  binds := fun name => (second.binds name).trans (first.binds name)
  fixes := fun name => (second.fixes name).trans (first.fixes name)

theorem Grows.refl (s : Scope) : s.Grows s := ⟨fun _ bound => bound, fun _ _ found _ => found⟩

theorem Grows.trans (first : s.Grows t) (second : t.Grows u) : s.Grows u where
  binds := fun name bound => second.binds name (first.binds name bound)
  constants := fun name b found constant =>
    second.constants name b (first.constants name b found constant) constant

theorem name_of_find? {b : Binding} (found : s.find? name = some b) : b.name = name := by
  simpa using List.find?_some found

theorem find?_bind (s : Scope) (b : Binding) (name : String) :
    (s.bind b).find? name = if b.name = name then some b else s.find? name := by
  split
  · next same => rw [← same, find?_bind_self]
  · next different => exact find?_bind_of_ne s different

theorem grows_bind {b : Binding} (free : s.fixes b.name = false) : s.Grows (s.bind b) where
  binds := by
    intro name bound
    rw [binds, find?_bind]
    split
    · rfl
    · exact bound
  constants := by
    intro name old found constant
    have different : b.name ≠ name := by
      rintro rfl
      rw [fixes, found] at free
      exact absurd constant (by simpa using free)
    rw [find?_bind, if_neg different, found]

theorem gains_bind {b : Binding} (free : s.fixes b.name = false) :
    s.Gains b.name b.constant (s.bind b) where
  binds := by
    intro other
    rw [binds, find?_bind]
    by_cases same : b.name = other
    · simp [same]
    · simp [same, Ne.symm same, binds]
  fixes := by
    intro other
    rw [fixes, find?_bind]
    by_cases same : b.name = other
    · subst same
      simp [free]
    · simp [same, Ne.symm same, fixes]

theorem define_eq_ok {b : Binding} (defines : s.define b = .ok t) :
    s.fixes b.name = false ∧ t = s.bind b := by
  unfold define at defines
  unfold fixes
  split at defines
  · next old found =>
      rw [found]
      split at defines
      · cases defines
      · next free =>
          cases defines
          exact ⟨by simpa using free, rfl⟩
  · next missing =>
      cases defines
      rw [missing]
      exact ⟨rfl, rfl⟩

theorem write_keeps {b : Binding} (found : s.find? name = some b) (free : b.constant = false)
    (v : Value) : s.Alike (s.bind { b with value := v }) ∧ s.Grows (s.bind { b with value := v }) := by
  have named := name_of_find? found
  have unfixed : s.fixes b.name = false := by rw [fixes, named, found, Option.any_some, free]
  have gains : s.Gains b.name b.constant (s.bind { b with value := v }) :=
    gains_bind (b := { b with value := v }) unfixed
  refine ⟨⟨fun other => ?_, fun other => ?_⟩, grows_bind unfixed⟩
  · rw [gains.binds]
    by_cases same : other = b.name
    · rw [same, binds, named, found]
      exact Bool.or_true _
    · simp [same]
  · rw [gains.fixes, free]
    rfl

end Scope

theorem Chain.assign_eq_ok {name : String} {v : Value} : ∀ {c d : Chain},
    c.assign name v = .ok d → ∃ inner s outer b, c = inner ++ s :: outer ∧
      d = inner ++ s.bind { b with value := v } :: outer ∧ s.find? name = some b ∧
      b.constant = false
  | [], _, assigns => by cases assigns
  | s :: outer, d, assigns => by
      rw [Chain.assign] at assigns
      split at assigns
      · next b found =>
          split at assigns
          · cases assigns
          · next free =>
              cases assigns
              exact ⟨[], s, outer, b, rfl, rfl, found, by simpa using free⟩
      · cases result : Chain.assign name v outer with
        | error cause =>
            rw [result] at assigns
            cases assigns
        | ok outer' =>
            rw [result] at assigns
            cases assigns
            obtain ⟨inner, t, further, b, rfl, rfl, found, free⟩ := assign_eq_ok result
            exact ⟨s :: inner, t, further, b, rfl, rfl, found, free⟩

theorem Chain.assign_append {name : String} {v : Value} {inner : Chain}
    (missing : inner.find? name = none) (c : Chain) :
    Chain.assign name v (inner ++ c) = (c.assign name v).map (inner ++ ·) := by
  induction inner with
  | nil =>
      rw [List.nil_append]
      cases c.assign name v <;> rfl
  | cons s rest again =>
      rw [Chain.find?, List.findSome?_cons] at missing
      cases found : s.find? name with
      | some b =>
          rw [found] at missing
          cases missing
      | none =>
          rw [found] at missing
          rw [List.cons_append, Chain.assign, found, again missing]
          cases c.assign name v <;> rfl

namespace Scopes

variable {s t u : Scopes} {stays closed : Nat}

def depth (s : Scopes) : Nat := s.outer.length + 1

def levels (s : Scopes) : List Scope := s.chain.reverse

def level? (s : Scopes) (n : Nat) : Option Scope := s.levels[n]?

/-- Scopes are entered and left, the outermost `stays` of them not being left; names are declared,
but not in the outermost `closed`, and are assigned to. -/
inductive Course (stays closed : Nat) (s : Scopes) : Scopes → Prop
  | start : Course stays closed s s
  | enter {t : Scopes} (before : Course stays closed s t) : Course stays closed s t.enter
  | leave {t : Scopes} (before : Course stays closed s t) (inside : t.outer ≠ [])
      (kept : stays ≤ t.outer.length) : Course stays closed s t.leave
  | define {t u : Scopes} {b : Binding} (before : Course stays closed s t)
      (free : closed ≤ t.outer.length) (defines : t.define b = .ok u) : Course stays closed s u
  | assign {t u : Scopes} {name : String} {v : Value} (before : Course stays closed s t)
      (assigns : t.assign name v = .ok u) : Course stays closed s u

theorem levels_eq (s : Scopes) : s.levels = s.outer.reverse ++ [s.current] := by
  simp [levels, chain]

theorem length_levels (s : Scopes) : s.levels.length = s.depth := by
  simp [levels_eq, depth]

theorem levels_enter (s : Scopes) : s.enter.levels = s.levels ++ [[]] := by
  simp [levels, chain, enter]

theorem levels_leave (inside : s.outer ≠ []) : s.leave.levels = s.outer.reverse := by
  obtain ⟨current, outer⟩ := s
  cases outer with
  | nil => exact absurd rfl inside
  | cons next further => simp [levels, chain, leave, ofChain]

theorem depth_enter (s : Scopes) : s.enter.depth = s.depth + 1 := by
  simp [depth, enter, chain]

theorem depth_leave (inside : s.outer ≠ []) : s.leave.depth = s.outer.length := by
  rw [← length_levels, levels_leave inside, List.length_reverse]

theorem level?_current (s : Scopes) : s.level? s.outer.length = some s.current := by
  simp [level?, levels_eq]

theorem define_eq_ok {b : Binding} (defines : s.define b = .ok t) :
    s.current.fixes b.name = false ∧ t = { s with current := s.current.bind b } := by
  unfold define at defines
  cases result : s.current.define b with
  | error cause =>
      rw [result] at defines
      cases defines
  | ok current =>
      rw [result] at defines
      cases defines
      obtain ⟨free, rfl⟩ := Scope.define_eq_ok result
      exact ⟨free, rfl⟩

theorem levels_define {b : Binding} (defines : s.define b = .ok t) :
    t.levels = s.levels.set s.outer.length (s.current.bind b) := by
  obtain ⟨-, rfl⟩ := define_eq_ok defines
  simp [levels_eq]

theorem levels_assign {name : String} {v : Value} (assigns : s.assign name v = .ok t) :
    ∃ n scope b, s.level? n = some scope ∧ scope.find? name = some b ∧ b.constant = false ∧
      t.levels = s.levels.set n (scope.bind { b with value := v }) := by
  unfold assign at assigns
  cases result : s.chain.assign name v with
  | error cause =>
      rw [result] at assigns
      cases assigns
  | ok c =>
      rw [result] at assigns
      cases assigns
      obtain ⟨inner, scope, outer, b, before, rfl, found, free⟩ := Chain.assign_eq_ok result
      refine ⟨outer.length, scope, b, ?_, found, free, ?_⟩
      · simp [level?, levels, before]
      · have same : (ofChain (inner ++ scope.bind { b with value := v } :: outer)).chain =
            inner ++ scope.bind { b with value := v } :: outer := by
          cases inner <;> rfl
        simp [levels, before, same]

theorem depth_define {b : Binding} (defines : s.define b = .ok t) : t.depth = s.depth := by
  rw [← length_levels, levels_define defines, List.length_set, length_levels]

theorem depth_assign {name : String} {v : Value} (assigns : s.assign name v = .ok t) :
    t.depth = s.depth := by
  obtain ⟨n, scope, b, -, -, -, levels⟩ := levels_assign assigns
  rw [← length_levels, levels, List.length_set, length_levels]

structure Alike (s t : Scopes) : Prop where
  depth : t.depth = s.depth
  level : ∀ n scope, s.level? n = some scope →
    ∃ scope', t.level? n = some scope' ∧ scope.Alike scope'

structure Gains (name : String) (constant : Bool) (s t : Scopes) : Prop where
  outer : t.outer = s.outer
  current : s.current.Gains name constant t.current

theorem Alike.current (alike : s.Alike t) : s.current.Alike t.current := by
  obtain ⟨scope, at_n, same⟩ := alike.level _ _ s.level?_current
  have deep : t.outer.length = s.outer.length := Nat.succ.inj alike.depth
  rw [← deep, level?_current] at at_n
  cases at_n
  exact same

namespace Course

theorem trans (first : Course stays closed s t) (second : Course stays closed t u) :
    Course stays closed s u := by
  induction second with
  | start => exact first
  | enter _ again => exact .enter again
  | leave _ inside kept again => exact .leave again inside kept
  | define _ free defines again => exact .define again free defines
  | assign _ assigns again => exact .assign again assigns

theorem mono {fewer opened : Nat} (course : Course stays closed s t) (le : fewer ≤ stays)
    (free : opened ≤ closed) : Course fewer opened s t := by
  induction course with
  | start => exact .start
  | enter _ again => exact .enter again
  | leave _ inside kept again => exact .leave again inside (Nat.le_trans le kept)
  | define _ after defines again => exact .define again (Nat.le_trans free after) defines
  | assign _ assigns again => exact .assign again assigns

theorem level?_grows (course : Course stays closed s t) {n : Nat} (kept : n < stays)
    {scope : Scope} (at_n : s.level? n = some scope) :
    ∃ scope', t.level? n = some scope' ∧ scope.Grows scope' ∧ (n < closed → scope.Alike scope') := by
  induction course with
  | start => exact ⟨scope, at_n, .refl scope, fun _ => .refl scope⟩
  | @enter t _ again =>
      obtain ⟨scope', at_n', grows⟩ := again
      refine ⟨scope', ?_, grows⟩
      have inside : n < t.levels.length := (List.getElem?_eq_some_iff.mp at_n').1
      rw [level?, levels_enter, List.getElem?_append_left inside]
      exact at_n'
  | @leave t _ inside open_ again =>
      obtain ⟨scope', at_n', grows⟩ := again
      refine ⟨scope', ?_, grows⟩
      have below : n < t.outer.reverse.length := by
        rw [List.length_reverse]
        exact Nat.lt_of_lt_of_le kept open_
      rw [level?, levels_eq, List.getElem?_append_left below] at at_n'
      rw [level?, levels_leave inside]
      exact at_n'
  | @define t u b _ free defines again =>
      obtain ⟨scope', at_n', grows, alike⟩ := again
      have written : u.level? n = _ := congrArg (·[n]?) (levels_define defines)
      by_cases here : t.outer.length = n
      · subst here
        have unfixed := (define_eq_ok defines).1
        rw [level?_current] at at_n'
        cases at_n'
        rw [List.getElem?_set_self (by simp [levels_eq])] at written
        exact ⟨_, written, grows.trans (Scope.grows_bind unfixed),
          fun before => absurd free (Nat.not_le_of_lt before)⟩
      · rw [List.getElem?_set_ne here] at written
        exact ⟨scope', written.trans at_n', grows, alike⟩
  | @assign t u name v _ assigns again =>
      obtain ⟨scope', at_n', grows, alike⟩ := again
      obtain ⟨k, other, b, at_k, found, free, levels⟩ := levels_assign assigns
      have written : u.level? n = _ := congrArg (·[n]?) levels
      by_cases here : k = n
      · subst here
        rw [at_k] at at_n'
        cases at_n'
        obtain ⟨same, more⟩ := Scope.write_keeps found free v
        rw [List.getElem?_set_self (List.getElem?_eq_some_iff.mp at_k).1] at written
        exact ⟨_, written, grows.trans more, fun before => (alike before).trans same⟩
      · rw [List.getElem?_set_ne here] at written
        exact ⟨scope', written.trans at_n', grows, alike⟩

end Course

inductive Move (s : Scopes) : Scopes → Prop
  | stay : Move s s
  | enter : Move s s.enter
  | leave (inside : s.outer ≠ []) : Move s s.leave
  | define {t : Scopes} {b : Binding} (defines : s.define b = .ok t) : Move s t
  | assign {t : Scopes} {name : String} {v : Value} (assigns : s.assign name v = .ok t) : Move s t

/-- The `n`th scope from outside stays, with its names and its constants. -/
def Keeps (n : Nat) (s t : Scopes) : Prop :=
  ∀ scope, s.level? n = some scope → ∃ scope', t.level? n = some scope' ∧ scope.Grows scope'

theorem Keeps.trans {n : Nat} (first : Keeps n s t) (second : Keeps n t u) : Keeps n s u := by
  intro scope at_n
  obtain ⟨scope', at_n', grows⟩ := first scope at_n
  obtain ⟨scope'', at_n'', more⟩ := second scope' at_n'
  exact ⟨scope'', at_n'', grows.trans more⟩

theorem Move.keeps {n : Nat} (move : Move s t) (deep : n < t.depth) : Keeps n s t := by
  have course : Course (n + 1) 0 s t := by
    cases move with
    | stay => exact .start
    | enter => exact .enter .start
    | leave inside =>
        rw [depth_leave inside] at deep
        exact .leave .start inside deep
    | define defines => exact .define .start (Nat.zero_le _) defines
    | assign assigns => exact .assign .start assigns
  intro scope at_n
  obtain ⟨scope', at_n', grows, -⟩ := course.level?_grows (Nat.lt_succ_self n) at_n
  exact ⟨scope', at_n', grows⟩

/-- A course back to the scope it began in. Of the scopes there were, names are declared at most in
the `own` innermost. -/
structure Round (own : Nat) (s t : Scopes) : Prop where
  course : Course s.depth (s.depth - own) s t
  depth : t.depth = s.depth

namespace Round

variable {own : Nat}

theorem refl (s : Scopes) : Round own s s := ⟨.start, rfl⟩

theorem of_eq (same : t = s) : Round own s t := by
  rw [same]
  exact .refl s

theorem trans (first : Round own s t) (second : Round own t u) : Round own s u where
  course := by
    have rest := second.course
    rw [first.depth] at rest
    exact first.course.trans rest
  depth := second.depth.trans first.depth

theorem mono {more : Nat} (round : Round own s t) (le : own ≤ more) : Round more s t :=
  ⟨round.course.mono (Nat.le_refl _) (Nat.sub_le_sub_left le _), round.depth⟩

theorem alike (round : Round 0 s t) : s.Alike t where
  depth := round.depth
  level := by
    intro n scope at_n
    have within : n < s.depth := s.length_levels ▸ (List.getElem?_eq_some_iff.mp at_n).1
    obtain ⟨scope', at_n', -, same⟩ := round.course.level?_grows within at_n
    exact ⟨scope', at_n', same within⟩

theorem length_outer (round : Round own s.enter t) : t.outer.length = s.depth := by
  have same := round.depth
  rw [depth_enter] at same
  exact Nat.succ.inj same

theorem inside (round : Round own s.enter t) : t.outer ≠ [] := by
  rw [← List.length_pos_iff, round.length_outer]
  exact Nat.succ_pos _

theorem leave (round : Round 1 s.enter t) : Round 0 s t.leave := by
  have within := round.course
  rw [depth_enter] at within
  have entered : Course s.depth s.depth s s.enter := .enter .start
  have whole := entered.trans (within.mono (Nat.le_succ _) (Nat.le_refl _))
  refine ⟨?_, ?_⟩
  · have kept := Nat.le_of_eq round.length_outer.symm
    exact (whole.leave round.inside kept).mono (Nat.le_refl _) (Nat.sub_le _ _)
  · rw [depth_leave round.inside, round.length_outer]

end Round

end Scopes

end Script
