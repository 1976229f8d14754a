import Script.Proofs.Scope.Course
import Script.Scope.Tree

/-!
What a request reads and writes in a tree of scopes: of the scopes from one to the root, the first
that binds the name, and no other.
-/

namespace Script.ScopeTree

variable {t : ScopeTree} {n m parent : Nat} {name : String}

def parent? (t : ScopeTree) (n : Nat) : Option Nat := t[n]?.bind (·.parent)

def Ordered (t : ScopeTree) : Prop := ∀ n parent, t.parent? n = some parent → parent < n

section Paths

theorem path_root (none : t.parent? n = none) : t.path n = [n] := by
  rw [parent?] at none
  rw [path, none]

theorem path_child (ordered : t.Ordered) (born : t.parent? n = some parent) :
    t.path n = n :: t.path parent := by
  have less := ordered n parent born
  rw [parent?] at born
  rw [path, born]
  exact if_pos less

theorem path_le (t : ScopeTree) (n : Nat) : ∀ m ∈ t.path n, m ≤ n := by
  rw [path]
  split
  · next parent _ =>
      split
      · next less =>
          intro m member
          rcases List.mem_cons.mp member with rfl | further
          · exact Nat.le_refl m
          · exact Nat.le_trans (t.path_le parent m further) (Nat.le_of_lt less)
      · intro m member
        exact Nat.le_of_eq (List.mem_singleton.mp member)
  · intro m member
    exact Nat.le_of_eq (List.mem_singleton.mp member)
termination_by n

theorem path_nodup (t : ScopeTree) (n : Nat) : (t.path n).Nodup := by
  rw [path]
  split
  · next parent _ =>
      split
      · next less =>
          refine List.nodup_cons.mpr ⟨fun member => ?_, t.path_nodup parent⟩
          exact absurd (t.path_le parent n member) (Nat.not_le_of_lt less)
      · exact List.pairwise_singleton _ n
  · exact List.pairwise_singleton _ n
termination_by n

end Paths

theorem parent?_child (t : ScopeTree) (n m : Nat) :
    (t.child n).parent? m = if m = t.size then some n else t.parent? m := by
  rw [parent?, parent?, child, Array.getElem?_push]
  split <;> rfl

theorem scope_child (t : ScopeTree) (n m : Nat) : (t.child n).scope m = t.scope m := by
  rw [scope, scope, child, Array.getElem?_push]
  by_cases last : m = t.size
  · rw [if_pos last, last, Array.getElem?_size]
  · rw [if_neg last]

section Reading

theorem resolve?_eq (t : ScopeTree) (n : Nat) (name : String) :
    t.resolve? n name = (t.path n).find? fun m => (t.scope m).binds name := by
  rw [resolve?, chain, Chain.depth?, List.findIdx?_map, List.find?_eq_bind_findIdx?_getElem?]
  rfl

theorem find?_chain (t : ScopeTree) (n : Nat) (name : String) :
    (t.chain n).find? name = (t.resolve? n name).bind fun m => (t.scope m).find? name := by
  rw [resolve?_eq, chain, Chain.find?, List.findSome?_map]
  induction t.path n with
  | nil => rfl
  | cons m outer again =>
      rw [List.findSome?_cons, List.find?_cons]
      cases found : (t.scope m).find? name with
      | none => simpa [found, Scope.binds] using again
      | some b => simp [found, Scope.binds]

theorem binds_of_resolve? (resolves : t.resolve? n name = some m) :
    ∃ b, (t.scope m).find? name = some b := by
  rw [resolve?_eq] at resolves
  have bound := List.find?_some resolves
  exact Option.isSome_iff_exists.mp bound

theorem lt_of_find? {b : Binding} (found : (t.scope n).find? name = some b) : n < t.size := by
  rw [scope] at found
  cases there : t[n]? with
  | none =>
      rw [there] at found
      cases found
  | some node => exact (Array.getElem?_eq_some_iff.mp there).1

theorem get_eq_ok {v : Value} : t.get n name = .ok v ↔
    ∃ m b, t.resolve? n name = some m ∧ (t.scope m).find? name = some b ∧ b.value = v := by
  rw [get, Chain.get, find?_chain]
  cases resolves : t.resolve? n name with
  | none => simp
  | some m =>
      obtain ⟨b, found⟩ := binds_of_resolve? resolves
      simp [found]

theorem get_eq_error {f : Fault} : t.get n name = .error f ↔
    f = .unbound name ∧ t.resolve? n name = none := by
  rw [get, Chain.get, find?_chain]
  cases resolves : t.resolve? n name with
  | none => simp [eq_comm]
  | some m =>
      obtain ⟨b, found⟩ := binds_of_resolve? resolves
      simp [found]

theorem define_eq_error {b : Binding} {f : Fault} : t.define n b = .error f ↔
    f = .redeclared b.name ∧ (t.scope n).fixes b.name := by
  rw [define, Scope.define, Scope.fixes]
  cases (t.scope n).find? b.name with
  | none => simp [Except.map]
  | some old => by_cases constant : old.constant <;> simp [Except.map, constant, eq_comm]

end Reading

section Writing

variable {s : Scope}

theorem parent?_put (t : ScopeTree) (n : Nat) (s : Scope) (m : Nat) :
    (t.put n s).parent? m = t.parent? m := by
  rw [parent?, parent?, put, Array.getElem?_modify]
  split
  · cases t[m]? <;> rfl
  · rfl

theorem scope_put_self (there : n < t.size) : (t.put n s).scope n = s := by
  rw [scope, put, Array.getElem?_modify, if_pos rfl, Array.getElem?_eq_getElem there]
  rfl

theorem scope_put_of_ne (apart : m ≠ n) : (t.put n s).scope m = t.scope m := by
  rw [scope, scope, put, Array.getElem?_modify, if_neg apart.symm]

theorem find?_put_bind (there : n < t.size) (b : Binding) (m : Nat) (name : String) :
    ((t.put n ((t.scope n).bind b)).scope m).find? name =
      if m = n ∧ b.name = name then some b else (t.scope m).find? name := by
  by_cases same : m = n
  · rw [same, scope_put_self there, Scope.find?_bind]
    simp
  · rw [scope_put_of_ne same, if_neg fun both => same both.1]

theorem put_scope (t : ScopeTree) (n : Nat) : t.put n (t.scope n) = t := by
  apply Array.ext_getElem?
  intro m
  rw [put, Array.getElem?_modify]
  split
  · next same =>
      subst same
      rw [scope]
      cases t[n]? <;> rfl
  · rfl

theorem foldl_put_back {t u : ScopeTree} : ∀ (ms : List Nat), (∀ m ∈ ms, u.scope m = t.scope m) →
    (ms.zip (ms.map t.scope)).foldl (fun t (m, s) => t.put m s) u = u
  | [], _ => rfl
  | m :: rest, same => by
      rw [List.map_cons, List.zip_cons_cons, List.foldl_cons, ← same m List.mem_cons_self]
      dsimp only
      rw [put_scope]
      exact foldl_put_back rest fun k later => same k (List.mem_cons_of_mem m later)

theorem path_parted (resolves : t.resolve? n name = some m) : ∃ inner outer,
    t.path n = inner ++ m :: outer ∧ Chain.find? (inner.map t.scope) name = none := by
  rw [resolve?_eq, List.find?_eq_some_iff_append] at resolves
  obtain ⟨_, inner, outer, path, free⟩ := resolves
  refine ⟨inner, outer, path, List.findSome?_eq_none_iff.mpr fun s member => ?_⟩
  obtain ⟨k, inside, rfl⟩ := List.mem_map.mp member
  simpa [Scope.binds] using free k inside

theorem assign_unresolved (unbound : t.resolve? n name = none) (v : Value) :
    t.assign n name v = .error (.unboundTarget name) := by
  have missing := t.find?_chain n name
  rw [unbound, Option.bind_none] at missing
  have assigns := Chain.assign_append (v := v) missing []
  rw [List.append_nil] at assigns
  rw [assign, assigns]
  rfl

theorem assign_constant {b : Binding} (resolves : t.resolve? n name = some m)
    (found : (t.scope m).find? name = some b) (constant : b.constant) (v : Value) :
    t.assign n name v = .error (.constant name) := by
  obtain ⟨inner, outer, path, free⟩ := path_parted resolves
  rw [assign, chain, path, List.map_append, List.map_cons, Chain.assign_append free, Chain.assign,
    found]
  simp only [constant, if_true]
  rfl

/-- An assignment writes to the scope that the name resolves to, and to no other. -/
theorem assign_resolved {b : Binding} (resolves : t.resolve? n name = some m)
    (found : (t.scope m).find? name = some b) (free : b.constant = false) (v : Value) :
    t.assign n name v = .ok (t.put m ((t.scope m).bind { b with value := v })) := by
  obtain ⟨inner, outer, path, unbound⟩ := path_parted resolves
  have apart : ∀ k ∈ outer, k ≠ m := by
    have nodup := t.path_nodup n
    rw [path] at nodup
    have later := (List.nodup_cons.mp (List.nodup_append.mp nodup).2.1).1
    rintro k member rfl
    exact later member
  rw [assign, chain, path, List.map_append, List.map_cons, Chain.assign_append unbound, Chain.assign,
    found]
  simp only [free, Bool.false_eq_true, if_false, Except.map]
  have zipped : ∀ s, (inner ++ m :: outer).zip (inner.map t.scope ++ s :: outer.map t.scope) =
      inner.zip (inner.map t.scope) ++ (m, s) :: outer.zip (outer.map t.scope) := by
    intro s
    rw [List.zip_append (by simp), List.zip_cons_cons]
  rw [zipped, List.foldl_append, List.foldl_cons, foldl_put_back inner fun _ _ => rfl,
    foldl_put_back outer fun k member => scope_put_of_ne (apart k member)]

theorem assign_eq_ok {v : Value} {u : ScopeTree} (assigns : t.assign n name v = .ok u) :
    ∃ m b, t.resolve? n name = some m ∧ (t.scope m).find? name = some b ∧ b.constant = false ∧
      u = t.put m ((t.scope m).bind { b with value := v }) := by
  cases resolves : t.resolve? n name with
  | none =>
      rw [assign_unresolved resolves] at assigns
      cases assigns
  | some m =>
      obtain ⟨b, found⟩ := binds_of_resolve? resolves
      cases constant : b.constant with
      | true =>
          rw [assign_constant resolves found constant] at assigns
          cases assigns
      | false =>
          rw [assign_resolved resolves found constant] at assigns
          cases assigns
          exact ⟨m, b, rfl, found, constant, rfl⟩

theorem assign_eq_error {v : Value} {f : Fault} : t.assign n name v = .error f ↔
    (f = .unboundTarget name ∧ t.resolve? n name = none) ∨
      (f = .constant name ∧ ∃ m, t.resolve? n name = some m ∧ (t.scope m).fixes name) := by
  constructor
  · intro fails
    cases resolves : t.resolve? n name with
    | none =>
        rw [assign_unresolved resolves] at fails
        cases fails
        exact .inl ⟨rfl, rfl⟩
    | some m =>
        obtain ⟨b, found⟩ := binds_of_resolve? resolves
        cases constant : b.constant with
        | true =>
            rw [assign_constant resolves found constant] at fails
            cases fails
            exact .inr ⟨rfl, m, rfl, by rw [Scope.fixes, found, Option.any_some, constant]⟩
        | false =>
            rw [assign_resolved resolves found constant] at fails
            cases fails
  · rintro (⟨rfl, unbound⟩ | ⟨rfl, m, resolves, fixed⟩)
    · exact assign_unresolved unbound v
    · obtain ⟨b, found⟩ := binds_of_resolve? resolves
      rw [Scope.fixes, found, Option.any_some] at fixed
      exact assign_constant resolves found fixed v

theorem define_eq_ok {b : Binding} {u : ScopeTree} (defines : t.define n b = .ok u) :
    (t.scope n).fixes b.name = false ∧ u = t.put n ((t.scope n).bind b) := by
  rw [define] at defines
  cases result : (t.scope n).define b with
  | error f =>
      rw [result] at defines
      cases defines
  | ok s =>
      rw [result] at defines
      cases defines
      obtain ⟨free, rfl⟩ := Scope.define_eq_ok result
      exact ⟨free, rfl⟩

end Writing

end Script.ScopeTree
