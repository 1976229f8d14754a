import Script.Proofs.Scope.Tree

/-!
Trees of scopes against the history of what was asked of them. A name resolves to the nearest scope
in which a declaration of it has succeeded, and its value is the one written there last, by a
declaration or by an assignment that resolved to that scope; a request that fails writes nothing.
-/

namespace Script.ScopeTree

structure Entry where
  request : Request
  reply : Except Fault Reply

abbrev History := List Entry

namespace History

/-- The scope was made as a child of `parent`. -/
def Born (past : History) (n parent : Nat) : Prop := ⟨.child parent, .ok (.made n)⟩ ∈ past

def Declares (past : History) (n : Nat) (name : String) : Prop :=
  ∃ b : Binding, b.name = name ∧ ⟨.define n b, .ok .done⟩ ∈ past

def Fixes (past : History) (n : Nat) (name : String) : Prop :=
  ∃ b : Binding, b.name = name ∧ b.constant ∧ ⟨.define n b, .ok .done⟩ ∈ past

/-- Of a scope and those around it, the nearest in which the name is declared. -/
inductive Nearest (past : History) (name : String) : Nat → Nat → Prop
  | here {n : Nat} (declared : past.Declares n name) : Nearest past name n n
  | outer {n parent m : Nat} (free : ¬ past.Declares n name) (born : past.Born n parent)
      (further : Nearest past name parent m) : Nearest past name n m

/-- What an entry after `past` writes to the name in the scope. -/
inductive Writes (past : History) (n : Nat) : String → Entry → Value → Prop
  | define (b : Binding) : Writes past n b.name ⟨.define n b, .ok .done⟩ b.value
  | assign {m : Nat} {name : String} (nearest : past.Nearest name m n) (v : Value) :
      Writes past n name ⟨.assign m name v, .ok .done⟩ v

/-- The value that was last written to the name in the scope. -/
inductive LastWritten (n : Nat) (name : String) : History → Value → Prop
  | now {past : History} {entry : Entry} {v : Value} (writes : past.Writes n name entry v) :
      LastWritten n name (entry :: past) v
  | before {past : History} {entry : Entry} {v : Value}
      (other : ∀ u, ¬ past.Writes n name entry u) (earlier : LastWritten n name past v) :
      LastWritten n name (entry :: past) v

end History

def Request.scope : Request → Nat
  | .child n | .define n _ | .assign n _ _ | .get n _ | .resolve n _ => n

/-- The trees that requests lead to, each asked of a scope that is there, and their histories. -/
inductive Reaches : History → ScopeTree → Prop
  | root : Reaches [] root
  | ask {past : History} {t : ScopeTree} (reaches : Reaches past t) (request : Request)
      (there : request.scope < t.size) :
      Reaches (⟨request, (t.answer request).1⟩ :: past) (t.answer request).2

/-- What a history has written is what the tree holds. -/
structure Records (past : History) (t : ScopeTree) : Prop where
  ordered : t.Ordered
  born : ∀ n parent, past.Born n parent ↔ t.parent? n = some parent
  declared : ∀ n name, past.Declares n name ↔ (t.scope n).binds name
  fixed : ∀ n name, past.Fixes n name ↔ (t.scope n).fixes name
  written : ∀ n name v, past.LastWritten n name v ↔
    ∃ b, (t.scope n).find? name = some b ∧ b.value = v

section Entries

variable {past : History} {entry : Entry} {n : Nat} {name : String}

theorem History.born_cons {parent : Nat} : History.Born (entry :: past) n parent ↔
    entry = ⟨.child parent, .ok (.made n)⟩ ∨ past.Born n parent := by
  rw [Born, Born, List.mem_cons, eq_comm]

theorem History.declares_cons : History.Declares (entry :: past) n name ↔
    (∃ b : Binding, b.name = name ∧ entry = ⟨.define n b, .ok .done⟩) ∨ past.Declares n name := by
  simp only [Declares, List.mem_cons, and_or_left, exists_or, eq_comm (b := entry)]

theorem History.fixes_cons : History.Fixes (entry :: past) n name ↔
    (∃ b : Binding, b.name = name ∧ b.constant ∧ entry = ⟨.define n b, .ok .done⟩) ∨
      past.Fixes n name := by
  simp only [Fixes, List.mem_cons, and_or_left, exists_or, eq_comm (b := entry)]

theorem History.lastWritten_cons {v : Value} : History.LastWritten n name (entry :: past) v ↔
    past.Writes n name entry v ∨
      (∀ u, ¬ past.Writes n name entry u) ∧ History.LastWritten n name past v := by
  constructor
  · rintro (writes | ⟨other, earlier⟩)
    · exact .inl writes
    · exact .inr ⟨other, earlier⟩
  · rintro (writes | ⟨other, earlier⟩)
    · exact .now writes
    · exact .before other earlier

end Entries

namespace Records

variable {past : History} {t : ScopeTree} {n m : Nat} {name : String}

theorem nearest_iff (records : Records past t) (name : String) : ∀ n m,
    past.Nearest name n m ↔ t.resolve? n name = some m := by
  intro n
  induction n using Nat.strongRecOn with
  | ind n again =>
      intro m
      rw [resolve?_eq]
      cases born : t.parent? n with
      | none =>
          rw [path_root born, List.find?_singleton]
          constructor
          · rintro (declared | ⟨free, parent, -⟩)
            · rw [if_pos ((records.declared n name).mp declared)]
            · rw [records.born, born] at parent
              cases parent
          · intro found
            split at found
            · next bound =>
                cases found
                exact .here ((records.declared n name).mpr bound)
            · cases found
      | some parent =>
          have further := again parent (records.ordered n parent born) m
          rw [resolve?_eq] at further
          rw [path_child records.ordered born, List.find?_cons]
          cases bound : (t.scope n).binds name with
          | true =>
              have declared := (records.declared n name).mpr bound
              constructor
              · rintro (_ | ⟨free, -, -⟩)
                · rfl
                · exact absurd declared free
              · rintro ⟨⟩
                exact .here declared
          | false =>
              have free : ¬ past.Declares n name := by
                rw [records.declared, bound]
                exact Bool.false_ne_true
              constructor
              · rintro (declared | ⟨-, other, nearest⟩)
                · exact absurd declared free
                · rw [records.born, born] at other
                  cases other
                  exact further.mp nearest
              · intro found
                exact .outer free ((records.born n parent).mpr born) (further.mpr found)

def Idle (entry : Entry) : Prop :=
  ∀ reply, entry.reply = .ok reply → reply ≠ .done ∧ ∀ n, reply ≠ .made n

theorem idle (records : Records past t) {entry : Entry} (idle : Idle entry) :
    Records (entry :: past) t where
  ordered := records.ordered
  born := by
    intro n parent
    rw [History.born_cons, ← records.born, or_iff_right]
    rintro rfl
    exact (idle _ rfl).2 n rfl
  declared := by
    intro n name
    rw [History.declares_cons, ← records.declared, or_iff_right]
    rintro ⟨b, -, rfl⟩
    exact (idle _ rfl).1 rfl
  fixed := by
    intro n name
    rw [History.fixes_cons, ← records.fixed, or_iff_right]
    rintro ⟨b, -, -, rfl⟩
    exact (idle _ rfl).1 rfl
  written := by
    intro n name v
    have nothing : ∀ u, ¬ past.Writes n name entry u := by
      rintro u (_ | _)
      · exact (idle _ rfl).1 rfl
      · exact (idle _ rfl).1 rfl
    rw [History.lastWritten_cons, ← records.written, or_iff_right (nothing v), and_iff_right nothing]

theorem root : Records [] root := by
  have bare : ∀ n, scope ScopeTree.root n = [] := by
    intro n
    rw [scope, ScopeTree.root]
    cases n <;> rfl
  have alone : ∀ n, parent? ScopeTree.root n = none := by
    intro n
    rw [parent?, ScopeTree.root]
    cases n <;> rfl
  constructor
  · intro n parent born
    rw [alone] at born
    cases born
  · intro n parent
    rw [alone]
    simp [History.Born]
  · intro n name
    rw [bare]
    simp [History.Declares, Scope.binds, Scope.find?]
  · intro n name
    rw [bare]
    simp [History.Fixes, Scope.fixes, Scope.find?]
  · intro n name v
    have unwritten : ¬ History.LastWritten n name [] v := by
      rintro ⟨⟩
    rw [bare]
    simp [unwritten, Scope.find?]

theorem child (records : Records past t) (there : n < t.size) :
    Records (⟨.child n, .ok (.made t.size)⟩ :: past) (t.child n) where
  ordered := by
    intro m parent born
    rw [parent?_child] at born
    split at born
    · next same =>
        cases born
        rw [same]
        exact there
    · exact records.ordered m parent born
  born := by
    intro m parent
    rw [History.born_cons, parent?_child]
    split
    · next same =>
        have fresh : ¬ past.Born m parent := by
          rw [records.born, same, parent?, Array.getElem?_size]
          rintro ⟨⟩
        rw [or_iff_left fresh, same]
        constructor
        · rintro ⟨⟩
          rfl
        · rintro ⟨⟩
          rfl
    · next apart =>
        rw [← records.born, or_iff_right]
        rintro ⟨⟩
        exact apart rfl
  declared := by
    intro m name
    rw [History.declares_cons, scope_child, ← records.declared, or_iff_right]
    rintro ⟨b, -, ⟨⟩⟩
  fixed := by
    intro m name
    rw [History.fixes_cons, scope_child, ← records.fixed, or_iff_right]
    rintro ⟨b, -, -, ⟨⟩⟩
  written := by
    intro m name v
    have nothing : ∀ u, ¬ past.Writes m name ⟨.child n, .ok (.made t.size)⟩ u := by
      rintro u ⟨⟩
    rw [History.lastWritten_cons, scope_child, ← records.written, or_iff_right (nothing v),
      and_iff_right nothing]

theorem ordered_put (records : Records past t) (s : Scope) : (t.put n s).Ordered := by
  intro m parent born
  rw [parent?_put] at born
  exact records.ordered m parent born

theorem written_put (records : Records past t) (there : n < t.size) {b : Binding} {entry : Entry}
    (writes : ∀ m name v, past.Writes m name entry v ↔ (m = n ∧ b.name = name) ∧ b.value = v)
    (m : Nat) (name : String) (v : Value) : History.LastWritten m name (entry :: past) v ↔
      ∃ found, ((t.put n ((t.scope n).bind b)).scope m).find? name = some found ∧
        found.value = v := by
  rw [History.lastWritten_cons, find?_put_bind there, records.written]
  simp only [writes]
  split
  · next here => simp [here]
  · next apart => simp [apart]

theorem define (records : Records past t) (there : n < t.size) {b : Binding}
    (free : (t.scope n).fixes b.name = false) :
    Records (⟨.define n b, .ok .done⟩ :: past) (t.put n ((t.scope n).bind b)) where
  ordered := records.ordered_put _
  born := by
    intro m parent
    rw [History.born_cons, parent?_put, ← records.born, or_iff_right nofun]
  declared := by
    intro m name
    rw [History.declares_cons, Scope.binds, find?_put_bind there, records.declared]
    by_cases here : m = n ∧ b.name = name
    · obtain ⟨rfl, rfl⟩ := here
      simp
    · have other : ¬ ∃ b' : Binding, b'.name = name ∧
          (⟨.define n b, .ok .done⟩ : Entry) = ⟨.define m b', .ok .done⟩ := by
        rintro ⟨b', named, ⟨⟩⟩
        exact here ⟨rfl, named⟩
      rw [if_neg here, or_iff_right other]
      rfl
  fixed := by
    intro m name
    rw [History.fixes_cons, Scope.fixes, find?_put_bind there, records.fixed]
    by_cases here : m = n ∧ b.name = name
    · obtain ⟨rfl, rfl⟩ := here
      rw [if_pos ⟨rfl, rfl⟩, free, or_iff_left Bool.false_ne_true]
      constructor
      · rintro ⟨b', -, constant, ⟨⟩⟩
        exact constant
      · intro constant
        exact ⟨b, rfl, constant, rfl⟩
    · have other : ¬ ∃ b' : Binding, b'.name = name ∧ b'.constant ∧
          (⟨.define n b, .ok .done⟩ : Entry) = ⟨.define m b', .ok .done⟩ := by
        rintro ⟨b', named, -, ⟨⟩⟩
        exact here ⟨rfl, named⟩
      rw [if_neg here, or_iff_right other]
      rfl
  written := by
    apply records.written_put there
    intro m name v
    constructor
    · rintro ⟨⟩
      exact ⟨⟨rfl, rfl⟩, rfl⟩
    · rintro ⟨⟨rfl, rfl⟩, rfl⟩
      exact .define b

theorem assign (records : Records past t) {v : Value} {b : Binding}
    (resolves : t.resolve? n name = some m) (found : (t.scope m).find? name = some b)
    (free : b.constant = false) : Records (⟨.assign n name v, .ok .done⟩ :: past)
      (t.put m ((t.scope m).bind { b with value := v })) := by
  have there := lt_of_find? found
  have named := Scope.name_of_find? found
  obtain ⟨same, -⟩ := Scope.write_keeps found free v
  have alike : ∀ k, (t.scope k).Alike
      ((t.put m ((t.scope m).bind { b with value := v })).scope k) := by
    intro k
    by_cases here : k = m
    · rw [here, scope_put_self there]
      exact same
    · rw [scope_put_of_ne here]
      exact .refl _
  constructor
  · exact records.ordered_put _
  · intro k parent
    rw [History.born_cons, parent?_put, ← records.born, or_iff_right nofun]
  · intro k other
    rw [History.declares_cons, (alike k).binds, ← records.declared, or_iff_right]
    rintro ⟨b', -, ⟨⟩⟩
  · intro k other
    rw [History.fixes_cons, (alike k).fixes, ← records.fixed, or_iff_right]
    rintro ⟨b', -, -, ⟨⟩⟩
  · apply records.written_put there
    intro k other u
    constructor
    · rintro (_ | ⟨nearest⟩)
      rw [records.nearest_iff, resolves] at nearest
      exact ⟨⟨(Option.some.inj nearest).symm, named⟩, rfl⟩
    · rintro ⟨⟨rfl, rfl⟩, rfl⟩
      dsimp only
      rw [named]
      exact .assign ((records.nearest_iff name n k).mpr resolves) v

end Records

theorem Reaches.records {past : History} {t : ScopeTree} (reaches : Reaches past t) :
    Records past t := by
  induction reaches with
  | root => exact .root
  | @ask past t _ request there records =>
      cases request with
      | child n => exact records.child there
      | define n b =>
          rw [answer]
          cases result : t.define n b with
          | error f => exact records.idle nofun
          | ok u =>
              obtain ⟨free, rfl⟩ := define_eq_ok result
              exact records.define there free
      | assign n name v =>
          rw [answer]
          cases result : t.assign n name v with
          | error f => exact records.idle nofun
          | ok u =>
              obtain ⟨m, b, resolves, found, free, rfl⟩ := assign_eq_ok result
              exact records.assign resolves found free
      | get n name =>
          rw [answer]
          cases result : t.get n name with
          | error f => exact records.idle nofun
          | ok v =>
              apply records.idle
              rintro reply ⟨⟩
              exact ⟨nofun, nofun⟩
      | resolve n name =>
          apply records.idle
          rintro reply ⟨⟩
          exact ⟨nofun, nofun⟩

/-- What a tree answers next, and what it is then, by its history alone. -/
structure Follows (past : History) (t : ScopeTree) : Prop where
  resolve : ∀ n name, ∃ m?, (t.answer (.resolve n name)).1 = .ok (.found m?) ∧
    ∀ m, m? = some m ↔ past.Nearest name n m
  get : ∀ n name v, (t.answer (.get n name)).1 = .ok (.value v) ↔
    ∃ m, past.Nearest name n m ∧ History.LastWritten m name past v
  unbound : ∀ n name f, (t.answer (.get n name)).1 = .error f ↔
    f = .unbound name ∧ ∀ m, ¬ past.Nearest name n m
  define : ∀ n b f, (t.answer (.define n b)).1 = .error f ↔
    f = .redeclared b.name ∧ past.Fixes n b.name
  assign : ∀ n name v f, (t.answer (.assign n name v)).1 = .error f ↔
    (f = .unboundTarget name ∧ ∀ m, ¬ past.Nearest name n m) ∨
      (f = .constant name ∧ ∃ m, past.Nearest name n m ∧ past.Fixes m name)
  child : ∀ n, (t.answer (.child n)).1 = .ok (.made t.size)
  failed : ∀ request f, (t.answer request).1 = .error f → (t.answer request).2 = t
  asked : ∀ n name, (t.answer (.get n name)).2 = t ∧ (t.answer (.resolve n name)).2 = t

theorem written_error {t : ScopeTree} {result : Except Fault ScopeTree} {f : Fault} :
    (t.written result).1 = .error f ↔ result = .error f := by
  cases result with
  | ok u => exact ⟨nofun, nofun⟩
  | error cause => simp [written]

theorem answer_failed {t : ScopeTree} {request : Request} {f : Fault}
    (fails : (t.answer request).1 = .error f) : (t.answer request).2 = t := by
  cases request with
  | child n => cases fails
  | define n b =>
      rw [answer, written_error] at fails
      rw [answer, fails]
      rfl
  | assign n name v =>
      rw [answer, written_error] at fails
      rw [answer, fails]
      rfl
  | get n name => rfl
  | resolve n name => rfl

/-- After any requests, names resolve to the nearest scope that declares them and have the value that
was last written to them there; what fails changes nothing. -/
theorem answers_follow {past : History} {t : ScopeTree} (reaches : Reaches past t) :
    Follows past t := by
  have records := reaches.records
  have unresolved : ∀ n name, t.resolve? n name = none ↔ ∀ m, ¬ past.Nearest name n m := by
    intro n name
    simp only [records.nearest_iff, Option.eq_none_iff_forall_ne_some, ne_eq]
  constructor
  · intro n name
    exact ⟨_, rfl, fun m => (records.nearest_iff name n m).symm⟩
  · intro n name v
    have holds : (t.answer (.get n name)).1 = .ok (.value v) ↔ t.get n name = .ok v := by
      rw [answer]
      cases t.get n name <;> simp [Except.map]
    simp only [holds, get_eq_ok, records.nearest_iff, records.written, exists_and_left]
  · intro n name f
    have holds : (t.answer (.get n name)).1 = .error f ↔ t.get n name = .error f := by
      rw [answer]
      cases t.get n name <;> simp [Except.map]
    rw [holds, get_eq_error, unresolved]
  · intro n b f
    rw [answer, written_error, define_eq_error, records.fixed]
  · intro n name v f
    rw [answer, written_error, assign_eq_error, unresolved]
    simp only [records.nearest_iff, records.fixed]
  · exact fun _ => rfl
  · exact fun _ _ fails => answer_failed fails
  · exact fun _ _ => ⟨rfl, rfl⟩

/-- A name is declared around a scope that is there already, written to from inside, and then hidden
by a constant. -/
theorem answers_follow_hidden : ∃ past t, Reaches past t ∧
    past.map (·.request) = [.define 1 ⟨"x", .string "inner", true⟩, .assign 1 "x" (.string "late"),
      .define 0 ⟨"x", .string "early", false⟩, .child 0] ∧ Follows past t ∧
    (t.answer (.get 0 "x")).1 = .ok (.value (.string "late")) ∧
    (t.answer (.get 1 "x")).1 = .ok (.value (.string "inner")) ∧
    (t.answer (.assign 1 "x" .null)).1 = .error (.constant "x") := by
  have made := Reaches.root.ask (.child 0) (by decide)
  have declared := made.ask (.define 0 ⟨"x", .string "early", false⟩) (by decide)
  have assigned := declared.ask (.assign 1 "x" (.string "late")) (by decide)
  have hidden := assigned.ask (.define 1 ⟨"x", .string "inner", true⟩) (by decide +kernel)
  refine ⟨_, _, hidden, rfl, answers_follow hidden, ?_, ?_, ?_⟩
  · with_unfolding_all rfl
  · with_unfolding_all rfl
  · with_unfolding_all rfl

end Script.ScopeTree
