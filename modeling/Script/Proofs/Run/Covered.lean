import Script.Proofs.Run.Scoping

/-!
Lexical scoping. A program in which every use of a name stands after a declaration of it, in its
list or around that, never looks a name up in vain.
-/

namespace Script

namespace Scopes

variable {s t : Scopes} {name : String} {known : String → Prop}

def knows (s : Scopes) (name : String) : Bool :=
  (s.chain.find? name).isSome || (Library.named? name).isSome

def Knows (s : Scopes) (known : String → Prop) : Prop := ∀ name, known name → s.knows name

theorem find?_isSome_iff :
    (s.chain.find? name).isSome ↔ ∃ n scope, s.level? n = some scope ∧ scope.binds name := by
  have member (scope : Scope) : scope ∈ s.chain ↔ ∃ n, s.level? n = some scope := by
    rw [← List.mem_reverse]
    exact List.mem_iff_getElem?
  rw [Chain.find?, List.isSome_findSome?, List.any_eq_true]
  constructor
  · rintro ⟨scope, inside, bound⟩
    obtain ⟨n, at_n⟩ := (member scope).mp inside
    exact ⟨n, scope, at_n, bound⟩
  · rintro ⟨n, scope, at_n, bound⟩
    exact ⟨scope, (member scope).mpr ⟨n, at_n⟩, bound⟩

theorem knows_of_level? {n : Nat} {scope : Scope} (at_n : s.level? n = some scope)
    (bound : scope.binds name) : s.knows name := by
  rw [knows, find?_isSome_iff.mpr ⟨n, scope, at_n, bound⟩, Bool.true_or]

theorem level?_globals (s : Scopes) : s.level? 0 = some s.globals := by
  rw [level?, levels, ← List.head?_eq_getElem?, List.head?_reverse]
  exact List.getLast?_eq_some_getLast _

theorem Round.knows {own : Nat} (round : Round own s t) (before : s.Knows known) : t.Knows known := by
  intro name isKnown
  have value := before name isKnown
  rw [Scopes.knows, Bool.or_eq_true] at value
  rcases value with bound | library
  · obtain ⟨n, scope, at_n, bound⟩ := find?_isSome_iff.mp bound
    have within : n < s.depth := s.length_levels ▸ (List.getElem?_eq_some_iff.mp at_n).1
    obtain ⟨scope', at_n', grows, -⟩ := round.course.level?_grows within at_n
    exact knows_of_level? at_n' (grows.binds name bound)
  · rw [Scopes.knows, library, Bool.or_true]

end Scopes

namespace Surroundings

/-- Whether a name may be used in such surroundings. -/
def Covers (globals : Scope) (around : Surroundings) (name : String) : Prop :=
  (Library.named? name).isSome ∨ globals.binds name ∨ name ∈ around.declared

instance (globals : Scope) (around : Surroundings) (name : String) :
    Decidable (around.Covers globals name) :=
  inferInstanceAs (Decidable (_ ∨ _ ∨ _))

end Surroundings

def Site.Covered (globals : Scope) (site : Site) : Prop :=
  ∀ name ∈ site.stmt.uses, site.around.Covers globals name

instance (globals : Scope) (site : Site) : Decidable (site.Covered globals) :=
  inferInstanceAs (Decidable (∀ name ∈ site.stmt.uses, _))

/-- Every name that is used is covered where it is used. -/
def Program.Covered (p : Program) (globals : Scope) : Prop := ∀ site ∈ p.sites, site.Covered globals

instance (p : Program) (globals : Scope) : Decidable (p.Covered globals) :=
  inferInstanceAs (Decidable (∀ site ∈ p.sites, _))

/-- A stop for another reason than an unknown name, unless a library does not have it. -/
def Stop.Bound : Stop → Prop
  | .fault cause _ => cause.Bound
  | _ => True

namespace Expr

variable {name : String}

theorem mem_readsAll {es : List Expr} : name ∈ readsAll es ↔ ∃ e ∈ es, name ∈ e.reads := by
  induction es with
  | nil => simp [readsAll]
  | cons e rest again => simp [readsAll, again]

theorem reads_of_operand {e inner : Expr} (evaluated : e.asksName = false)
    (inside : inner ∈ e.operands) (read : name ∈ inner.reads) : name ∈ e.reads := by
  cases e with
  | literal | name => cases inside
  | array pos items => exact mem_readsAll.mpr ⟨inner, inside, read⟩
  | binary | logical | index =>
      simp only [operands, List.mem_cons, List.not_mem_nil, or_false] at inside
      rw [reads, List.mem_append]
      rcases inside with rfl | rfl
      · exact .inl read
      · exact .inr read
  | unary pos op operand =>
      rw [operands, List.mem_singleton] at inside
      subst inside
      unfold reads
      split <;> simp_all [asksName]
  | member =>
      rw [operands, List.mem_singleton] at inside
      exact inside ▸ read
  | call pos callee arguments =>
      rw [reads, List.mem_append]
      rcases List.mem_cons.mp inside with rfl | later
      · exact .inl read
      · exact .inr (mem_readsAll.mpr ⟨inner, later, read⟩)

end Expr

section Steps

variable {known : String → Prop}

theorem Machine.lookup?_isSome (m : Machine) (name : String) :
    (m.lookup? name).isSome = m.scopes.knows name := by
  rw [lookup?, Scopes.knows]
  cases m.scopes.chain.find? name with
  | some b => rfl
  | none => exact Option.isSome_map

theorem evalSteps_bound :
    EvalSteps (·.scopes.Knows known) (fun stop _ => stop.Bound) (∀ name ∈ ·.reads, known name) where
  operand := fun covered evaluated inside name read =>
    covered name (Expr.reads_of_operand evaluated inside read)
  print := fun _ _ knows => knows
  alloc := fun _ knows => knows
  fault := by
    intro e pos m cause covered _ causes knows
    rcases causes with bound | unbound
    · exact bound
    · cases e with
      | name at₁ text =>
          have value := knows text (covered text List.mem_cons_self)
          rw [← Machine.lookup?_isSome] at value
          exact absurd (Option.isNone_iff_eq_none.mp unbound) (Option.isSome_iff_ne_none.mp value)
      | literal | array | binary | logical | unary | member | index | call => cases unbound
  domain := fun _ _ _ _ _ _ _ => trivial

theorem Scopes.define_bound {s : Scopes} {b : Binding} {cause : Fault}
    (fails : s.define b = .error cause) : cause.Bound := by
  unfold define Scope.define at fails
  split at fails
  · split at fails
    · cases fails
      exact .of_ne rfl
    · cases fails
  · cases fails

theorem Chain.assign_eq_error {name : String} {v : Value} {cause : Fault} : ∀ {c : Chain},
    c.assign name v = .error cause → cause.Bound ∨ c.find? name = none
  | [], _ => .inr rfl
  | s :: outer, fails => by
      rw [assign] at fails
      split at fails
      · split at fails
        · cases fails
          exact .inl (.of_ne rfl)
        · cases fails
      · next missing =>
          cases result : assign name v outer with
          | ok outer' =>
              rw [result] at fails
              cases fails
          | error cause' =>
              rw [result] at fails
              cases fails
              refine (assign_eq_error result).imp_right fun unbound => ?_
              rw [find?, List.findSome?_cons, missing]
              exact unbound

theorem Scopes.assign_eq_error {s : Scopes} {name : String} {v : Value} {cause : Fault}
    (fails : s.assign name v = .error cause) : cause.Bound ∨ s.chain.find? name = none := by
  unfold assign at fails
  cases result : s.chain.assign name v with
  | ok c =>
      rw [result] at fails
      cases fails
  | error cause' =>
      rw [result] at fails
      cases fails
      exact Chain.assign_eq_error result

namespace Run

variable {α β : Type} {own : Nat}

/-- The run stops for no unknown name, and what is known stays known. -/
def Finds (known : String → Prop) (run : Run α) : Prop :=
  ∀ m, m.scopes.Knows known → Meets (·.scopes.Knows known) (fun stop _ => stop.Bound) (run m)

namespace Finds

theorem of_rounds {run : Run α} (rounds : Rounds own run)
    (stops : ∀ m, m.scopes.Knows known → Meets (fun _ => True) (fun stop _ => stop.Bound) (run m)) :
    Finds known run := by
  intro m knows
  have stops := stops m knows
  have round := rounds m
  cases ran : run m with
  | ok a m' =>
      rw [ran] at round
      exact round.knows knows
  | error stop m' =>
      rw [ran] at stops
      exact stops

theorem pure (a : α) : Finds known (Pure.pure a : Run α) := fun _ knows => knows

theorem note (event : Event) : Finds known (Run.note event) := fun _ knows => knows

theorem bind {run : Run α} {next : α → Run β} (first : Finds known run)
    (second : ∀ a, Finds known (next a)) : Finds known (run >>= next) := fun m knows =>
  (first m knows).bind fun a m' _ knows => second a m' knows

theorem eval {e : Expr} (covered : ∀ name ∈ e.reads, known name) : Finds known e.eval :=
  fun _ knows => e.eval_meets evalSteps_bound covered knows

theorem declare (pos : Pos) (b : Binding) : Finds known (Run.declare pos b) := by
  apply of_rounds (Rounds.declare pos b)
  intro m _
  rw [declare_apply]
  cases result : m.scopes.define b with
  | ok scopes => trivial
  | error cause => exact Scopes.define_bound result

theorem assignName {name : String} (covered : known name) (pos : Pos) (v : Value) :
    Finds known (Run.assignName pos name v) := by
  apply of_rounds (Rounds.assignName pos name v)
  intro m knows
  have value := knows name covered
  rw [assignName_apply]
  split
  · exact .of_ne rfl
  · next free =>
      cases result : m.scopes.assign name v with
      | ok scopes => trivial
      | error cause =>
          refine (Scopes.assign_eq_error result).resolve_right fun unbound => free ?_
          rw [Scopes.knows, unbound] at value
          rw [unbound]
          exact value

theorem assignItem (pos : Pos) (object index v : Value) :
    Finds known (Run.assignItem pos object index v) := by
  have rounds : Rounds 0 (Run.assignItem pos object index v) :=
    (Still.assignItem pos object index v).rounds
  apply of_rounds rounds
  intro m _
  cases object with
  | array ref =>
      rw [assignItem_apply]
      split
      · next fails => exact (Value.place_ofOperation fails).bound
      · split
        · exact .of_ne rfl
        · trivial
  | number | string | boolean | undefined | null | function | library => exact .of_ne rfl

theorem inScope {run : Run α} (rounds : Rounds 1 run) (finds : Finds known run) :
    Finds known (Run.inScope run) := by
  apply of_rounds rounds.inScope
  intro m knows
  have inside := finds m.entered knows
  rw [inScope_apply]
  cases ran : run m.entered with
  | ok a m' => trivial
  | error stop m' =>
      rw [ran] at inside
      exact inside

theorem branch (s : Stmt) {run : Run Signal} (rounds : Rounds s.own run)
    (finds : Finds known run) : Finds known (Run.branch s run) := by
  unfold Run.branch
  split
  · exact finds
  · exact inScope (rounds.mono s.own_le) finds

theorem loop (pos : Pos) {test : Run Value} {body : Run Signal} (tests : Finds known test)
    (runs : Finds known body) (turns fuel : Nat) :
    Finds known (Run.loop pos test body turns fuel) := by
  intro m knows
  refine .loop (fun _ => trivial) ?_ (fun knows => knows) tests runs fuel turns knows
  intro m turns knows
  rw [poll_apply]
  split
  · trivial
  · exact knows

theorem entry? {subject : Value} {clauses : List Clause}
    (covered : ∀ c ∈ clauses, ∀ test ∈ c.test, ∀ name ∈ test.reads, known name) :
    Finds known (Clause.entry? subject clauses) := fun _ knows =>
  entry?_meets evalSteps_bound subject clauses covered knows

end Finds

end Run

end Steps

section Statements

variable {fuel : Nat} {globals : Scope} {around : Surroundings}

theorem Run.Finds.assign {pos : Pos} {target : Target} {value : Expr}
    (covered : Site.Covered globals ⟨around, .assign pos target value⟩) (v : Value) :
    Run.Finds (around.Covers globals) (Run.assign v target) := by
  cases target with
  | name at₁ text => exact .assignName (covered text (by simp [Stmt.uses, Stmt.assigned])) at₁ v
  | index at₁ object position =>
      rw [Run.assign]
      have objects : ∀ name ∈ object.reads, around.Covers globals name := fun name read =>
        covered name (by simp [Stmt.uses, Stmt.operands, Target.operands, read])
      have positions : ∀ name ∈ position.reads, around.Covers globals name := fun name read =>
        covered name (by simp [Stmt.uses, Stmt.operands, Target.operands, read])
      apply Run.Finds.bind (.eval objects)
      intro a
      apply Run.Finds.bind (.eval positions)
      intro b
      exact .assignItem at₁ a b v

theorem Site.Covered.operand {s : Stmt} {e : Expr} (covered : Site.Covered globals ⟨around, s⟩)
    (inside : e ∈ s.operands) : ∀ name ∈ e.reads, around.Covers globals name := fun name read =>
  covered name (List.mem_append_right _ (List.mem_flatMap.mpr ⟨e, inside, read⟩))

theorem Surroundings.covers_after {s : Stmt} {name : String} :
    (around.after s).Covers globals name ↔ name ∈ s.declared ∨ around.Covers globals name := by
  simp only [Covers, after, List.mem_append]
  grind

theorem Run.Finds.declared {s : Stmt} (finds : Run.Finds (around.Covers globals) (s.exec fuel))
    (m : Machine) (knows : m.scopes.Knows (around.Covers globals)) :
    Meets (·.scopes.Knows ((around.after s).Covers globals)) (fun stop _ => stop.Bound)
      (s.exec fuel m) := by
  have outcome := finds m knows
  have binds := s.exec_binds fuel m
  cases ran : s.exec fuel m with
  | error stop m' =>
      rw [ran] at outcome
      exact outcome
  | ok signal m' =>
      rw [ran] at outcome binds
      intro name covered
      rcases Surroundings.covers_after.mp covered with declared | before
      · have bound := binds name
        rw [decide_eq_true declared, Bool.true_or] at bound
        exact Scopes.knows_of_level? m'.scopes.level?_current bound
      · exact outcome name before

mutual

theorem Stmt.exec_finds : ∀ (s : Stmt) (around : Surroundings),
    (∀ site ∈ s.sites around, site.Covered globals) →
    Run.Finds (around.Covers globals) (s.exec fuel)
  | .declare pos kind text none, _, covered => by
      rw [Stmt.exec]
      apply Run.Finds.bind (.note _)
      intro _
      apply Run.Finds.bind (.pure _)
      intro v
      exact .bind (.declare pos _) fun _ => .pure _
  | .declare pos kind text (some e), around, covered => by
      have here := covered ⟨around, _⟩ List.mem_cons_self
      rw [Stmt.exec]
      apply Run.Finds.bind (.note _)
      intro _
      apply Run.Finds.bind (.eval (here.operand List.mem_cons_self))
      intro v
      exact .bind (.declare pos _) fun _ => .pure _
  | .assign pos target value, around, covered => by
      have here := covered ⟨around, _⟩ List.mem_cons_self
      rw [Stmt.exec]
      apply Run.Finds.bind (.note _)
      intro _
      apply Run.Finds.bind (.eval (here.operand List.mem_cons_self))
      intro v
      exact .bind (.assign here v) fun _ => .pure _
  | .expr pos value, around, covered => by
      have here := covered ⟨around, _⟩ List.mem_cons_self
      rw [Stmt.exec]
      apply Run.Finds.bind (.note _)
      intro _
      apply Run.Finds.bind (.eval (here.operand List.mem_cons_self))
      intro v
      exact fun _ knows => knows
  | .block pos body, around, covered => by
      have inside := fun site within => covered site (List.mem_cons_of_mem _ within)
      rw [Stmt.exec]
      apply Run.Finds.bind (.note _)
      intro _
      exact .inScope (execAll_rounds body) (execAll_finds body around inside)
  | .if pos test yes none, around, covered => by
      have here := covered ⟨around, _⟩ List.mem_cons_self
      have inside := fun site within => covered site (List.mem_cons_of_mem _ within)
      rw [Stmt.exec]
      apply Run.Finds.bind (.note _)
      intro _
      apply Run.Finds.bind (.eval (here.operand List.mem_cons_self))
      intro v
      split
      · exact .branch yes yes.exec_rounds (yes.exec_finds around inside)
      · exact .pure _
  | .if pos test yes (some other), around, covered => by
      have here := covered ⟨around, _⟩ List.mem_cons_self
      have inside := fun site within => covered site (List.mem_cons_of_mem _ within)
      have first := fun site within => inside site (List.mem_append_left _ within)
      have second := fun site within => inside site (List.mem_append_right _ within)
      rw [Stmt.exec]
      apply Run.Finds.bind (.note _)
      intro _
      apply Run.Finds.bind (.eval (here.operand List.mem_cons_self))
      intro v
      split
      · exact .branch yes yes.exec_rounds (yes.exec_finds around first)
      · exact .branch other other.exec_rounds (other.exec_finds around second)
  | .while pos test body, around, covered => by
      have here := covered ⟨around, _⟩ List.mem_cons_self
      have inside := fun site within => covered site (List.mem_cons_of_mem _ within)
      have runs : Run.Finds (around.Covers globals) (body.exec fuel) :=
        body.exec_finds around.inLoop inside
      rw [Stmt.exec]
      apply Run.Finds.bind (.note _)
      intro _
      have tests := Run.Finds.eval (here.operand List.mem_cons_self)
      apply Run.Finds.bind (.loop pos tests (.branch body body.exec_rounds runs) 0 fuel)
      intro turns
      exact .bind (.note _) fun _ => .pure _
  | .switch pos subject clauses, around, covered => by
      have here := covered ⟨around, _⟩ List.mem_cons_self
      have inside := fun site within => covered site (List.mem_cons_of_mem _ within)
      have tests : ∀ c ∈ clauses, ∀ test ∈ c.test, ∀ name ∈ test.reads,
          around.Covers globals name := by
        intro c member test tested
        apply here.operand
        exact List.mem_cons_of_mem subject (List.mem_filterMap.mpr ⟨c, member, tested⟩)
      rw [Stmt.exec]
      apply Run.Finds.bind (.note _)
      intro _
      apply Run.Finds.bind (.eval (here.operand List.mem_cons_self))
      intro v
      apply Run.Finds.bind (Run.Finds.entry? tests)
      intro n?
      cases n? with
      | none => exact .pure _
      | some n =>
          have runs : Run.Finds (around.Covers globals) (Stmt.execFrom fuel n clauses) :=
            execFrom_finds clauses around.inSwitch inside n
          apply Run.Finds.bind (.inScope (execFrom_rounds clauses n) runs)
          intro signal
          cases signal <;> exact .pure _
  | .break _, _, _ => by
      rw [Stmt.exec]
      exact .bind (.note _) fun _ => .pure _
  | .continue _, _, _ => by
      rw [Stmt.exec]
      exact .bind (.note _) fun _ => .pure _

theorem Stmt.execAll_finds : ∀ (body : List Stmt) (around : Surroundings),
    (∀ site ∈ Stmt.sitesAll around body, site.Covered globals) →
    Run.Finds (around.Covers globals) (Stmt.execAll fuel body)
  | [], _, _ => .pure _
  | s :: rest, around, covered => by
      have first := fun site within => covered site (List.mem_append_left _ within)
      have later := fun site within => covered site (List.mem_append_right _ within)
      rw [Stmt.execAll]
      intro m knows
      apply Meets.bind ((s.exec_finds around first).declared m knows)
      intro signal m₁ _ knows
      have kept : m₁.scopes.Knows (around.Covers globals) := fun name covered =>
        knows name (Surroundings.covers_after.mpr (.inr covered))
      cases signal with
      | normal =>
          have others := execAll_finds rest (around.after s) later m₁ knows
          exact others.imp fun m knows name covered =>
            knows name (Surroundings.covers_after.mpr (.inr covered))
      | «break» | «continue» => exact kept

theorem Stmt.execFrom_finds : ∀ (clauses : List Clause) (around : Surroundings),
    (∀ site ∈ Stmt.sitesIn around clauses, site.Covered globals) → ∀ n,
    Run.Finds (around.Covers globals) (Stmt.execFrom fuel n clauses)
  | [], _, _, _ => .pure _
  | .mk _ _ body :: rest, around, covered, n + 1 => by
      have later := fun site within => covered site (List.mem_append_right _ within)
      rw [Stmt.execFrom]
      exact execFrom_finds rest around later n
  | .mk _ _ body :: rest, around, covered, 0 => by
      have first := fun site within => covered site (List.mem_append_left _ within)
      have later := fun site within => covered site (List.mem_append_right _ within)
      rw [Stmt.execFrom]
      apply Run.Finds.bind (execAll_finds body around first)
      intro signal
      cases signal with
      | normal => exact execFrom_finds rest around later 0
      | «break» | «continue» => exact .pure _

end

theorem Program.run_finds : ∀ (p : Program) (around : Surroundings),
    (∀ site ∈ Stmt.sitesAll around p, site.Covered globals) →
    Run.Finds (around.Covers globals) (p.run fuel)
  | [], _, _ => .pure _
  | s :: rest, around, covered => by
      have first := fun site within => covered site (List.mem_append_left _ within)
      have later := fun site within => covered site (List.mem_append_right _ within)
      rw [Program.run]
      have emptied : Run.Finds (around.Covers globals)
          (modify fun m => { m with last := .undefined }) := fun _ knows => knows
      apply emptied.bind
      intro _ m knows
      apply Meets.bind ((s.exec_finds around first).declared m knows)
      intro signal m₁ _ knows
      have others := run_finds rest (around.after s) later m₁ knows
      exact others.imp fun m knows name covered =>
        knows name (Surroundings.covers_after.mpr (.inr covered))

end Statements

/-- If every use of a name is covered, a run stops for an unknown name only if a library does not have
the member of that name. -/
theorem covered_bound {p : Program} {m : Machine} (covered : p.Covered m.scopes.globals)
    (fuel : Nat) :
    match p.run fuel m with
    | .error (.fault cause _) _ => cause.kind = .unboundIdentifier →
        ∃ l name, cause = .noMember l name ∧ l.member? name = none
    | _ => True := by
  have knows : m.scopes.Knows (Surroundings.outermost.Covers m.scopes.globals) := by
    rintro name (library | bound | declared)
    · rw [Scopes.knows, library, Bool.or_true]
    · exact Scopes.knows_of_level? m.scopes.level?_globals bound
    · cases declared
  have finds : Run.Finds _ (p.run fuel) := p.run_finds .outermost covered
  have found := finds m knows
  split
  · next ran =>
      rw [ran] at found
      exact found
  · trivial

/-- `var a = true; while (a) { var b = typeof c; a = Math.zero; }` -/
def missingMember : Program :=
  [.declare ⟨1, 1⟩ .var "a" (some (.literal ⟨1, 9⟩ (.boolean true))),
    .while ⟨1, 15⟩ (.name ⟨1, 22⟩ "a") (.block ⟨1, 25⟩
      [.declare ⟨1, 27⟩ .var "b" (some (.unary ⟨1, 35⟩ .typeof (.name ⟨1, 42⟩ "c"))),
        .assign ⟨1, 45⟩ (.name ⟨1, 45⟩ "a")
          (.member ⟨1, 53⟩ (.name ⟨1, 49⟩ "Math") "zero" ⟨1, 54⟩)])]

theorem covered_bound_missingMember :
    missingMember.Covered Machine.start.scopes.globals ∧
      ∃ cause pos m, missingMember.run 1 .start = .error (.fault cause pos) m ∧
        cause.kind = .unboundIdentifier ∧
        ∃ l name, cause = .noMember l name ∧ l.member? name = none := by
  have covered : missingMember.Covered Machine.start.scopes.globals := by decide
  have bound := covered_bound covered 1
  exact ⟨covered, .noMember .math "zero", ⟨1, 54⟩, _, rfl, rfl, bound rfl⟩

end Script
