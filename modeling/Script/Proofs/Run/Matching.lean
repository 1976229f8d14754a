import Script.Proofs.Run.Simulation
import Script.Proofs.Scope.Matching
import Script.Session

/-!
Runs of a program on machines that it cannot tell apart. If the variables that a program mentions
are bound alike on two machines, its runs go alike step by step: they print the same, stop for the
same reason, and leave values that are alike.
-/

namespace Script

variable {p : Program} {pairs : Ref → Ref → Prop}

/-- The program cannot tell the machines apart. What was traced does not count. -/
structure Machine.Matches (p : Program) (pairs : Ref → Ref → Prop) (m m' : Machine) : Prop where
  scopes : m.scopes.Matches p pairs m'.scopes
  heap : m.heap.Alike pairs m'.heap
  last : m.last.Alike pairs m'.last
  output : m.output = m'.output
  turns : m.turns = m'.turns

theorem Machine.Matches.lookup? {m m' : Machine} (machines : m.Matches p pairs m') {name : String}
    (reads : p.Reads name) :
    Option.Rel (Value.Alike pairs) (m.lookup? name) (m'.lookup? name) := by
  have found := Chain.find?_matches machines.scopes.chain (.inl reads)
  rw [Machine.lookup?, Machine.lookup?]
  generalize m.scopes.chain.find? name = b? at found
  generalize m'.scopes.chain.find? name = b?' at found
  cases found with
  | some bindings => exact .some (bindings.value reads)
  | none =>
      dsimp only
      cases Library.named? name with
      | none => exact .none
      | some l => exact .some (.single rfl)

namespace Run

variable {α β : Type}

/-- On machines that `p` cannot tell apart the runs end for the same reason or with related
values. -/
abbrev Likens (p : Program) (pairs : Ref → Ref → Prop) (values : α → β → Prop) (run : Run α)
    (run' : Run β) : Prop :=
  Simulates (Machine.Matches p pairs) Eq values run run'

namespace Likens

variable {γ δ : Type} {values : α → β → Prop} {others : γ → δ → Prop}

theorem pure {a : α} {b : β} (rel : values a b) :
    Likens p pairs values (Pure.pure a) (Pure.pure b) := Simulates.pure rel

theorem throw (stop : Stop) :
    Likens p pairs values (MonadExcept.throw stop) (MonadExcept.throw stop) := Simulates.throw rfl

theorem bind {run : Run α} {run' : Run β} {next : α → Run γ} {next' : β → Run δ}
    (first : Likens p pairs values run run')
    (second : ∀ {a b}, values a b → Likens p pairs others (next a) (next' b)) :
    Likens p pairs others (run >>= next) (run' >>= next') := Simulates.bind first second

theorem get {next : Machine → Run γ} {next' : Machine → Run δ}
    (goes : ∀ {m m'}, m.Matches p pairs m' → Likens p pairs others (next m) (next' m')) :
    Likens p pairs others (MonadState.get >>= next) (MonadState.get >>= next') := Simulates.get goes

theorem ofResult (pos : Pos) {result : Except Fault α} {result' : Except Fault β}
    (agree : Agree values result result') :
    Likens p pairs values (Run.ofResult pos result) (Run.ofResult pos result') := by
  cases agree with
  | ok rel => exact .pure rel
  | error cause => exact .throw _

theorem ofAnswer (pos : Pos) {answer : Except Refusal α} {answer' : Except Refusal β}
    (agree : Agree values answer answer') :
    Likens p pairs values (Run.ofAnswer pos answer) (Run.ofAnswer pos answer') := by
  cases agree with
  | ok rel => exact .pure rel
  | error refusal => cases refusal <;> exact .throw _

theorem note (event : Event) : Likens p pairs Eq (Run.note event) (Run.note event) :=
  Simulates.modify fun machines => { machines with }

theorem print (line : String) : Likens p pairs Eq (Run.print line) (Run.print line) :=
  Simulates.modify fun machines =>
    { machines with output := congrArg (·.push line) machines.output }

theorem begin : Likens p pairs Eq Run.begin Run.begin :=
  Simulates.modify fun machines => { machines with turns := congrArg Turns.begin machines.turns }

theorem last {v v' : Value} (alike : v.Alike pairs v') :
    Likens p pairs Eq (modify fun m => { m with last := v })
      (modify fun m => { m with last := v' }) :=
  Simulates.modify fun machines => { machines with last := alike }

theorem poll (pos : Pos) (turns : Nat) :
    Likens p pairs Eq (Run.poll pos turns) (Run.poll pos turns) := by
  refine ⟨fun {m m'} machines => ?_⟩
  have asked : Machine.Matches p pairs { m with turns := m.turns.ask }
      { m' with turns := m'.turns.ask } :=
    { machines with turns := congrArg Turns.ask machines.turns }
  rw [poll_apply, poll_apply, ← machines.turns] at *
  split
  · exact .error rfl asked
  · exact .ok rfl asked

theorem read (pos : Pos) {name : String} (reads : p.Reads name) :
    Likens p pairs (Value.Alike pairs) (Run.read pos name) (Run.read pos name) := by
  refine .get fun {m m'} machines => ?_
  have found := machines.lookup? reads
  generalize m.lookup? name = v? at found
  generalize m'.lookup? name = v?' at found
  cases found with
  | some alike => exact .pure alike
  | none => exact .throw _

theorem alloc {items items' : List Value} (alike : List.Forall₂ (Value.Alike pairs) items items') :
    Likens p pairs (Value.Alike pairs) (Run.alloc items) (Run.alloc items') :=
  ⟨fun machines => .ok (.array (machines.heap.fresh 0))
    { machines with heap := machines.heap.alloc alike }⟩

theorem call (pos : Pos) {callee callee' : Value} (alike : callee.Alike pairs callee')
    {arguments arguments' : List Value}
    (each : List.Forall₂ (Value.Alike pairs) arguments arguments') :
    Likens p pairs (Value.Alike pairs) (Run.call pos callee arguments)
      (Run.call pos callee' arguments') := by
  cases alike with
  | array pair => exact .throw _
  | @single callee single =>
      cases callee with
      | function f =>
          refine .get fun {m m'} machines =>
            .bind (ofResult pos (Builtin.call_alike machines.heap f each)) ?_
          rintro ⟨v, line?⟩ _ ⟨rfl, plain⟩
          cases line? with
          | some line => exact .bind (print line) fun _ => .pure (.single plain)
          | none => exact .pure (.single plain)
      | array => cases single
      | number | string | boolean | undefined | null | library => exact .throw _

theorem declare (pos : Pos) {b b' : Binding} (name : b.name = b'.name)
    (bindings : b.Matches p pairs b.name b') (mentioned : p.Mentions b.name) :
    Likens p pairs Eq (Run.declare pos b) (Run.declare pos b') := by
  refine ⟨fun {m m'} machines => ?_⟩
  have defined := machines.scopes.define name bindings mentioned
  rw [declare_apply, declare_apply]
  generalize m.scopes.define b = result at defined
  generalize m'.scopes.define b' = result' at defined
  cases defined with
  | ok scopes => exact .ok rfl { machines with scopes }
  | error cause => exact .error rfl machines

theorem assignName (pos : Pos) {name : String} (mentioned : p.Mentions name) {v v' : Value}
    (alike : v.Alike pairs v') :
    Likens p pairs Eq (Run.assignName pos name v) (Run.assignName pos name v') := by
  refine ⟨fun {m m'} machines => ?_⟩
  have bound : (m.scopes.chain.find? name).isNone = (m'.scopes.chain.find? name).isNone :=
    isNone_eq_of_rel (Chain.find?_matches machines.scopes.chain mentioned)
  have assigned := machines.scopes.assign mentioned alike
  rw [assignName_apply, assignName_apply, ← bound]
  split
  · exact .error rfl machines
  · generalize m.scopes.assign name v = result at assigned
    generalize m'.scopes.assign name v' = result' at assigned
    cases assigned with
    | ok scopes => exact .ok rfl { machines with scopes }
    | error cause => exact .error rfl machines

theorem assignItem (pos : Pos) {object object' index index' v v' : Value}
    (objects : object.Alike pairs object') (indices : index.Alike pairs index')
    (alike : v.Alike pairs v') :
    Likens p pairs Eq (Run.assignItem pos object index v)
      (Run.assignItem pos object' index' v') := by
  cases objects with
  | @single object single =>
      cases object with
      | array => cases single
      | number | string | boolean | undefined | null | function | library => exact .throw _
  | @array ref ref' pair =>
      refine ⟨fun {m m'} machines => ?_⟩
      rw [assignItem_apply, assignItem_apply, ← indices.place_eq, machines.heap.size_items pair]
      cases index.place with
      | error cause => exact .error rfl machines
      | ok n =>
          dsimp only
          split
          · exact .error rfl machines
          · exact .ok rfl { machines with heap := machines.heap.write pair n alike }

theorem inScope {run : Run α} {run' : Run β} (goes : Likens p pairs values run run') :
    Likens p pairs values (Run.inScope run) (Run.inScope run') :=
  Simulates.inScope goes (fun machines => { machines with scopes := machines.scopes.enter })
    fun machines => { machines with scopes := machines.scopes.leave }

theorem branch (s : Stmt) {run run' : Run Signal} (goes : Likens p pairs Eq run run') :
    Likens p pairs Eq (Run.branch s run) (Run.branch s run') := by
  rw [Run.branch, Run.branch]
  split
  · exact goes
  · exact goes.inScope

theorem loop (pos : Pos) {test test' : Run Value} {body body' : Run Signal}
    (tests : Likens p pairs (Value.Alike pairs) test test')
    (bodies : Likens p pairs Eq body body') (fuel turns : Nat) :
    Likens p pairs Eq (Run.loop pos test body turns fuel) (Run.loop pos test' body' turns fuel) :=
  Simulates.loop Value.Alike.isTruthy_eq tests (poll pos) begin bodies rfl fuel turns

end Likens

end Run

section Trees

theorem Expr.isUnbound_matches {m m' : Machine} (machines : m.Matches p pairs m') {e : Expr}
    (uses : p.Uses e) : e.isUnbound m = e.isUnbound m' := by
  cases e with
  | name pos text => exact isNone_eq_of_rel (machines.lookup? ⟨pos, uses⟩)
  | literal | array | binary | logical | unary | member | index | call => rfl

mutual

theorem Expr.eval_likens : ∀ e : Expr, p.Uses e →
    Run.Likens p pairs (Value.Alike pairs) e.eval e.eval
  | .literal _ value, _ => .pure (.single (Value.toValue_isArray value))
  | .name pos text, uses => .read pos ⟨pos, uses⟩
  | .array _ items, uses =>
      .bind (evalAll_likens items fun _ inside => uses.operand inside) fun each => .alloc each
  | .binary pos op left right, uses => by
      rw [Expr.eval]
      have first := left.eval_likens (uses.operand List.mem_cons_self)
      have second := right.eval_likens (uses.operand (.tail _ List.mem_cons_self))
      refine .bind first fun a => .bind second fun b => .get fun machines => ?_
      exact .ofAnswer pos (BinaryOp.apply_alike machines.heap op a b)
  | .logical _ op left right, uses => by
      rw [Expr.eval]
      have second := right.eval_likens (uses.operand (.tail _ List.mem_cons_self))
      refine .bind (left.eval_likens (uses.operand List.mem_cons_self)) fun {a a'} alike => ?_
      rw [alike.isTruthy_eq]
      cases op <;> cases a'.isTruthy
      · exact .pure alike
      · exact second
      · exact second
      · exact .pure alike
  | .unary pos op operand, uses => by
      rw [Expr.eval]
      have inner : p.Uses operand := uses.operand List.mem_cons_self
      refine .get fun machines => ?_
      rw [operand.isUnbound_matches machines inner]
      split
      · exact .pure (.single rfl)
      · exact .bind (operand.eval_likens inner) fun alike => .ofResult pos (op.apply_alike alike)
  | .member pos object text namePos, uses => by
      rw [Expr.eval]
      refine .bind (object.eval_likens (uses.operand List.mem_cons_self)) fun alike =>
        .get fun machines => ?_
      have found := Value.member_alike machines.heap alike text
      cases alike with
      | single => exact .ofResult _ found
      | array => exact .ofResult pos found
  | .index pos object position, uses => by
      rw [Expr.eval]
      have first := object.eval_likens (uses.operand List.mem_cons_self)
      have second := position.eval_likens (uses.operand (.tail _ List.mem_cons_self))
      refine .bind first fun a => .bind second fun b => .get fun machines => ?_
      exact .ofResult pos (Value.item_alike machines.heap a b)
  | .call pos callee arguments, uses =>
      .bind (callee.eval_likens (uses.operand List.mem_cons_self)) fun alike =>
        .bind (evalAll_likens arguments fun _ inside => uses.operand (.tail _ inside)) fun each =>
          .call pos alike each

theorem Expr.evalAll_likens : ∀ es : List Expr, (∀ e ∈ es, p.Uses e) →
    Run.Likens p pairs (List.Forall₂ (Value.Alike pairs)) (Expr.evalAll es) (Expr.evalAll es)
  | [], _ => .pure .nil
  | e :: rest, uses =>
      .bind (e.eval_likens (uses e List.mem_cons_self)) fun alike =>
        .bind (evalAll_likens rest fun _ inside => uses _ (.tail _ inside)) fun each =>
          .pure (.cons alike each)

end

namespace Run.Likens

theorem operand {s : Stmt} {e : Expr} (has : p.Has s) (inside : e ∈ s.operands) :
    Likens p pairs (Value.Alike pairs) e.eval e.eval :=
  e.eval_likens (.of_operand has inside)

theorem assign {pos : Pos} {target : Target} {value : Expr} (has : p.Has (.assign pos target value))
    {v v' : Value} (alike : v.Alike pairs v') :
    Likens p pairs Eq (Run.assign v target) (Run.assign v' target) := by
  cases target with
  | name place text => exact assignName place (.inr ⟨_, has, rfl⟩) alike
  | index place object position =>
      exact .bind (.operand has (.tail _ List.mem_cons_self)) fun a =>
        .bind (.operand has (.tail _ (.tail _ List.mem_cons_self))) fun b =>
          assignItem place a b alike

variable (single : Relator.BiUnique pairs) {subject subject' : Value}
  (subjects : subject.Alike pairs subject')

include single subjects

theorem matching? : ∀ clauses : List Clause,
    (∀ test ∈ clauses.filterMap (·.test), p.Uses test) →
      Likens p pairs Eq (Run.matching? subject clauses) (Run.matching? subject' clauses)
  | [], _ => .pure rfl
  | .mk _ none _ :: rest, uses => by
      refine .bind (matching? rest uses) ?_
      rintro n? _ rfl
      exact .pure rfl
  | .mk _ (some test) _ :: rest, uses => by
      refine .bind (test.eval_likens (uses test List.mem_cons_self)) fun alike => ?_
      rw [Value.strictEquals_alike single subjects alike]
      split
      · exact .pure rfl
      · refine .bind (matching? rest fun test inside => uses test (.tail _ inside)) ?_
        rintro n? _ rfl
        exact .pure rfl

theorem entry? {clauses : List Clause} (uses : ∀ test ∈ clauses.filterMap (·.test), p.Uses test) :
    Likens p pairs Eq (Clause.entry? subject clauses) (Clause.entry? subject' clauses) := by
  refine .bind (matching? single subjects clauses uses) ?_
  rintro n? _ rfl
  cases n? <;> exact .pure rfl

end Run.Likens

section Statements

variable {fuel : Nat}

mutual

theorem Stmt.exec_likens (single : Relator.BiUnique pairs) : ∀ s : Stmt, p.Has s →
    Run.Likens p pairs Eq (s.exec fuel) (s.exec fuel)
  | .declare pos kind text none, has => by
      rw [Stmt.exec]
      have mentioned : p.Mentions text := .inr ⟨_, has, rfl⟩
      have plain : Value.undefined.Alike pairs .undefined := .single rfl
      exact .bind (.note _) fun _ => .bind (.pure plain) fun alike =>
        .bind (.declare pos rfl ⟨rfl, fun _ => alike⟩ mentioned) fun _ => .pure rfl
  | .declare pos kind text (some e), has => by
      rw [Stmt.exec]
      have mentioned : p.Mentions text := .inr ⟨_, has, rfl⟩
      exact .bind (.note _) fun _ => .bind (.operand has List.mem_cons_self) fun alike =>
        .bind (.declare pos rfl ⟨rfl, fun _ => alike⟩ mentioned) fun _ => .pure rfl
  | .assign pos target value, has => by
      rw [Stmt.exec]
      exact .bind (.note _) fun _ => .bind (.operand has List.mem_cons_self) fun alike =>
        .bind (.assign has alike) fun _ => .pure rfl
  | .expr pos value, has => by
      rw [Stmt.exec]
      exact .bind (.note _) fun _ => .bind (.operand has List.mem_cons_self) fun alike =>
        .bind (.last alike) fun _ => .pure rfl
  | .block pos body, has => by
      rw [Stmt.exec]
      have inner := execAll_likens single body fun _ inside => has.inner inside
      exact .bind (.note _) fun _ => inner.inScope
  | .if pos test yes none, has => by
      rw [Stmt.exec]
      have first := yes.exec_likens single (has.inner List.mem_cons_self)
      refine .bind (.note _) fun _ => .bind (.operand has List.mem_cons_self) fun alike => ?_
      rw [alike.isTruthy_eq]
      split
      · exact first.branch yes
      · exact .pure rfl
  | .if pos test yes (some other), has => by
      rw [Stmt.exec]
      have first := yes.exec_likens single (has.inner List.mem_cons_self)
      have second := other.exec_likens single (has.inner (.tail _ List.mem_cons_self))
      refine .bind (.note _) fun _ => .bind (.operand has List.mem_cons_self) fun alike => ?_
      rw [alike.isTruthy_eq]
      split
      · exact first.branch yes
      · exact second.branch other
  | .while pos test body, has => by
      rw [Stmt.exec]
      have turn := (body.exec_likens single (has.inner List.mem_cons_self)).branch body
      refine .bind (.note _) fun _ =>
        .bind (.loop pos (.operand has List.mem_cons_self) turn fuel 0) ?_
      rintro turns _ rfl
      exact .bind (.note _) fun _ => .pure rfl
  | .switch pos subject clauses, has => by
      rw [Stmt.exec]
      have uses : ∀ test ∈ clauses.filterMap (·.test), p.Uses test := fun _ inside =>
        .of_operand has (.tail _ inside)
      refine .bind (.note _) fun _ => .bind (.operand has List.mem_cons_self) fun alike =>
        .bind (Run.Likens.entry? single alike uses) ?_
      rintro n? _ rfl
      cases n? with
      | none => exact .pure rfl
      | some n =>
          have inner := execFrom_likens single clauses n fun _ inside => has.inner inside
          refine .bind inner.inScope ?_
          rintro signal _ rfl
          cases signal <;> exact .pure rfl
  | .break _, _ => by
      rw [Stmt.exec]
      exact .bind (.note _) fun _ => .pure rfl
  | .continue _, _ => by
      rw [Stmt.exec]
      exact .bind (.note _) fun _ => .pure rfl

theorem Stmt.execAll_likens (single : Relator.BiUnique pairs) : ∀ body : List Stmt,
    (∀ s ∈ body, p.Has s) →
      Run.Likens p pairs Eq (Stmt.execAll fuel body) (Stmt.execAll fuel body)
  | [], _ => .pure rfl
  | s :: rest, has => by
      rw [Stmt.execAll]
      refine .bind (s.exec_likens single (has s List.mem_cons_self)) ?_
      rintro signal _ rfl
      cases signal with
      | normal => exact execAll_likens single rest fun _ inside => has _ (.tail _ inside)
      | «break» | «continue» => exact .pure rfl

theorem Stmt.execFrom_likens (single : Relator.BiUnique pairs) :
    ∀ (clauses : List Clause) (n : Nat), (∀ s ∈ clauses.flatMap (·.body), p.Has s) →
      Run.Likens p pairs Eq (Stmt.execFrom fuel n clauses) (Stmt.execFrom fuel n clauses)
  | [], _, _ => .pure rfl
  | .mk _ _ body :: rest, n + 1, has => by
      rw [Stmt.execFrom]
      exact execFrom_likens single rest n fun _ inside => has _ (List.mem_append_right _ inside)
  | .mk _ _ body :: rest, 0, has => by
      rw [Stmt.execFrom]
      have first := execAll_likens single body fun _ inside => has _ (List.mem_append_left _ inside)
      refine .bind first ?_
      rintro signal _ rfl
      cases signal with
      | normal =>
          exact execFrom_likens single rest 0 fun _ inside =>
            has _ (List.mem_append_right _ inside)
      | «break» | «continue» => exact .pure rfl

end

theorem Program.run_likens (single : Relator.BiUnique pairs) (q : Program)
    (has : ∀ s ∈ q, p.Has s) :
    Run.Likens p pairs Eq (q.run fuel) (q.run fuel) := by
  induction q with
  | nil => exact .pure rfl
  | cons s rest again =>
      have more := again fun _ inside => has _ (.tail _ inside)
      exact .bind (.last (.single rfl)) fun _ =>
        .bind (s.exec_likens single (has s List.mem_cons_self)) fun _ => more

end Statements

end Trees

section Sharing

variable {m m' : Machine}

theorem Value.Alike.mono {others : Ref → Ref → Prop} {v v' : Value} (alike : v.Alike pairs v')
    (more : ∀ {ref ref'}, pairs ref ref' → others ref ref') : v.Alike others v' := by
  cases alike with
  | single single => exact .single single
  | array pair => exact .array (more pair)

theorem Scope.Matches.mono {others : Ref → Ref → Prop} {s s' : Scope}
    (scopes : s.Matches p pairs s') (more : ∀ {ref ref'}, pairs ref ref' → others ref ref') : s.Matches p others s' := by
  intro name mentioned
  have found := scopes name mentioned
  generalize s.find? name = b? at found
  generalize s'.find? name = b?' at found
  cases found with
  | none => exact .none
  | some alike => exact .some ⟨alike.constant, fun reads => (alike.value reads).mono more⟩

/-- The variables that the program mentions are bound at the same places, to constants or not, and
those that it reads to the same values, wherever the arrays of these are on the heaps. -/
def Machine.Shares (p : Program) (m m' : Machine) : Prop :=
  ∃ pairs, m.heap.Paired pairs m'.heap ∧ m.scopes.Matches p pairs m'.scopes

theorem Program.run_fresh (some : p ≠ []) (fuel : Nat) (m : Machine) :
    p.run fuel m = p.run fuel { m with last := .undefined } := by
  cases p with
  | nil => exact absurd rfl some
  | cons s rest => rfl

theorem Machine.Shares.ready (shares : m.Shares p m') (limit : Int) :
    ∃ pairs, Relator.BiUnique pairs ∧
      Machine.Matches p pairs { m.ready limit with last := .undefined }
        { m'.ready limit with last := .undefined } := by
  obtain ⟨pairs, heaps, scopes⟩ := shares
  have more {ref ref' : Ref} (pair : pairs ref ref') :
      Heap.growing pairs m.heap m'.heap ref ref' := .inl pair
  have outer := scopes.outer.imp fun s s' inside => inside.mono more
  exact ⟨_, heaps.growing.single,
    ⟨scopes.current.mono more, outer⟩, heaps.growing, .single rfl, rfl, rfl⟩

/-- What a program that has statements prints and leaves depends on nothing but the variables that
it mentions, and on the values of none but those that it reads. -/
theorem Machine.Shares.run (shares : m.Shares p m') (some : p ≠ []) (limit : Int) (fuel : Nat) :
    ∃ pairs, Run.Ends (Machine.Matches p pairs) Eq Eq (p.run fuel (m.ready limit))
      (p.run fuel (m'.ready limit)) := by
  obtain ⟨pairs, single, machines⟩ := shares.ready limit
  have likens : Run.Likens p pairs Eq (p.run fuel) (p.run fuel) :=
    Program.run_likens single p fun _ member => .of_mem member
  refine ⟨pairs, ?_⟩
  rw [Program.run_fresh some, Program.run_fresh some fuel (m'.ready limit)]
  exact likens.goes machines

end Sharing

end Script
