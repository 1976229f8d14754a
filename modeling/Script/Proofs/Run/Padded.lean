import Script.Proofs.Run.Matching
import Script.Proofs.Scope.Course

/-!
Runs among more scopes. Scopes that bind nothing a program mentions can stand anywhere around what
runs of it, and the run is the same but for them: they stay as they are. Without any such scopes
this says that a run does not read its trace.
-/

namespace Script

def Chain.Apart (p : Program) (extra : Chain) : Prop :=
  ∀ s ∈ extra, ∀ name, p.Mentions name → s.find? name = none

/-- The second chain is the first with the extra scopes put in under the `n` innermost ones. -/
inductive Chain.Pads (extra : Chain) : Nat → Chain → Chain → Prop
  | under {c : Chain} (inhabited : extra ≠ [] → c ≠ []) : Pads extra 0 c (extra ++ c)
  | within {n : Nat} {c c' : Chain} (s : Scope) (pads : Pads extra n c c') :
      Pads extra (n + 1) (s :: c) (s :: c')

structure Machine.Pads (extra : Chain) (n : Nat) (m m' : Machine) : Prop where
  scopes : Chain.Pads extra n m.scopes.chain m'.scopes.chain
  heap : m'.heap = m.heap
  last : m'.last = m.last
  output : m'.output = m.output
  turns : m'.turns = m.turns

variable {p : Program} {extra : Chain} {n : Nat}

section Scopes

variable {name : String} {v : Value}

theorem Chain.Apart.find? (apart : extra.Apart p) (mentioned : p.Mentions name) :
    extra.find? name = none :=
  List.findSome?_eq_none_iff.mpr fun s member => apart s member name mentioned

theorem Chain.Apart.cons {s : Scope} (apart : extra.Apart p)
    (bare : ∀ name, p.Mentions name → s.find? name = none) : Chain.Apart p (s :: extra) := by
  intro other member name mentioned
  rcases List.mem_cons.mp member with rfl | later
  · exact bare name mentioned
  · exact apart other later name mentioned

theorem Chain.assign_inhabited {c d : Chain} (assigns : c.assign name v = .ok d) : d ≠ [] := by
  obtain ⟨inner, s, outer, b, -, rfl, -, -⟩ := Chain.assign_eq_ok assigns
  exact List.append_ne_nil_of_right_ne_nil inner (List.cons_ne_nil _ _)

theorem Scopes.chain_ofChain {c : Chain} (inhabited : c ≠ []) : (ofChain c).chain = c := by
  cases c with
  | nil => exact absurd rfl inhabited
  | cons s outer => rfl

namespace Chain.Pads

variable {c c' : Chain}

theorem ofChain (pads : Pads extra n c c') :
    Pads extra n (Scopes.ofChain c).chain (Scopes.ofChain c').chain := by
  cases pads with
  | within s pads => exact .within s pads
  | under inhabited =>
      cases extra with
      | nil => exact .under nofun
      | cons s rest =>
          have inhabited := inhabited (List.cons_ne_nil s rest)
          rw [Scopes.chain_ofChain inhabited]
          exact .under fun _ => inhabited

theorem find? (pads : Pads extra n c c') (missing : extra.find? name = none) :
    c'.find? name = c.find? name := by
  induction pads with
  | under _ =>
      rw [Chain.find?, List.findSome?_append]
      show (extra.find? name).or _ = _
      rw [missing, Option.none_or]
      rfl
  | within s _ again =>
      rw [Chain.find?, Chain.find?, List.findSome?_cons, List.findSome?_cons]
      cases s.find? name with
      | some b => rfl
      | none => exact again

theorem assign (pads : Pads extra n c c') (missing : extra.find? name = none) :
    Agree (Pads extra n) (c.assign name v) (c'.assign name v) := by
  induction pads with
  | @under c _ =>
      rw [assign_append missing]
      cases result : c.assign name v with
      | ok d => exact .ok (.under fun _ => assign_inhabited result)
      | error cause => exact .error cause
  | within s pads again =>
      rw [Chain.assign, Chain.assign]
      cases s.find? name with
      | none => exact again.map fun more => .within s more
      | some b =>
          dsimp only
          split
          · exact .error _
          · exact .ok (.within _ pads)

end Chain.Pads

end Scopes

namespace Machine.Pads

variable {m m' : Machine} {name : String}

theorem lookup? (pads : m.Pads extra n m') (missing : extra.find? name = none) :
    m'.lookup? name = m.lookup? name := by
  rw [Machine.lookup?, Machine.lookup?, pads.scopes.find? missing]

theorem enter (pads : m.Pads extra n m') : m.entered.Pads extra (n + 1) m'.entered :=
  { pads with scopes := .within [] pads.scopes }

theorem leave (pads : m.Pads extra (n + 1) m') :
    Machine.Pads extra n { m with scopes := m.scopes.leave }
      { m' with scopes := m'.scopes.leave } := by
  obtain ⟨⟨current, outer⟩, heap, output, trace, last, turns⟩ := m
  obtain ⟨⟨current', outer'⟩, heap', output', trace', last', turns'⟩ := m'
  cases pads.scopes with
  | within s inner => exact { pads with scopes := inner.ofChain }

theorem deepen (pads : m.Pads extra 0 m') : m.Pads ([] :: extra) 0 m'.entered := by
  have inhabited : m.scopes.chain ≠ [] := List.cons_ne_nil _ _
  refine { pads with scopes := ?_ }
  show Chain.Pads ([] :: extra) 0 m.scopes.chain ([] :: m'.scopes.chain)
  generalize m.scopes.chain = c, m'.scopes.chain = c', pads.scopes = scopes at inhabited
  cases scopes with
  | under _ => exact .under fun _ => inhabited

theorem rise {s : Scope} (pads : m.Pads (s :: extra) 0 m') :
    m.Pads extra 0 { m' with scopes := m'.scopes.leave } := by
  obtain ⟨⟨current', outer'⟩, heap', output', trace', last', turns'⟩ := m'
  refine { pads with scopes := ?_ }
  have scopes := pads.scopes
  show Chain.Pads extra 0 m.scopes.chain (Scopes.ofChain outer').chain
  generalize m.scopes.chain = c at scopes ⊢
  cases scopes with
  | under inhabited =>
      have inhabited := inhabited (List.cons_ne_nil _ extra)
      have stays := Scopes.chain_ofChain (List.append_ne_nil_of_right_ne_nil extra inhabited)
      exact stays.symm ▸ .under fun _ => inhabited

end Machine.Pads

namespace Run

variable {α β : Type}

theorem Simulates.inScopes {values : α → β → Prop} {run : Run α} {run' : Run β}
    (goes : Simulates (Machine.Pads extra (n + 1)) Eq values run run') :
    Simulates (Machine.Pads extra n) Eq values (Run.inScope run) (Run.inScope run') := by
  refine ⟨fun {m m'} pads => ?_⟩
  have ran := goes.goes pads.enter
  rw [inScope_apply, inScope_apply]
  generalize run m.entered = result at ran
  generalize run' m'.entered = result' at ran
  cases ran with
  | ok rel after => exact .ok rel after.leave
  | error rel after => exact .error rel after.leave

/-- The run is the same among the extra scopes. -/
abbrev Ignores (extra : Chain) (n : Nat) (run : Run α) : Prop :=
  Simulates (Machine.Pads extra n) Eq Eq run run

namespace Ignores

theorem pure (a : α) : Ignores extra n (Pure.pure a) := Simulates.pure rfl

theorem throw (stop : Stop) : Ignores extra n (MonadExcept.throw stop : Run α) :=
  Simulates.throw rfl

theorem bind {run : Run α} {next : α → Run β} (first : Ignores extra n run)
    (second : ∀ a, Ignores extra n (next a)) : Ignores extra n (run >>= next) := by
  refine Simulates.bind first ?_
  rintro a _ rfl
  exact second a

theorem get {next : Machine → Run α} (goes : ∀ m, Ignores extra n (next m))
    (same : ∀ {m m'}, Machine.Pads extra n m m' → next m' = next m) :
    Ignores extra n (MonadState.get >>= next) :=
  Simulates.get fun {m _} pads => same pads ▸ goes m

theorem ofResult (pos : Pos) (result : Except Fault α) :
    Ignores extra n (Run.ofResult pos result) := by
  cases result with
  | ok a => exact pure a
  | error cause => exact throw _

theorem ofAnswer (pos : Pos) (answer : Except Refusal α) :
    Ignores extra n (Run.ofAnswer pos answer) := by
  cases answer with
  | ok a => exact pure a
  | error refusal => cases refusal <;> exact throw _

theorem note (event : Event) : Ignores extra n (Run.note event) :=
  Simulates.modify fun pads => { pads with }

theorem print (line : String) : Ignores extra n (Run.print line) :=
  Simulates.modify fun pads => { pads with output := congrArg (·.push line) pads.output }

theorem begin : Ignores extra n Run.begin :=
  Simulates.modify fun pads => { pads with turns := congrArg Turns.begin pads.turns }

theorem last (v : Value) : Ignores extra n (modify fun m => { m with last := v }) :=
  Simulates.modify fun pads => { pads with last := rfl }

theorem poll (pos : Pos) (turns : Nat) : Ignores extra n (Run.poll pos turns) := by
  refine ⟨fun {m m'} pads => ?_⟩
  have asked : Machine.Pads extra n { m with turns := m.turns.ask }
      { m' with turns := m'.turns.ask } :=
    { pads with turns := congrArg Turns.ask pads.turns }
  rw [poll_apply, poll_apply, pads.turns] at *
  split
  · exact .error rfl asked
  · exact .ok rfl asked

theorem read (pos : Pos) {name : String} (missing : extra.find? name = none) :
    Ignores extra n (Run.read pos name) := by
  refine .get (fun m => ?_) fun pads => by rw [pads.lookup? missing]
  cases m.lookup? name with
  | some v => exact .pure v
  | none => exact .throw _

theorem alloc (items : List Value) : Ignores extra n (Run.alloc items) := by
  refine ⟨fun {m m'} pads => ?_⟩
  have same := congrArg (·.alloc items.toArray) pads.heap
  refine .ok ?_ { pads with heap := congrArg Prod.snd same }
  exact congrArg (fun made => Value.array made.1) same.symm

theorem call (pos : Pos) (callee : Value) (arguments : List Value) :
    Ignores extra n (Run.call pos callee arguments) := by
  cases callee with
  | function f =>
      refine .get (fun m => .bind (ofResult pos _) fun (v, line?) => ?_) fun pads => by
        rw [pads.heap]
      cases line? with
      | some line => exact .bind (print line) fun _ => .pure v
      | none => exact .pure v
  | number | string | boolean | undefined | null | array | library => exact .throw _

theorem declare (pos : Pos) (b : Binding) : Ignores extra (n + 1) (Run.declare pos b) := by
  refine ⟨fun {m m'} pads => ?_⟩
  rw [declare_apply, declare_apply, Scopes.define, Scopes.define]
  obtain ⟨⟨current, outer⟩, heap, output, trace, last, turns⟩ := m
  obtain ⟨⟨current', outer'⟩, heap', output', trace', last', turns'⟩ := m'
  cases pads.scopes with
  | within s inner =>
      cases current.define b with
      | ok current => exact .ok rfl { pads with scopes := .within current inner }
      | error cause => exact .error rfl pads

theorem assignName (pos : Pos) {name : String} (missing : extra.find? name = none) (v : Value) :
    Ignores extra n (Run.assignName pos name v) := by
  refine ⟨fun {m m'} pads => ?_⟩
  have found := pads.scopes.find? missing
  have assigned := pads.scopes.assign (v := v) missing
  rw [assignName_apply, assignName_apply, found]
  split
  · exact .error rfl pads
  · rw [Scopes.assign, Scopes.assign]
    generalize m.scopes.chain.assign name v = result at assigned
    generalize m'.scopes.chain.assign name v = result' at assigned
    cases assigned with
    | error cause => exact .error rfl pads
    | ok more => exact .ok rfl { pads with scopes := more.ofChain }

theorem assignItem (pos : Pos) (object index v : Value) :
    Ignores extra n (Run.assignItem pos object index v) := by
  cases object with
  | number | string | boolean | undefined | null | function | library => exact .throw _
  | array ref =>
      refine ⟨fun {m m'} pads => ?_⟩
      rw [assignItem_apply, assignItem_apply, pads.heap]
      cases index.place with
      | error cause => exact .error rfl pads
      | ok place =>
          dsimp only
          split
          · exact .error rfl pads
          · exact .ok rfl { pads with heap := rfl }

theorem inScope {run : Run α} (goes : Ignores extra (n + 1) run) :
    Ignores extra n (Run.inScope run) := goes.inScopes

theorem branch (s : Stmt) {run : Run Signal} (goes : ∀ n, Ignores extra (n + 1) run) :
    Ignores extra (n + 1) (Run.branch s run) := by
  rw [Run.branch]
  split
  · exact goes n
  · exact (goes (n + 1)).inScope

theorem loop (pos : Pos) {test : Run Value} {body : Run Signal} (tests : Ignores extra n test)
    (bodies : Ignores extra n body) (fuel turns : Nat) :
    Ignores extra n (Run.loop pos test body turns fuel) :=
  Simulates.loop (congrArg Value.isTruthy) tests (poll pos) begin bodies rfl fuel turns

end Ignores

end Run

section Trees

theorem Expr.isUnbound_pads (apart : extra.Apart p) {m m' : Machine}
    (pads : m.Pads extra n m') {e : Expr} (uses : p.Uses e) : e.isUnbound m' = e.isUnbound m := by
  cases e with
  | name pos text =>
      exact congrArg Option.isNone (pads.lookup? (apart.find? (.inl ⟨pos, uses⟩)))
  | literal | array | binary | logical | unary | member | index | call => rfl

mutual

theorem Expr.eval_ignores (apart : extra.Apart p) : ∀ e : Expr, p.Uses e →
    Run.Ignores extra n e.eval
  | .literal _ value, _ => .pure _
  | .name pos text, uses => .read pos (apart.find? (.inl ⟨pos, uses⟩))
  | .array _ items, uses =>
      .bind (evalAll_ignores apart items fun _ inside => uses.operand inside) fun values =>
        .alloc values
  | .binary pos op left right, uses => by
      rw [Expr.eval]
      have first := left.eval_ignores apart (uses.operand List.mem_cons_self)
      have second := right.eval_ignores apart (uses.operand (.tail _ List.mem_cons_self))
      refine .bind first fun a => .bind second fun b => .get (fun m => .ofAnswer pos _) ?_
      exact fun pads => by rw [pads.heap]
  | .logical _ op left right, uses => by
      rw [Expr.eval]
      have second := right.eval_ignores apart (uses.operand (.tail _ List.mem_cons_self))
      refine .bind (left.eval_ignores apart (uses.operand List.mem_cons_self)) fun v => ?_
      cases op <;> cases v.isTruthy
      · exact .pure v
      · exact second
      · exact second
      · exact .pure v
  | .unary pos op operand, uses => by
      rw [Expr.eval]
      have inner : p.Uses operand := uses.operand List.mem_cons_self
      refine .get (fun m => ?_) fun pads => by rw [operand.isUnbound_pads apart pads inner]
      split
      · exact .pure _
      · exact .bind (operand.eval_ignores apart inner) fun v => .ofResult pos _
  | .member pos object text namePos, uses => by
      rw [Expr.eval]
      refine .bind (object.eval_ignores apart (uses.operand List.mem_cons_self)) fun v => ?_
      exact .get (fun m => .ofResult _ _) fun pads => by rw [pads.heap]
  | .index pos object position, uses => by
      rw [Expr.eval]
      have first := object.eval_ignores apart (uses.operand List.mem_cons_self)
      have second := position.eval_ignores apart (uses.operand (.tail _ List.mem_cons_self))
      refine .bind first fun a => .bind second fun b => .get (fun m => .ofResult pos _) ?_
      exact fun pads => by rw [pads.heap]
  | .call pos callee arguments, uses =>
      .bind (callee.eval_ignores apart (uses.operand List.mem_cons_self)) fun f =>
        .bind (evalAll_ignores apart arguments fun _ inside => uses.operand (.tail _ inside))
          fun values => .call pos f values

theorem Expr.evalAll_ignores (apart : extra.Apart p) : ∀ es : List Expr,
    (∀ e ∈ es, p.Uses e) → Run.Ignores extra n (Expr.evalAll es)
  | [], _ => .pure _
  | e :: rest, uses =>
      .bind (e.eval_ignores apart (uses e List.mem_cons_self)) fun _ =>
        .bind (evalAll_ignores apart rest fun _ inside => uses _ (.tail _ inside)) fun _ => .pure _

end

namespace Run.Ignores

theorem operand (apart : extra.Apart p) {s : Stmt} {e : Expr} (has : p.Has s)
    (inside : e ∈ s.operands) : Ignores extra n e.eval :=
  e.eval_ignores apart (.of_operand has inside)

theorem assign (apart : extra.Apart p) {pos : Pos} {target : Target} {value : Expr}
    (has : p.Has (.assign pos target value)) (v : Value) :
    Ignores extra n (Run.assign v target) := by
  cases target with
  | name place text => exact assignName place (apart.find? (.inr ⟨_, has, rfl⟩)) v
  | index place object position =>
      exact .bind (.operand apart has (.tail _ List.mem_cons_self)) fun a =>
        .bind (.operand apart has (.tail _ (.tail _ List.mem_cons_self))) fun b =>
          assignItem place a b v

theorem matching? (apart : extra.Apart p) (subject : Value) : ∀ clauses : List Clause,
    (∀ test ∈ clauses.filterMap (·.test), p.Uses test) →
      Ignores extra n (Run.matching? subject clauses)
  | [], _ => .pure _
  | .mk _ none _ :: rest, uses => .bind (matching? apart subject rest uses) fun n? => .pure _
  | .mk _ (some test) _ :: rest, uses => by
      refine .bind (test.eval_ignores apart (uses test List.mem_cons_self)) fun v => ?_
      split
      · exact .pure _
      · have later := matching? apart subject rest fun test inside => uses test (.tail _ inside)
        exact .bind later fun n? => .pure _

theorem entry? (apart : extra.Apart p) (subject : Value) {clauses : List Clause}
    (uses : ∀ test ∈ clauses.filterMap (·.test), p.Uses test) :
    Ignores extra n (Clause.entry? subject clauses) := by
  refine .bind (matching? apart subject clauses uses) fun n? => ?_
  cases n? <;> exact .pure _

end Run.Ignores

variable {fuel : Nat}

mutual

theorem Stmt.exec_ignores (apart : extra.Apart p) : ∀ s : Stmt, p.Has s →
    ∀ n, Run.Ignores extra (n + 1) (s.exec fuel)
  | .declare pos kind text none, has, n => by
      rw [Stmt.exec]
      exact .bind (.note _) fun _ => .bind (.pure _) fun v => .bind (.declare pos _) fun _ =>
        .pure _
  | .declare pos kind text (some e), has, n => by
      rw [Stmt.exec]
      exact .bind (.note _) fun _ => .bind (.operand apart has List.mem_cons_self) fun v =>
        .bind (.declare pos _) fun _ => .pure _
  | .assign pos target value, has, n => by
      rw [Stmt.exec]
      exact .bind (.note _) fun _ => .bind (.operand apart has List.mem_cons_self) fun v =>
        .bind (.assign apart has v) fun _ => .pure _
  | .expr pos value, has, n => by
      rw [Stmt.exec]
      exact .bind (.note _) fun _ => .bind (.operand apart has List.mem_cons_self) fun v =>
        .bind (.last v) fun _ => .pure _
  | .block pos body, has, n => by
      rw [Stmt.exec]
      have inner := execAll_ignores apart body (fun _ inside => has.inner inside) (n + 1)
      exact .bind (.note _) fun _ => inner.inScope
  | .if pos test yes none, has, n => by
      rw [Stmt.exec]
      have first := yes.exec_ignores apart (has.inner List.mem_cons_self)
      refine .bind (.note _) fun _ => .bind (.operand apart has List.mem_cons_self) fun v => ?_
      split
      · exact .branch yes first
      · exact .pure _
  | .if pos test yes (some other), has, n => by
      rw [Stmt.exec]
      have first := yes.exec_ignores apart (has.inner List.mem_cons_self)
      have second := other.exec_ignores apart (has.inner (.tail _ List.mem_cons_self))
      refine .bind (.note _) fun _ => .bind (.operand apart has List.mem_cons_self) fun v => ?_
      split
      · exact .branch yes first
      · exact .branch other second
  | .while pos test body, has, n => by
      rw [Stmt.exec]
      have turn := body.exec_ignores apart (has.inner List.mem_cons_self)
      have tests := Run.Ignores.operand (n := n + 1) apart has List.mem_cons_self
      exact .bind (.note _) fun _ => .bind (.loop pos tests (.branch body turn) fuel 0) fun turns =>
        .bind (.note _) fun _ => .pure _
  | .switch pos subject clauses, has, n => by
      rw [Stmt.exec]
      have uses : ∀ test ∈ clauses.filterMap (·.test), p.Uses test := fun _ inside =>
        .of_operand has (.tail _ inside)
      refine .bind (.note _) fun _ => .bind (.operand apart has List.mem_cons_self) fun v =>
        .bind (Run.Ignores.entry? apart v uses) fun start? => ?_
      cases start? with
      | none => exact .pure _
      | some start =>
          have bodies := execFrom_ignores apart clauses start fun _ inside => has.inner inside
          refine .bind (bodies (n + 1)).inScope fun signal => ?_
          cases signal <;> exact .pure _
  | .break _, _, n => by
      rw [Stmt.exec]
      exact .bind (.note _) fun _ => .pure _
  | .continue _, _, n => by
      rw [Stmt.exec]
      exact .bind (.note _) fun _ => .pure _

theorem Stmt.execAll_ignores (apart : extra.Apart p) : ∀ body : List Stmt, (∀ s ∈ body, p.Has s) →
    ∀ n, Run.Ignores extra (n + 1) (Stmt.execAll fuel body)
  | [], _, n => .pure _
  | s :: rest, has, n => by
      rw [Stmt.execAll]
      refine .bind (s.exec_ignores apart (has s List.mem_cons_self) n) fun signal => ?_
      cases signal with
      | normal => exact execAll_ignores apart rest (fun _ inside => has _ (.tail _ inside)) n
      | «break» | «continue» => exact .pure _

theorem Stmt.execFrom_ignores (apart : extra.Apart p) : ∀ (clauses : List Clause) (start : Nat),
    (∀ s ∈ clauses.flatMap (·.body), p.Has s) →
      ∀ n, Run.Ignores extra (n + 1) (Stmt.execFrom fuel start clauses)
  | [], _, _, n => .pure _
  | .mk _ _ body :: rest, start + 1, has, n => by
      rw [Stmt.execFrom]
      have later := execFrom_ignores apart rest start fun _ inside =>
        has _ (List.mem_append_right _ inside)
      exact later n
  | .mk _ _ body :: rest, 0, has, n => by
      rw [Stmt.execFrom]
      have first := execAll_ignores apart body fun _ inside =>
        has _ (List.mem_append_left _ inside)
      have later := execFrom_ignores apart rest 0 fun _ inside =>
        has _ (List.mem_append_right _ inside)
      refine .bind (first n) fun signal => ?_
      cases signal with
      | normal => exact later n
      | «break» | «continue» => exact .pure _

end

theorem Program.run_ignores (apart : extra.Apart p) (q : Program) (has : ∀ s ∈ q, p.Has s)
    (n : Nat) : Run.Ignores extra (n + 1) (q.run fuel) := by
  induction q with
  | nil => exact .pure _
  | cons s rest again =>
      have more := again fun _ inside => has _ (.tail _ inside)
      exact .bind (.last .undefined) fun _ =>
        .bind (s.exec_ignores apart (has s List.mem_cons_self) n) fun _ => more

end Trees

theorem Scopes.eq_of_chain {s t : Scopes} (same : s.chain = t.chain) : s = t := by
  cases s
  cases t
  cases same
  rfl

theorem Chain.Pads.eq {c c' : Chain} (pads : Chain.Pads [] n c c') : c' = c := by
  induction pads with
  | under _ => rfl
  | within s _ again => rw [again]

theorem Machine.Pads.eq {m m' : Machine} (pads : m.Pads [] n m') :
    m' = { m with trace := m'.trace } := by
  have scopes : m'.scopes = m.scopes := Scopes.eq_of_chain pads.scopes.eq
  rw [← scopes, ← pads.heap, ← pads.last, ← pads.output, ← pads.turns]

theorem Run.Ends.imp {α β : Type} {machines others : Machine → Machine → Prop}
    {stops : Stop → Stop → Prop} {values : α → β → Prop} {result : EStateM.Result Stop Machine α}
    {result' : EStateM.Result Stop Machine β} (ends : Ends machines stops values result result')
    (imp : ∀ {m m'}, machines m m' → others m m') : Ends others stops values result result' := by
  cases ends with
  | ok rel after => exact .ok rel (imp after)
  | error rel after => exact .error rel (imp after)

/-- Nothing that a program does depends on its trace. -/
theorem Program.run_untraced (p : Program) (fuel : Nat) (m : Machine) (trace : Array Event) :
    Run.Ends (fun m m' => m' = { m with trace := m'.trace }) Eq Eq (p.run fuel m)
      (p.run fuel { m with trace }) := by
  have none : Chain.Apart p [] := fun _ member => absurd member List.not_mem_nil
  have runs : Run.Ignores [] 1 (p.run fuel) :=
    run_ignores none p (fun _ member => .of_mem member) 0
  have start : Machine.Pads [] 1 m { m with trace } :=
    ⟨.within m.scopes.current (.under nofun), rfl, rfl, rfl, rfl⟩
  exact (runs.goes start).imp fun pads => pads.eq

end Script
