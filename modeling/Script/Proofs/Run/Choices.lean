import Script.Proofs.Run.Padded
import Script.Proofs.Run.Signals

/-!
A switch in which no clause runs on into the next is a chain of choices: its subject is bound to a
constant, which the tests of the clauses are compared with one after another, and the default comes
last.
-/

namespace Script

/-- A `break` stands in the statement, in none of its loops and switches. -/
inductive Stmt.Breaks : Stmt → Prop
  | self (pos : Pos) : Breaks (.break pos)
  | block {pos : Pos} {body : List Stmt} {s : Stmt} (member : s ∈ body) (breaks : Breaks s) :
      Breaks (.block pos body)
  | yes {pos : Pos} {test : Expr} {yes : Stmt} {no : Option Stmt} (breaks : Breaks yes) :
      Breaks (.if pos test yes no)
  | no {pos : Pos} {test : Expr} {yes no : Stmt} (breaks : Breaks no) :
      Breaks (.if pos test yes (some no))

/-- A clause without the `break` at its end. -/
structure Arm where
  test : Option Expr
  body : List Stmt

/-- Each clause is an arm with a `break` behind it, which the last may do without. No other `break`
in the arms is one of the switch. -/
inductive Clause.Parted : List Clause → List Arm → Prop
  | nil : Parted [] []
  | last {pos : Pos} {arm : Arm} (closed : ∀ s ∈ arm.body, ¬ s.Breaks) :
      Parted [.mk pos arm.test arm.body] [arm]
  | cons {pos place : Pos} {arm : Arm} {clauses : List Clause} {arms : List Arm}
      (closed : ∀ s ∈ arm.body, ¬ s.Breaks) (rest : Parted clauses arms) :
      Parted (.mk pos arm.test (arm.body ++ [.break place]) :: clauses) (arm :: arms)

/-- What is left of a signal around a switch. -/
def Signal.taken : Signal → Signal
  | .break => .normal
  | signal => signal

/-- What a switch does that begins with a clause, or with none. -/
def Clause.execAt (fuel : Nat) (clauses : List Clause) : Option Nat → Run Signal
  | none => return .normal
  | some start => do return (← Run.inScope (Stmt.execFrom fuel start clauses)).taken

namespace Arm

def default? (arms : List Arm) : Option Arm := arms.find? (·.test.isNone)

def choices (pos : Pos) (constant : String) (last? : Option Stmt) : List Arm → Option Stmt
  | [] => last?
  | ⟨none, _⟩ :: rest => choices pos constant last? rest
  | ⟨some test, body⟩ :: rest =>
    some (.if pos (.binary pos .strictEq (.name pos constant) test) (.block pos body)
      (choices pos constant last? rest))

/-- `{ const c = subject; if (c === test) { … } else if … else { … } }` -/
def chosen (pos : Pos) (constant : String) (subject : Expr) (arms : List Arm) : Stmt :=
  .block pos (.declare pos .const constant (some subject) ::
    (choices pos constant ((default? arms).map fun arm => .block pos arm.body) arms).toList)

end Arm

section Breaks

variable {fuel : Nat}

mutual

theorem Stmt.gives_no_break : ∀ s : Stmt, ¬ s.Breaks → Run.Gives (s.exec fuel) (· ≠ .break)
  | .declare pos kind name none, _ => by
      rw [Stmt.exec]
      exact .next fun _ => .next fun _ => .next fun _ => .pure nofun
  | .declare pos kind name (some e), _ => by
      rw [Stmt.exec]
      exact .next fun _ => .next fun _ => .next fun _ => .pure nofun
  | .assign pos target value, _ => by
      rw [Stmt.exec]
      exact .next fun _ => .next fun _ => .next fun _ => .pure nofun
  | .expr pos value, _ => by
      rw [Stmt.exec]
      exact .next fun _ => .next fun _ => .next fun _ => .pure nofun
  | .block pos body, closed => by
      rw [Stmt.exec]
      have inner : ∀ s ∈ body, ¬ s.Breaks := fun s member breaks => closed (.block member breaks)
      exact .next fun _ => .inScope (execAll_gives_no_break body inner)
  | .if pos test yes none, closed => by
      rw [Stmt.exec]
      refine .next fun _ => .next fun v => ?_
      split
      · exact .branch yes (yes.gives_no_break fun breaks => closed (.yes breaks))
      · exact .pure nofun
  | .if pos test yes (some no), closed => by
      rw [Stmt.exec]
      refine .next fun _ => .next fun v => ?_
      split
      · exact .branch yes (yes.gives_no_break fun breaks => closed (.yes breaks))
      · exact .branch no (no.gives_no_break fun breaks => closed (.no breaks))
  | .while pos test body, _ => (while_gives pos test body).imp fun signal normal => by
      rw [normal]
      exact nofun
  | .switch pos subject clauses, _ => by
      have runs (n : Nat) : Run.Gives (execFrom fuel n clauses) fun signal =>
          signal = .continue → True := fun _ _ _ _ _ => trivial
      exact (switch_gives (fun _ => True) pos subject trivial runs).imp fun _ given => given.1
  | .break pos, closed => absurd (.self pos) closed
  | .continue pos, _ => by
      rw [Stmt.exec]
      exact .next fun _ => .pure nofun

theorem Stmt.execAll_gives_no_break : ∀ body : List Stmt, (∀ s ∈ body, ¬ s.Breaks) →
    Run.Gives (Stmt.execAll fuel body) (· ≠ .break)
  | [], _ => .pure nofun
  | s :: rest, closed => by
      rw [Stmt.execAll]
      refine .bind (s.gives_no_break (closed s List.mem_cons_self)) fun signal given => ?_
      cases signal with
      | normal => exact execAll_gives_no_break rest fun s later => closed s (.tail _ later)
      | «break» | «continue» => exact .pure given

end

end Breaks

namespace Clause.Parted

variable {clauses : List Clause} {arms : List Arm}

theorem tests (parted : Parted clauses arms) :
    List.Forall₂ (fun clause arm => clause.test = arm.test) clauses arms := by
  induction parted with
  | nil => exact .nil
  | last closed => exact .cons rfl .nil
  | cons closed rest again => exact .cons rfl again

theorem bodies (parted : Parted clauses arms) {n : Nat} {arm : Arm} (found : arms[n]? = some arm) :
    (∀ s ∈ arm.body, ¬ s.Breaks) ∧
      ((∃ place rest, (clauses.drop n).flatMap (·.body) = arm.body ++ .break place :: rest) ∨
        (clauses.drop n).flatMap (·.body) = arm.body) := by
  induction parted generalizing n with
  | nil => cases found
  | last closed =>
      cases n with
      | zero =>
          cases found
          exact ⟨closed, .inr (List.append_nil _)⟩
      | succ n => cases found
  | @cons pos place first clauses arms closed rest again =>
      cases n with
      | zero =>
          cases found
          refine ⟨closed, .inl ⟨place, clauses.flatMap (·.body), ?_⟩⟩
          exact List.append_assoc ..
      | succ n => exact again found

theorem body_subset (parted : Parted clauses arms) {n : Nat} {arm : Arm}
    (found : arms[n]? = some arm) : ∀ s ∈ arm.body, s ∈ clauses.flatMap (·.body) := by
  intro s member
  have inside : s ∈ (clauses.drop n).flatMap (·.body) := by
    obtain ⟨-, ⟨place, rest, bodies⟩ | bodies⟩ := parted.bodies found
    · rw [bodies]
      exact List.mem_append_left _ member
    · rwa [bodies]
  obtain ⟨clause, dropped, inside⟩ := List.mem_flatMap.mp inside
  exact List.mem_flatMap.mpr ⟨clause, List.mem_of_mem_drop dropped, inside⟩

theorem findIdx?_eq (parted : Parted clauses arms) :
    clauses.findIdx? (·.test.isNone) = arms.findIdx? (·.test.isNone) := by
  have tests : clauses.map (·.test) = arms.map (·.test) :=
    map_eq_map_of_forall₂ parted.tests id
  have places := congrArg (List.findIdx? Option.isNone) tests
  rwa [List.findIdx?_map, List.findIdx?_map] at places

end Clause.Parted

variable {p : Program} {extra : Chain} {n fuel : Nat}

namespace Run.Simulates

variable {run run' : Run Signal}

theorem noting (event : Event) (goes : Simulates (Machine.Pads extra n) Eq Eq run run') :
    Simulates (Machine.Pads extra n) Eq Eq run (Run.note event >>= fun _ => run') := by
  refine ⟨fun {m m'} pads => ?_⟩
  have noted : m.Pads extra n { m' with trace := m'.trace.push event } := { pads with }
  exact goes.goes noted

theorem inside (goes : Simulates (Machine.Pads ([] :: extra) 0) Eq Eq run run') :
    Simulates (Machine.Pads extra 0) Eq Eq run (Run.inScope run') := by
  refine ⟨fun {m m'} pads => ?_⟩
  have ran := goes.goes pads.deepen
  rw [inScope_apply]
  generalize run m = result at ran
  generalize run' m'.entered = result' at ran
  cases ran with
  | ok rel after => exact .ok rel after.rise
  | error rel after => exact .error rel after.rise

theorem branch (s : Stmt) (goes : Simulates (Machine.Pads extra 0) Eq Eq run run')
    (deeper : Simulates (Machine.Pads ([] :: extra) 0) Eq Eq run run') :
    Simulates (Machine.Pads extra 0) Eq Eq run (Run.branch s run') := by
  rw [Run.branch]
  split
  · exact goes
  · exact deeper.inside

end Run.Simulates

theorem Run.Simulates.gives {run run' : Run Signal} {good : Signal → Prop}
    (goes : Simulates (Machine.Pads extra n) Eq Eq run run') (gives : Gives run good) :
    Simulates (Machine.Pads extra n) Eq (fun a b => a = b ∧ good a) run run' := by
  refine ⟨fun {m m'} pads => ?_⟩
  have ran := goes.goes pads
  generalize known : run m = result at ran
  generalize run' m' = result' at ran
  cases ran with
  | ok rel after => exact .ok ⟨rel, gives _ _ _ known⟩ after
  | error rel after => exact .error rel after

theorem Stmt.execAll_singleton (s : Stmt) : Stmt.execAll fuel [s] = s.exec fuel := by
  funext m
  rw [Stmt.execAll]
  cases ran : s.exec fuel m with
  | ok signal m' =>
      rw [Run.bind_ok ran]
      cases signal <;> rfl
  | error stop m' => rw [Run.bind_error ran]

/-- Entered at its clause, the switch does what the arm does. -/
theorem Clause.Parted.simulates {clauses : List Clause} {arms : List Arm}
    (parted : Parted clauses arms) (apart : extra.Apart p)
    (has : ∀ s ∈ clauses.flatMap (·.body), p.Has s) {start : Nat} {arm : Arm}
    (found : arms[start]? = some arm) (pos : Pos) :
    Run.Simulates (Machine.Pads extra 0) Eq Eq
      (Clause.execAt fuel clauses (some start)) ((Stmt.block pos arm.body).exec fuel) := by
  obtain ⟨closed, bodies⟩ := parted.bodies found
  have inner : ∀ s ∈ arm.body, p.Has s := fun s member => has s (parted.body_subset found s member)
  have runs : Run.Ignores extra 1 (Stmt.execAll fuel arm.body) :=
    Stmt.execAll_ignores apart arm.body inner 0
  have same := runs.gives (Stmt.execAll_gives_no_break arm.body closed)
  have goes : Run.Simulates (Machine.Pads extra 1) Eq (fun a b => a.taken = b)
      (Stmt.execFrom fuel start clauses) (Stmt.execAll fuel arm.body) := by
    rw [Stmt.execFrom_eq, ← bind_pure (Stmt.execAll fuel arm.body)]
    rcases bodies with ⟨place, rest, bodies⟩ | bodies
    · rw [bodies, Stmt.execAll_append]
      refine .bind same ?_
      rintro signal _ ⟨rfl, proper⟩
      cases signal with
      | normal =>
          rw [Stmt.execAll, Stmt.exec]
          exact ⟨fun pads => .ok rfl { pads with }⟩
      | «break» => exact absurd rfl proper
      | «continue» => exact .pure rfl
    · rw [bodies]
      nth_rewrite 1 [← bind_pure (Stmt.execAll fuel arm.body)]
      refine .bind same ?_
      rintro signal _ ⟨rfl, proper⟩
      cases signal with
      | normal | «continue» => exact .pure rfl
      | «break» => exact absurd rfl proper
  rw [Stmt.exec, ← bind_pure (Run.inScope (Stmt.execAll fuel arm.body))]
  refine .noting _ (.bind goes.inScopes ?_)
  rintro signal _ rfl
  exact .pure rfl

section Choices

variable {constant : String} {b : Binding}

theorem Machine.Pads.lookup?_extra {m m' : Machine} (pads : m.Pads extra 0 m')
    (found : extra.find? constant = some b) : m'.lookup? constant = some b.value := by
  have first : m'.scopes.chain.find? constant = some b := by
    generalize m.scopes.chain = c, m'.scopes.chain = c', pads.scopes = scopes
    cases scopes with
    | under _ =>
        rw [Chain.find?, List.findSome?_append]
        show (extra.find? constant).or _ = _
        rw [found, Option.some_or]
  rw [Machine.lookup?, first]

theorem Stmt.if_compared {m : Machine} {v : Value} (found : m.lookup? constant = some v)
    (pos : Pos) (test : Expr) (yes : Stmt) (no : Option Stmt) :
    let s := Stmt.if pos (.binary pos .strictEq (.name pos constant) test) yes no
    s.exec fuel m = (test.eval >>= fun w =>
      if v.strictEquals w then Run.branch yes (yes.exec fuel)
      else
        match no with
        | some other => Run.branch other (other.exec fuel)
        | none => return .normal) (m.noted s) := by
  intro s
  have reads : Run.read pos constant (m.noted s) = .ok v (m.noted s) := by
    have known : (m.noted s).lookup? constant = some v := found
    rw [Run.read_apply, known]
  have compared : (Expr.binary pos .strictEq (.name pos constant) test).eval (m.noted s) =
      (test.eval >>= fun w => pure (Value.boolean (v.strictEquals w))) (m.noted s) := by
    rw [Expr.eval, Expr.eval, Run.bind_ok reads]
    rfl
  have runs : s.exec fuel m = ((Expr.binary pos .strictEq (.name pos constant) test).eval >>=
      fun w : Value => if w.isTruthy then Run.branch yes (yes.exec fuel)
        else
          match no with
          | some other => Run.branch other (other.exec fuel)
          | none => return .normal) (m.noted s) := by
    cases no with
    | none =>
        rw [Stmt.exec]
        rfl
    | some other =>
        rw [Stmt.exec]
        rfl
  rw [runs]
  cases ran : test.eval (m.noted s) with
  | error stop m₁ =>
      rw [Run.bind_error ran] at compared ⊢
      rw [Run.bind_error compared]
  | ok w m₁ =>
      rw [Run.bind_ok ran] at compared ⊢
      rw [Run.bind_ok compared]
      rfl

theorem Run.Simulates.otherwise {run : Run Signal} (other? : Option Stmt) :
    Simulates (Machine.Pads extra 0) Eq Eq run (Stmt.execAll fuel other?.toList) →
      Simulates (Machine.Pads ([] :: extra) 0) Eq Eq run (Stmt.execAll fuel other?.toList) →
      Simulates (Machine.Pads extra 0) Eq Eq run
        (match other? with
        | some other => Run.branch other (other.exec fuel)
        | none => return .normal) := by
  intro goes deeper
  cases other? with
  | none => exact goes
  | some other =>
      rw [Option.toList, Stmt.execAll_singleton] at goes deeper
      exact .branch other goes deeper

theorem Arm.choices_simulate {clauses : List Clause} {arms : List Arm} {pos : Pos}
    {last? : Option Stmt}
    (tests : List.Forall₂ (fun clause arm => clause.test = arm.test) clauses arms) :
    ∀ (next : Option Nat → Run Signal) {extra : Chain}, extra.Apart p →
      extra.find? constant = some b → (∀ test ∈ clauses.filterMap (·.test), p.Uses test) →
      (∀ {start arm}, arms[start]? = some arm → ∀ {extra}, Chain.Apart p extra →
        Run.Simulates (Machine.Pads extra 0) Eq Eq (next (some start))
          ((Stmt.block pos arm.body).exec fuel)) →
      (∀ {extra}, Chain.Apart p extra → Run.Simulates (Machine.Pads extra 0) Eq Eq (next none)
        (Stmt.execAll fuel last?.toList)) →
      Run.Simulates (Machine.Pads extra 0) Eq Eq (Run.matching? b.value clauses >>= next)
        (Stmt.execAll fuel (choices pos constant last? arms).toList) := by
  -- on the clauses: to look for the first that matches is to make one choice after another, whatever
  -- is done then
  induction tests with
  | nil =>
      intro next extra apart _ _ _ unmatched
      exact unmatched apart
  | @cons clause arm clauses arms same _ again =>
      intro next extra apart found uses matched unmatched
      obtain ⟨place, test?, body⟩ := clause
      obtain ⟨_, own⟩ := arm
      obtain rfl : test? = _ := same
      -- Behind this clause the search goes on, and counts one more.
      have later {extra : Chain} (apart : extra.Apart p) (found : extra.find? constant = some b)
          (uses : ∀ test ∈ clauses.filterMap (·.test), p.Uses test) :=
        again (fun start? => next (start?.map (· + 1))) apart found uses
          (fun {start arm} inside => @matched (start + 1) arm inside) unmatched
      cases test? with
      | none =>
          rw [Run.matching?, bind_assoc]
          exact later apart found uses
      | some test =>
          rw [Run.matching?, bind_assoc, choices, Option.toList, Stmt.execAll_singleton]
          have used : ∀ test ∈ clauses.filterMap (·.test), p.Uses test := fun test inside =>
            uses test (.tail _ inside)
          have tested : Run.Ignores extra 0 test.eval :=
            test.eval_ignores apart (uses test List.mem_cons_self)
          refine ⟨fun {m m'} pads => ?_⟩
          rw [Stmt.if_compared (pads.lookup?_extra found)]
          refine (Run.Simulates.bind tested ?_).goes { pads with }
          rintro w _ rfl
          split
          · exact @matched 0 ⟨some test, own⟩ rfl extra apart
          · rw [bind_assoc]
            have deeper : Chain.Apart p ([] :: extra) := apart.cons fun _ _ => rfl
            exact .otherwise _ (later apart found used) (later deeper found used)

theorem Machine.Pads.declare {m m' : Machine} (pads : m.Pads ([] :: extra) 0 m') (pos : Pos)
    (b : Binding) : ∃ m'', Run.declare pos b m' = .ok () m'' ∧ m.Pads ([b] :: extra) 0 m'' := by
  obtain ⟨⟨current', outer'⟩, heap', output', trace', last', turns'⟩ := m'
  have scopes := pads.scopes
  generalize same : m.scopes.chain = c at scopes
  cases scopes with
  | under inhabited =>
      rw [Run.declare_apply]
      refine ⟨_, rfl, { pads with scopes := ?_ }⟩
      rw [same]
      exact .under fun _ => inhabited (List.cons_ne_nil _ _)

theorem Stmt.block_simulates {subject : Expr} {next : Value → Run Signal} {rest : List Stmt}
    (pos : Pos) (evaluated : Run.Ignores ([] :: extra) 0 subject.eval)
    (goes : ∀ v, Run.Simulates (Machine.Pads ([⟨constant, v, true⟩] :: extra) 0) Eq Eq (next v)
      (Stmt.execAll fuel rest)) :
    Run.Simulates (Machine.Pads extra 0) Eq Eq (subject.eval >>= next)
      ((Stmt.block pos (.declare pos .const constant (some subject) :: rest)).exec fuel) := by
  rw [Stmt.exec]
  refine .noting _ ⟨fun {m m'} pads => ?_⟩
  let inner : Machine := m'.entered.noted (.declare pos .const constant (some subject))
  have within : m.Pads ([] :: extra) 0 inner := { pads.deepen with }
  have runs : Stmt.execAll fuel (.declare pos .const constant (some subject) :: rest) m'.entered =
      (subject.eval >>= fun v => Run.declare pos ⟨constant, v, true⟩ >>= fun _ =>
        Stmt.execAll fuel rest) inner := by
    rw [Stmt.execAll, Stmt.exec]
    simp only [bind_assoc, pure_bind]
    rfl
  have ran := evaluated.goes within
  rw [Run.inScope_apply, runs]
  generalize known : subject.eval m = result at ran
  generalize known' : subject.eval inner = result' at ran
  cases ran with
  | error rel after =>
      rw [Run.bind_error known, Run.bind_error known']
      exact .error rel after.rise
  | @ok v v' m₁ m₁' rel after =>
      obtain rfl : v = v' := rel
      rw [Run.bind_ok known, Run.bind_ok known']
      obtain ⟨m₂', declared, bound⟩ := after.declare pos ⟨constant, v, true⟩
      rw [Run.bind_ok declared]
      have went := (goes v).goes bound
      generalize next v m₁ = result at went
      generalize Stmt.execAll fuel rest m₂' = result' at went
      cases went with
      | ok rel after => exact .ok rel after.rise
      | error rel after => exact .error rel after.rise

end Choices

theorem Stmt.switch_exec (pos : Pos) (subject : Expr) (clauses : List Clause) (m : Machine) :
    (Stmt.switch pos subject clauses).exec fuel m =
      (subject.eval >>= fun v => Run.matching? v clauses >>= fun start? =>
        Clause.execAt fuel clauses (start?.or (clauses.findIdx? (·.test.isNone))))
      (m.noted (.switch pos subject clauses)) := by
  rw [Stmt.exec]
  refine congrArg (fun next => (subject.eval >>= next) (m.noted _)) (funext fun v => ?_)
  rw [Clause.entry?, bind_assoc]
  refine congrArg (Run.matching? v clauses >>= ·) (funext fun start? => ?_)
  have enters (start : Nat) : (Run.inScope (Stmt.execFrom fuel start clauses) >>= fun signal =>
      match signal with
      | .break => return .normal
      | signal => return signal) = Clause.execAt fuel clauses (some start) := by
    refine congrArg (Run.inScope (Stmt.execFrom fuel start clauses) >>= ·) (funext fun signal => ?_)
    cases signal <;> rfl
  cases start? with
  | some start => exact enters start
  | none =>
      rw [Option.none_or, pure_bind]
      cases clauses.findIdx? (·.test.isNone) with
      | some start => exact enters start
      | none => rfl

/-- A switch in which no clause runs on into the next does what a chain of choices does that begins
with a new constant for its subject: the tests are made one after another, and the default comes
last, wherever it was. Nothing but the trace tells the two runs apart. -/
theorem switch_chosen {clauses : List Clause} {arms : List Arm}
    (parted : Clause.Parted clauses arms) {pos : Pos} {subject : Expr} {constant : String}
    (fresh : ¬ Program.Mentions [.switch pos subject clauses] constant) (place : Pos) (fuel : Nat)
    (m : Machine) :
    Run.Ends (fun m m' => m' = { m with trace := m'.trace }) Eq Eq
      ((Stmt.switch pos subject clauses).exec fuel m)
      ((Arm.chosen place constant subject arms).exec fuel m) := by
  let p : Program := [.switch pos subject clauses]
  have has : p.Has (.switch pos subject clauses) := .of_mem List.mem_cons_self
  have none : Chain.Apart p [] := fun _ member => absurd member List.not_mem_nil
  have apart (v : Value) : Chain.Apart p [[⟨constant, v, true⟩]] := by
    refine none.cons fun name mentioned => ?_
    have different : constant ≠ name := fun same => fresh (same ▸ mentioned)
    simp [Scope.find?, different]
  have goes (v : Value) : Run.Simulates (Machine.Pads [[⟨constant, v, true⟩]] 0) Eq Eq
      (Run.matching? v clauses >>= fun start? =>
        Clause.execAt fuel clauses (start?.or (clauses.findIdx? (·.test.isNone))))
      (Stmt.execAll fuel (Arm.choices place constant
        ((Arm.default? arms).map fun arm => .block place arm.body) arms).toList) := by
    have found : Chain.find? [[⟨constant, v, true⟩]] constant = some ⟨constant, v, true⟩ := by
      simp [Chain.find?, Scope.find?]
    have enters {start : Nat} {arm : Arm} (found : arms[start]? = some arm) {extra : Chain}
        (apart : extra.Apart p) :
        Run.Simulates (Machine.Pads extra 0) Eq Eq (Clause.execAt fuel clauses (some start))
          ((Stmt.block place arm.body).exec fuel) :=
      parted.simulates apart (fun s inside => has.inner inside) found place
    refine Arm.choices_simulate parted.tests _ (apart v) found
      (fun test inside => .of_operand has (.tail _ inside)) enters fun {extra} apart => ?_
    rw [Option.none_or, parted.findIdx?_eq, Arm.default?, List.find?_eq_bind_findIdx?_getElem?]
    cases first : arms.findIdx? (·.test.isNone) with
    | none => exact .pure rfl
    | some start =>
        obtain ⟨within, -, -⟩ := List.findIdx?_eq_some_iff_getElem.mp first
        rw [Option.bind_some, List.getElem?_eq_getElem within, Option.map_some, Option.toList,
          Stmt.execAll_singleton]
        exact enters (List.getElem?_eq_getElem within) apart
  have evaluated : Run.Ignores [[]] 0 subject.eval :=
    subject.eval_ignores (none.cons fun _ _ => rfl) (.of_operand has List.mem_cons_self)
  have start : (m.noted (.switch pos subject clauses)).Pads [] 0 m :=
    ⟨.under (absurd rfl), rfl, rfl, rfl, rfl⟩
  have ran := (Stmt.block_simulates place evaluated goes).goes start
  rw [Stmt.switch_exec]
  exact ran.imp fun pads => pads.eq

/-- `switch (true) { case null: break; default: "d"; break; case true: "t"; }` -/
def chosenClauses : List Clause :=
  [.mk ⟨1, 1⟩ (some (.literal ⟨1, 6⟩ .null)) [.break ⟨1, 12⟩],
    .mk ⟨2, 1⟩ none [.expr ⟨2, 10⟩ (.literal ⟨2, 10⟩ (.string "d")), .break ⟨2, 15⟩],
    .mk ⟨3, 1⟩ (some (.literal ⟨3, 6⟩ (.boolean true)))
      [.expr ⟨3, 12⟩ (.literal ⟨3, 12⟩ (.string "t"))]]

def chosenArms : List Arm :=
  [⟨some (.literal ⟨1, 6⟩ .null), []⟩,
    ⟨none, [.expr ⟨2, 10⟩ (.literal ⟨2, 10⟩ (.string "d"))]⟩,
    ⟨some (.literal ⟨3, 6⟩ (.boolean true)),
      [.expr ⟨3, 12⟩ (.literal ⟨3, 12⟩ (.string "t"))]⟩]

def chosenSwitch : Stmt := .switch ⟨0, 1⟩ (.literal ⟨0, 9⟩ (.boolean true)) chosenClauses

theorem parted_chosen : Clause.Parted chosenClauses chosenArms := by
  have plain {pos place : Pos} {s : String} :
      ∀ inner ∈ [Stmt.expr pos (.literal place (.string s))], ¬ inner.Breaks := by
    intro inner member breaks
    rw [List.mem_singleton.mp member] at breaks
    cases breaks
  have last : Clause.Parted (chosenClauses.drop 2) (chosenArms.drop 2) :=
    @Clause.Parted.last _ ⟨_, _⟩ plain
  have second : Clause.Parted (chosenClauses.drop 1) (chosenArms.drop 1) :=
    @Clause.Parted.cons _ _ ⟨_, [_]⟩ _ _ plain last
  exact @Clause.Parted.cons _ _ ⟨_, []⟩ _ _ (fun _ member => absurd member List.not_mem_nil) second

theorem fresh_chosen (name : String) : ¬ Program.Mentions [chosenSwitch] name := by
  have inner : chosenSwitch.inner = [.break ⟨1, 12⟩,
      .expr ⟨2, 10⟩ (.literal ⟨2, 10⟩ (.string "d")), .break ⟨2, 15⟩,
      .expr ⟨3, 12⟩ (.literal ⟨3, 12⟩ (.string "t"))] := rfl
  have plain : ∀ s ∈ chosenSwitch.inner, s.inner = [] ∧ Program.written? s = none ∧
      ∀ e ∈ s.operands, ∃ pos value, e = .literal pos value := by
    rw [inner]
    simp [Stmt.inner, Stmt.operands, Program.written?]
  have tests : ∀ e ∈ chosenSwitch.operands, ∃ pos value, e = .literal pos value := by
    simp [chosenSwitch, chosenClauses, Stmt.operands, Clause.test]
  have parts {s : Stmt} (has : Program.Has [chosenSwitch] s) :
      s = chosenSwitch ∨ s ∈ chosenSwitch.inner := by
    obtain ⟨top, member, part⟩ := has
    rw [List.mem_singleton.mp member] at part
    cases part with
    | self => exact .inl rfl
    | @inner child _ inside within =>
        cases within with
        | self => exact .inr inside
        | inner deeper _ =>
            rw [(plain child inside).1] at deeper
            cases deeper
  rintro (⟨pos, s, has, e, inside, part⟩ | ⟨s, has, writes⟩)
  · have literal : ∃ pos value, e = .literal pos value := by
      rcases parts has with rfl | within
      · exact tests e inside
      · exact (plain s within).2.2 e inside
    obtain ⟨at₁, value, rfl⟩ := literal
    cases part with
    | operand deeper _ => cases deeper
  · rcases parts has with rfl | within
    · cases writes
    · rw [(plain s within).2.1] at writes
      cases writes

theorem switch_chosen_last :
    Clause.Parted chosenClauses chosenArms ∧ ¬ Program.Mentions [chosenSwitch] "c" ∧
      ∃ m m', chosenSwitch.exec 0 .start = .ok .normal m ∧ m.last = .string "t" ∧
        (Arm.chosen ⟨1, 1⟩ "c" (.literal ⟨0, 9⟩ (.boolean true)) chosenArms).exec 0 .start =
          .ok .normal m' ∧ m' = { m with trace := m'.trace } := by
  refine ⟨parted_chosen, fresh_chosen "c", ?_⟩
  have ends : Run.Ends _ Eq Eq (chosenSwitch.exec 0 .start) _ :=
    switch_chosen parted_chosen (fresh_chosen "c") ⟨1, 1⟩ 0 .start
  have ran : ∃ m, chosenSwitch.exec 0 .start = .ok .normal m ∧ m.last = .string "t" :=
    ⟨_, rfl, rfl⟩
  obtain ⟨m, ran, last⟩ := ran
  generalize known : (Arm.chosen ⟨1, 1⟩ "c" (.literal ⟨0, 9⟩ (.boolean true)) chosenArms).exec 0
    .start = result at ends
  rw [ran] at ends
  cases ends with
  | @ok _ signal _ m' rel after =>
      obtain rfl : Signal.normal = signal := rel
      exact ⟨m, m', ran, last, rfl, after⟩

end Script
