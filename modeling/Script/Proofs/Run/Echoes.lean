import Script.Proofs.Run.Steps
import Script.Proofs.Tree.Moved

/-!
One run beside another. A program at other places, run on a machine on which more was printed
before, goes step by step as the program itself: it comes to the same values, prints the same lines
and stops for the same reason, at the place moved.
-/

namespace Script

theorem Turns.answers_begin (t : Turns) (n : Nat) : t.begin.answers n = t.answers n := by
  induction n generalizing t with
  | zero => rfl
  | succ n again => exact congrArg (List.cons t.ask.isOver) (again t.ask)

def Stop.moved (f : Pos → Pos) : Stop → Stop
  | .fault cause pos => .fault cause (f pos)
  | .cancelled turns pos => .cancelled turns (f pos)
  | .domain => .domain
  | .unfinished => .unfinished

/-- On the second machine `lead` was printed before. What was traced does not count, and of the
turns only which of the next ones are too many. -/
structure Machine.Echoes (lead : Array String) (m m' : Machine) : Prop where
  scopes : m'.scopes = m.scopes
  heap : m'.heap = m.heap
  last : m'.last = m.last
  output : m'.output = lead ++ m.output
  answers : ∀ n, m'.turns.answers n = m.turns.answers n

/-- The second result is that of the same steps at places moved by `f`. -/
inductive Echo {α : Type} (f : Pos → Pos) (lead : Array String) :
    EStateM.Result Stop Machine α → EStateM.Result Stop Machine α → Prop
  | ok (a : α) {m m' : Machine} (echoes : m.Echoes lead m') : Echo f lead (.ok a m) (.ok a m')
  | error (stop : Stop) {m m' : Machine} (echoes : m.Echoes lead m') :
      Echo f lead (.error stop m) (.error (stop.moved f) m')

structure Run.Echoes {α : Type} (f : Pos → Pos) (lead : Array String) (run run' : Run α) :
    Prop where
  goes : ∀ {m m' : Machine}, m.Echoes lead m' → Echo f lead (run m) (run' m')

section Steps

variable {α β : Type} {f : Pos → Pos} {lead : Array String}

theorem Machine.Echoes.lookup? {m m' : Machine} (echoes : m.Echoes lead m') (name : String) :
    m'.lookup? name = m.lookup? name := by
  rw [Machine.lookup?, Machine.lookup?, echoes.scopes]

namespace Run.Echoes

theorem pure (a : α) : Run.Echoes f lead (Pure.pure a) (Pure.pure a) :=
  ⟨fun echoes => .ok a echoes⟩

theorem throw (stop : Stop) :
    Run.Echoes f lead (MonadExcept.throw stop : Run α) (MonadExcept.throw (stop.moved f)) :=
  ⟨fun echoes => .error stop echoes⟩

theorem bind {run run' : Run α} {next next' : α → Run β} (first : Run.Echoes f lead run run')
    (second : ∀ a, Run.Echoes f lead (next a) (next' a)) :
    Run.Echoes f lead (run >>= next) (run' >>= next') := by
  refine ⟨fun {m m'} echoes => ?_⟩
  have ran := first.goes echoes
  generalize known : run m = result at ran
  generalize known' : run' m' = result' at ran
  cases ran with
  | ok a later =>
      rw [bind_ok known, bind_ok known']
      exact (second a).goes later
  | error stop later =>
      rw [bind_error known, bind_error known']
      exact .error stop later

theorem get {next next' : Machine → Run β}
    (goes : ∀ {m m' : Machine}, m.Echoes lead m' → Run.Echoes f lead (next m) (next' m')) :
    Run.Echoes f lead (MonadState.get >>= next) (MonadState.get >>= next') :=
  ⟨fun echoes => (goes echoes).goes echoes⟩

theorem ofResult (pos : Pos) (result : Except Fault α) :
    Run.Echoes f lead (Run.ofResult pos result) (Run.ofResult (f pos) result) := by
  cases result with
  | ok a => exact pure a
  | error cause => exact throw (.fault cause pos)

theorem ofAnswer (pos : Pos) (answer : Except Refusal α) :
    Run.Echoes f lead (Run.ofAnswer pos answer) (Run.ofAnswer (f pos) answer) := by
  cases answer with
  | ok a => exact pure a
  | error refusal =>
      cases refusal with
      | fault cause => exact throw (.fault cause pos)
      | domain => exact throw .domain

theorem note (event event' : Event) : Run.Echoes f lead (Run.note event) (Run.note event') :=
  ⟨fun echoes => .ok () { echoes with }⟩

theorem print (line : String) : Run.Echoes f lead (Run.print line) (Run.print line) := by
  refine ⟨fun {m m'} echoes => ?_⟩
  refine .ok () { echoes with output := ?_ }
  show m'.output.push line = lead ++ m.output.push line
  rw [echoes.output, Array.append_push]

theorem alloc (items : List Value) : Run.Echoes f lead (Run.alloc items) (Run.alloc items) := by
  refine ⟨fun {m m'} echoes => ?_⟩
  show Echo f lead (Run.alloc items m) (.ok (.array (m'.heap.alloc items.toArray).1)
    { m' with heap := (m'.heap.alloc items.toArray).2 })
  rw [echoes.heap]
  exact .ok _ { echoes with heap := rfl }

theorem read (pos : Pos) (name : String) :
    Run.Echoes f lead (Run.read pos name) (Run.read (f pos) name) := by
  refine get fun echoes => ?_
  rw [echoes.lookup?]
  split
  · exact pure _
  · exact throw (.fault (.unbound name) pos)

theorem call (pos : Pos) (callee : Value) (arguments : List Value) :
    Run.Echoes f lead (Run.call pos callee arguments) (Run.call (f pos) callee arguments) := by
  cases callee with
  | function g =>
      refine get fun {m m'} echoes => ?_
      rw [echoes.heap]
      refine bind (ofResult pos _) fun result => ?_
      obtain ⟨v, line?⟩ := result
      cases line? with
      | some line => exact bind (print line) fun _ => pure v
      | none => exact pure v
  | number | string | boolean | undefined | null | array | library =>
      exact throw (.fault (.notCallable _) pos)

theorem declare (pos : Pos) (b : Binding) :
    Run.Echoes f lead (Run.declare pos b) (Run.declare (f pos) b) := by
  refine ⟨fun {m m'} echoes => ?_⟩
  rw [declare_apply, declare_apply, echoes.scopes]
  cases m.scopes.define b with
  | ok scopes => exact .ok () { echoes with scopes := rfl }
  | error cause => exact .error (.fault cause pos) echoes

theorem assignName (pos : Pos) (name : String) (v : Value) :
    Run.Echoes f lead (Run.assignName pos name v) (Run.assignName (f pos) name v) := by
  refine ⟨fun {m m'} echoes => ?_⟩
  rw [assignName_apply, assignName_apply, echoes.scopes]
  split
  · exact .error (.fault (.library name) pos) echoes
  · cases m.scopes.assign name v with
    | ok scopes => exact .ok () { echoes with scopes := rfl }
    | error cause => exact .error (.fault cause pos) echoes

theorem assignItem (pos : Pos) (object index v : Value) :
    Run.Echoes f lead (Run.assignItem pos object index v)
      (Run.assignItem (f pos) object index v) := by
  cases object with
  | array ref =>
      refine ⟨fun {m m'} echoes => ?_⟩
      rw [assignItem_apply, assignItem_apply, echoes.heap]
      cases index.place with
      | error cause => exact .error (.fault cause pos) echoes
      | ok n =>
          dsimp only
          split
          · exact .error (.fault (.indexPastEnd n _) pos) echoes
          · exact .ok () { echoes with heap := rfl }
  | number | string | boolean | undefined | null | function | library =>
      exact throw (.fault (.notIndexAssignable _) pos)

theorem poll (pos : Pos) (turns : Nat) :
    Run.Echoes f lead (Run.poll pos turns) (Run.poll (f pos) turns) := by
  refine ⟨fun {m m'} echoes => ?_⟩
  have same : m'.turns.ask.isOver = m.turns.ask.isOver := (List.cons.inj (echoes.answers 1)).1
  have asked : ({ m with turns := m.turns.ask } : Machine).Echoes lead
      { m' with turns := m'.turns.ask } :=
    { echoes with answers := fun n => (List.cons.inj (echoes.answers (n + 1))).2 }
  rw [poll_apply, poll_apply, same]
  split
  · exact .error (.cancelled turns pos) asked
  · exact .ok () asked

theorem begin : Run.Echoes f lead Run.begin Run.begin := by
  refine ⟨fun {m m'} echoes => ?_⟩
  refine .ok () { echoes with answers := fun n => ?_ }
  exact (m'.turns.answers_begin n).trans ((echoes.answers n).trans (m.turns.answers_begin n).symm)

theorem last (v : Value) : Run.Echoes f lead (modify fun m => { m with last := v })
    (modify fun m => { m with last := v }) :=
  ⟨fun echoes => .ok () { echoes with last := rfl }⟩

theorem inScope {run run' : Run α} (goes : Run.Echoes f lead run run') :
    Run.Echoes f lead (Run.inScope run) (Run.inScope run') := by
  refine ⟨fun {m m'} echoes => ?_⟩
  have entered : m.entered.Echoes lead m'.entered :=
    { echoes with scopes := congrArg Scopes.enter echoes.scopes }
  have ran := goes.goes entered
  rw [inScope_apply, inScope_apply]
  generalize run m.entered = result at ran
  generalize run' m'.entered = result' at ran
  cases ran with
  | ok a later =>
      exact .ok a { later with scopes := congrArg Scopes.leave later.scopes }
  | error stop later =>
      exact .error stop { later with scopes := congrArg Scopes.leave later.scopes }

theorem branch (s : Stmt) {run run' : Run Signal} (goes : Run.Echoes f lead run run') :
    Run.Echoes f lead (Run.branch s run) (Run.branch (s.moved f) run') := by
  rw [Run.branch, Run.branch, s.isBlock_moved]
  split
  · exact goes
  · exact goes.inScope

theorem loop (pos : Pos) {test test' : Run Value} {body body' : Run Signal}
    (tests : Run.Echoes f lead test test') (runs : Run.Echoes f lead body body') (fuel : Nat) :
    ∀ turns, Run.Echoes f lead (Run.loop pos test body turns fuel)
      (Run.loop (f pos) test' body' turns fuel) := by
  induction fuel with
  | zero => exact fun turns => throw .unfinished
  | succ fuel again =>
      intro turns
      rw [Run.loop, Run.loop]
      refine bind tests fun v => ?_
      split
      · refine bind (poll pos turns) fun _ => bind begin fun _ => bind runs fun signal => ?_
        cases signal with
        | normal | «continue» => exact again (turns + 1)
        | «break» => exact pure (turns + 1)
      · exact pure turns

end Run.Echoes

end Steps

section Trees

variable {f : Pos → Pos} {lead : Array String}

theorem Expr.isUnbound_moved {m m' : Machine} (echoes : m.Echoes lead m') (e : Expr) :
    (e.moved f).isUnbound m' = e.isUnbound m := by
  cases e with
  | name pos text => exact congrArg Option.isNone (echoes.lookup? text)
  | _ => rfl

mutual

theorem Expr.eval_echoes : ∀ e : Expr, Run.Echoes f lead e.eval (e.moved f).eval
  | .literal _ value => .pure value.toValue
  | .name pos text => .read pos text
  | .array _ items => .bind (evalAll_echoes items) fun values => .alloc values
  | .binary pos op left right => by
      rw [Expr.moved, Expr.eval, Expr.eval]
      refine .bind left.eval_echoes fun a => .bind right.eval_echoes fun b => .get fun echoes => ?_
      rw [echoes.heap]
      exact .ofAnswer pos _
  | .logical _ op left right => by
      rw [Expr.moved, Expr.eval, Expr.eval]
      refine .bind left.eval_echoes fun a => ?_
      cases op <;> cases a.isTruthy
      · exact .pure a
      · exact right.eval_echoes
      · exact right.eval_echoes
      · exact .pure a
  | .unary pos op operand => by
      rw [Expr.moved, Expr.eval, Expr.eval]
      refine .get fun echoes => ?_
      rw [operand.isUnbound_moved echoes]
      split
      · exact .pure _
      · exact .bind operand.eval_echoes fun v => .ofResult pos _
  | .member pos object text namePos => by
      rw [Expr.moved, Expr.eval, Expr.eval]
      refine .bind object.eval_echoes fun v => .get fun echoes => ?_
      rw [echoes.heap]
      cases v with
      | library l => exact .ofResult namePos _
      | _ => exact .ofResult pos _
  | .index pos object position => by
      rw [Expr.moved, Expr.eval, Expr.eval]
      refine .bind object.eval_echoes fun a => .bind position.eval_echoes fun b =>
        .get fun echoes => ?_
      rw [echoes.heap]
      exact .ofResult pos _
  | .call pos callee arguments =>
      .bind callee.eval_echoes fun g => .bind (evalAll_echoes arguments) fun values =>
        .call pos g values

theorem Expr.evalAll_echoes : ∀ es : List Expr,
    Run.Echoes f lead (Expr.evalAll es) (Expr.evalAll (Expr.movedAll f es))
  | [] => .pure []
  | e :: rest => .bind e.eval_echoes fun _ => .bind (evalAll_echoes rest) fun _ => .pure _

end

theorem Run.Echoes.assign (v : Value) (target : Target) :
    Run.Echoes f lead (Run.assign v target) (Run.assign v (target.moved f)) := by
  cases target with
  | name pos text => exact assignName pos text v
  | index pos object position =>
      exact bind object.eval_echoes fun a => bind position.eval_echoes fun b =>
        assignItem pos a b v

theorem Run.Echoes.matching? (subject : Value) (clauses : List Clause) :
    Run.Echoes f lead (Run.matching? subject clauses)
      (Run.matching? subject (Clause.movedAll f clauses)) := by
  induction clauses with
  | nil => exact pure none
  | cons clause rest again =>
      obtain ⟨pos, test?, body⟩ := clause
      cases test? with
      | none => exact bind again fun n? => pure _
      | some test =>
          refine bind test.eval_echoes fun v => ?_
          split
          · exact pure _
          · exact bind again fun n? => pure _

theorem Run.Echoes.entry? (subject : Value) (clauses : List Clause) :
    Run.Echoes f lead (Clause.entry? subject clauses)
      (Clause.entry? subject (Clause.movedAll f clauses)) := by
  refine bind (matching? subject clauses) fun n? => ?_
  cases n? with
  | some n => exact pure _
  | none =>
      rw [Clause.findDefault_moved]
      exact pure _

mutual

theorem Stmt.exec_echoes (fuel : Nat) : ∀ s : Stmt,
    Run.Echoes f lead (s.exec fuel) ((s.moved f).exec fuel)
  | .declare pos kind text none => by
      rw [Stmt.moved, Stmt.exec, Stmt.exec]
      refine .bind (.note _ _) fun _ => .bind (.pure Value.undefined) fun v => ?_
      exact .bind (.declare pos _) fun _ => .pure Signal.normal
  | .declare pos kind text (some e) => by
      rw [Stmt.moved, Stmt.exec, Stmt.exec]
      refine .bind (.note _ _) fun _ => .bind e.eval_echoes fun v => ?_
      exact .bind (.declare pos _) fun _ => .pure Signal.normal
  | .assign pos target value => by
      rw [Stmt.moved, Stmt.exec, Stmt.exec]
      exact .bind (.note _ _) fun _ => .bind value.eval_echoes fun v =>
        .bind (.assign v target) fun _ => .pure Signal.normal
  | .expr pos value => by
      rw [Stmt.moved, Stmt.exec, Stmt.exec]
      exact .bind (.note _ _) fun _ => .bind value.eval_echoes fun v => .bind (.last v) fun _ =>
        .pure Signal.normal
  | .block pos body => by
      rw [Stmt.moved, Stmt.exec, Stmt.exec]
      exact .bind (.note _ _) fun _ => (execAll_echoes fuel body).inScope
  | .if pos test yes none => by
      rw [Stmt.moved, Stmt.exec, Stmt.exec]
      refine .bind (.note _ _) fun _ => .bind test.eval_echoes fun v => ?_
      split
      · exact (yes.exec_echoes fuel).branch yes
      · exact .pure Signal.normal
  | .if pos test yes (some other) => by
      rw [Stmt.moved, Stmt.exec, Stmt.exec]
      refine .bind (.note _ _) fun _ => .bind test.eval_echoes fun v => ?_
      split
      · exact (yes.exec_echoes fuel).branch yes
      · exact (other.exec_echoes fuel).branch other
  | .while pos test body => by
      rw [Stmt.moved, Stmt.exec, Stmt.exec]
      have turns := Run.Echoes.loop pos test.eval_echoes
        ((body.exec_echoes fuel).branch body) fuel 0
      exact .bind (.note _ _) fun _ => .bind turns fun _ => .bind (.note _ _) fun _ =>
        .pure Signal.normal
  | .switch pos subject clauses => by
      rw [Stmt.moved, Stmt.exec, Stmt.exec]
      refine .bind (.note _ _) fun _ => .bind subject.eval_echoes fun v =>
        .bind (Run.Echoes.entry? v clauses) fun n? => ?_
      cases n? with
      | none => exact .pure Signal.normal
      | some n =>
          refine .bind (execFrom_echoes fuel clauses n).inScope fun signal => ?_
          cases signal <;> exact .pure _
  | .break _ => by
      rw [Stmt.moved, Stmt.exec, Stmt.exec]
      exact .bind (.note _ _) fun _ => .pure _
  | .continue _ => by
      rw [Stmt.moved, Stmt.exec, Stmt.exec]
      exact .bind (.note _ _) fun _ => .pure _

theorem Stmt.execAll_echoes (fuel : Nat) : ∀ body : List Stmt,
    Run.Echoes f lead (Stmt.execAll fuel body) (Stmt.execAll fuel (Stmt.movedAll f body))
  | [] => .pure Signal.normal
  | s :: rest => by
      rw [Stmt.movedAll, Stmt.execAll, Stmt.execAll]
      refine .bind (s.exec_echoes fuel) fun signal => ?_
      cases signal with
      | normal => exact execAll_echoes fuel rest
      | «break» | «continue» => exact .pure _

theorem Stmt.execFrom_echoes (fuel : Nat) : ∀ (clauses : List Clause) (n : Nat),
    Run.Echoes f lead (Stmt.execFrom fuel n clauses)
      (Stmt.execFrom fuel n (Clause.movedAll f clauses))
  | [], _ => .pure Signal.normal
  | .mk _ _ body :: rest, n + 1 => by
      rw [Clause.movedAll, Stmt.execFrom, Stmt.execFrom]
      exact execFrom_echoes fuel rest n
  | .mk _ _ body :: rest, 0 => by
      rw [Clause.movedAll, Stmt.execFrom, Stmt.execFrom]
      refine .bind (execAll_echoes fuel body) fun signal => ?_
      cases signal with
      | normal => exact execFrom_echoes fuel rest 0
      | «break» | «continue» => exact .pure _

end

theorem Program.run_echoes (fuel : Nat) (p : Program) :
    Run.Echoes f lead (p.run fuel) ((p.moved f).run fuel) := by
  induction p with
  | nil => exact .pure ()
  | cons s rest again =>
      exact .bind (.last .undefined) fun _ => .bind (s.exec_echoes fuel) fun _ => again

end Trees

end Script
