import Script.Proofs.Run.Causes
import Script.Proofs.Run.Limit
import Script.Proofs.Run.Simulation
import Script.Proofs.Tree.Renamed

/-!
Runs under other names. A program with other names for its variables, run on a machine with the same
other names, does the same step by step; a fault about a variable is about its other name.
-/

namespace Script

variable {r : Renaming}

theorem Fault.OfOperation.renamed {cause : Fault} (operation : cause.OfOperation) :
    cause.renamed r = cause := by
  cases cause with
  | unbound | unboundTarget | constant | library | redeclared => exact operation.elim
  | _ => rfl

namespace Run

def renamed {α : Type} (r : Renaming) :
    EStateM.Result Stop Machine α → EStateM.Result Stop Machine α
  | .ok a m => .ok a (m.renamed r)
  | .error stop m => .error (stop.renamed r) (m.renamed r)

/-- The second run is the first under other names. -/
abbrev Renames {α : Type} (r : Renaming) (run run' : Run α) : Prop :=
  Simulates (fun m m' => m' = m.renamed r) (fun stop stop' => stop' = stop.renamed r) Eq run run'

namespace Renames

variable {α β : Type}

theorem of_eq {run run' : Run α} (goes : ∀ m : Machine, run' (m.renamed r) = renamed r (run m)) :
    Renames r run run' := by
  refine ⟨?_⟩
  rintro m _ rfl
  rw [goes]
  cases run m with
  | ok a m' => exact .ok rfl rfl
  | error stop m' => exact .error rfl rfl

theorem eq {run run' : Run α} (renames : Renames r run run') (m : Machine) :
    run' (m.renamed r) = renamed r (run m) := by
  have ends := renames.goes (m := m) rfl
  generalize run m = result at ends ⊢
  generalize run' (m.renamed r) = result' at ends ⊢
  cases ends with
  | ok same after => rw [renamed, same, after]
  | error same after => rw [renamed, same, after]

theorem pure (a : α) : Renames r (Pure.pure a) (Pure.pure a) := Simulates.pure rfl

theorem throw (stop : Stop) :
    Renames r (MonadExcept.throw stop : Run α) (MonadExcept.throw (stop.renamed r)) :=
  Simulates.throw rfl

theorem bind {run run' : Run α} {next next' : α → Run β} (first : Renames r run run')
    (second : ∀ a, Renames r (next a) (next' a)) : Renames r (run >>= next) (run' >>= next') :=
  Simulates.bind first fun {a _} same => same ▸ second a

theorem get {next next' : Machine → Run β}
    (goes : ∀ m : Machine, Renames r (next m) (next' (m.renamed r))) :
    Renames r (MonadState.get >>= next) (MonadState.get >>= next') :=
  Simulates.get fun {m _} same => same ▸ goes m

theorem fault {cause : Fault} (operation : cause.OfOperation) (pos : Pos) :
    Renames r (MonadExcept.throw (.fault cause pos) : Run α)
      (MonadExcept.throw (.fault cause pos)) := by
  have stops : Renames r (MonadExcept.throw (.fault cause pos) : Run α) _ :=
    throw (.fault cause pos)
  rwa [Stop.renamed, operation.renamed] at stops

theorem ofResult (pos : Pos) {result : Except Fault α}
    (operation : ∀ cause, result = .error cause → cause.OfOperation) :
    Renames r (Run.ofResult pos result) (Run.ofResult pos result) := by
  cases result with
  | ok a => exact pure a
  | error cause => exact fault (operation cause rfl) pos

theorem ofAnswer (pos : Pos) {answer : Except Refusal α}
    (operation : ∀ cause, answer = .error (.fault cause) → cause.OfOperation) :
    Renames r (Run.ofAnswer pos answer) (Run.ofAnswer pos answer) := by
  cases answer with
  | ok a => exact pure a
  | error refusal =>
      cases refusal with
      | fault cause => exact fault (operation cause rfl) pos
      | domain => exact throw .domain

theorem note (event : Event) : Renames r (Run.note event) (Run.note event) := .of_eq fun _ => rfl

theorem print (line : String) : Renames r (Run.print line) (Run.print line) := .of_eq fun _ => rfl

theorem alloc (items : List Value) : Renames r (Run.alloc items) (Run.alloc items) :=
  .of_eq fun _ => rfl

theorem read (pos : Pos) (name : String) :
    Renames r (Run.read pos name) (Run.read pos (r name)) := by
  refine get fun m => ?_
  rw [m.lookup?_renamed]
  cases m.lookup? name with
  | some v => exact pure v
  | none => exact throw (.fault (.unbound name) pos)

theorem call (pos : Pos) (callee : Value) (arguments : List Value) :
    Renames r (Run.call pos callee arguments) (Run.call pos callee arguments) := by
  cases callee with
  | function f =>
      refine get fun m => bind (ofResult pos fun cause fails => ?_) fun result => ?_
      · exact Builtin.call_ofOperation fails
      · obtain ⟨v, line?⟩ := result
        cases line? with
        | some line => exact bind (print line) fun _ => pure v
        | none => exact pure v
  | number | string | boolean | undefined | null | array | library =>
      exact throw (.fault (.notCallable _) pos)

theorem declare (pos : Pos) (b : Binding) :
    Renames r (Run.declare pos b) (Run.declare pos (b.renamed r)) := by
  refine .of_eq fun m => ?_
  have defines : (m.renamed r).scopes.define (b.renamed r) = _ := m.scopes.define_renamed b
  rw [declare_apply, declare_apply, defines]
  cases m.scopes.define b <;> rfl

theorem assignName (pos : Pos) (name : String) (v : Value) :
    Renames r (Run.assignName pos name v) (Run.assignName pos (r name) v) := by
  refine .of_eq fun m => ?_
  have found : Chain.find? (m.renamed r).scopes.chain (r name) = _ :=
    m.scopes.chain.find?_renamed name
  have assigns : (m.renamed r).scopes.assign (r name) v = _ := m.scopes.assign_renamed name v
  rw [assignName_apply, assignName_apply, found, assigns, Library.named?_renamed,
    Option.isNone_map]
  split
  · rfl
  · cases m.scopes.assign name v <;> rfl

theorem assignItem (pos : Pos) (object index v : Value) :
    Renames r (Run.assignItem pos object index v) (Run.assignItem pos object index v) := by
  cases object with
  | array ref =>
      refine bind (ofResult pos fun cause fails => Value.place_ofOperation fails) fun n =>
        get fun m => ?_
      show Renames r (if (m.heap.items ref).size < n then _ else _)
        (if (m.heap.items ref).size < n then _ else _)
      split
      · exact throw (.fault (.indexPastEnd n _) pos)
      · exact .of_eq fun _ => rfl
  | number | string | boolean | undefined | null | function | library =>
      exact throw (.fault (.notIndexAssignable _) pos)

theorem poll (pos : Pos) (turns : Nat) : Renames r (Run.poll pos turns) (Run.poll pos turns) := by
  refine .of_eq fun m => ?_
  have same : (m.renamed r).turns = m.turns := rfl
  rw [poll_apply, poll_apply, same]
  split <;> rfl

theorem begin : Renames r Run.begin Run.begin := .of_eq fun _ => rfl

theorem last (v : Value) : Renames r (modify fun m => { m with last := v })
    (modify fun m => { m with last := v }) :=
  .of_eq fun _ => rfl

theorem inScope {run run' : Run α} (goes : Renames r run run') :
    Renames r (Run.inScope run) (Run.inScope run') := by
  refine Simulates.inScope goes ?_ ?_
  · rintro m _ rfl
    rfl
  · rintro m _ rfl
    show ({ m.renamed r with scopes := (m.scopes.renamed r).leave } : Machine) = _
    rw [Scopes.leave_renamed]
    rfl

theorem branch (s : Stmt) {run run' : Run Signal} (goes : Renames r run run') :
    Renames r (Run.branch s run) (Run.branch (s.renamed r) run') := by
  rw [Run.branch, Run.branch, s.isBlock_renamed]
  split
  · exact goes
  · exact goes.inScope

theorem loop (pos : Pos) {test test' : Run Value} {body body' : Run Signal}
    (tests : Renames r test test') (bodies : Renames r body body') (fuel turns : Nat) :
    Renames r (Run.loop pos test body turns fuel) (Run.loop pos test' body' turns fuel) :=
  Simulates.loop (congrArg Value.isTruthy) tests (poll pos) begin bodies rfl fuel turns

end Renames

end Run

section Trees

theorem Expr.isUnbound_renamed (m : Machine) (e : Expr) :
    (e.renamed r).isUnbound (m.renamed r) = e.isUnbound m := by
  cases e with
  | name pos text => exact congrArg Option.isNone (m.lookup?_renamed text)
  | _ => rfl

mutual

theorem Expr.eval_renames : ∀ e : Expr, Run.Renames r e.eval (e.renamed r).eval
  | .literal _ value => .pure value.toValue
  | .name pos text => .read pos text
  | .array _ items => .bind (evalAll_renames items) fun values => .alloc values
  | .binary pos op left right => by
      rw [Expr.renamed, Expr.eval, Expr.eval]
      refine .bind left.eval_renames fun a => .bind right.eval_renames fun b => .get fun m => ?_
      exact .ofAnswer pos fun cause fails => BinaryOp.apply_ofOperation fails
  | .logical _ op left right => by
      rw [Expr.renamed, Expr.eval, Expr.eval]
      refine .bind left.eval_renames fun a => ?_
      cases op <;> cases a.isTruthy
      · exact .pure a
      · exact right.eval_renames
      · exact right.eval_renames
      · exact .pure a
  | .unary pos op operand => by
      rw [Expr.renamed, Expr.eval, Expr.eval]
      refine .get fun m => ?_
      rw [operand.isUnbound_renamed m]
      split
      · exact .pure _
      · exact .bind operand.eval_renames fun v =>
          .ofResult pos fun cause fails => UnaryOp.apply_ofOperation fails
  | .member pos object text namePos => by
      rw [Expr.renamed, Expr.eval, Expr.eval]
      refine .bind object.eval_renames fun v => .get fun m => ?_
      exact .ofResult _ fun cause fails => Value.member_ofOperation fails
  | .index pos object position => by
      rw [Expr.renamed, Expr.eval, Expr.eval]
      refine .bind object.eval_renames fun a => .bind position.eval_renames fun b =>
        .get fun m => ?_
      exact .ofResult pos fun cause fails => Value.item_ofOperation fails
  | .call pos callee arguments =>
      .bind callee.eval_renames fun g => .bind (evalAll_renames arguments) fun values =>
        .call pos g values

theorem Expr.evalAll_renames : ∀ es : List Expr,
    Run.Renames r (Expr.evalAll es) (Expr.evalAll (Expr.renamedAll r es))
  | [] => .pure []
  | e :: rest => .bind e.eval_renames fun _ => .bind (evalAll_renames rest) fun _ => .pure _

end

theorem Run.Renames.assign (v : Value) (target : Target) :
    Run.Renames r (Run.assign v target) (Run.assign v (target.renamed r)) := by
  cases target with
  | name pos text => exact assignName pos text v
  | index pos object position =>
      exact bind object.eval_renames fun a => bind position.eval_renames fun b =>
        assignItem pos a b v

theorem Run.Renames.matching? (subject : Value) (clauses : List Clause) :
    Run.Renames r (Run.matching? subject clauses)
      (Run.matching? subject (Clause.renamedAll r clauses)) := by
  induction clauses with
  | nil => exact pure none
  | cons clause rest again =>
      obtain ⟨pos, test?, body⟩ := clause
      cases test? with
      | none => exact bind again fun n? => pure _
      | some test =>
          refine bind test.eval_renames fun v => ?_
          split
          · exact pure _
          · exact bind again fun n? => pure _

theorem Run.Renames.entry? (subject : Value) (clauses : List Clause) :
    Run.Renames r (Clause.entry? subject clauses)
      (Clause.entry? subject (Clause.renamedAll r clauses)) := by
  refine bind (matching? subject clauses) fun n? => ?_
  cases n? with
  | some n => exact pure _
  | none =>
      rw [Clause.findDefault_renamed]
      exact pure _

mutual

theorem Stmt.exec_renames (fuel : Nat) : ∀ s : Stmt,
    Run.Renames r (s.exec fuel) ((s.renamed r).exec fuel)
  | .declare pos kind text none => by
      rw [Stmt.renamed, Stmt.exec, Stmt.exec]
      refine .bind (.note _) fun _ => .bind (.pure Value.undefined) fun v => ?_
      exact .bind (.declare pos ⟨text, v, kind = .const⟩) fun _ => .pure Signal.normal
  | .declare pos kind text (some e) => by
      rw [Stmt.renamed, Stmt.exec, Stmt.exec]
      refine .bind (.note _) fun _ => .bind e.eval_renames fun v => ?_
      exact .bind (.declare pos ⟨text, v, kind = .const⟩) fun _ => .pure Signal.normal
  | .assign pos target value => by
      rw [Stmt.renamed, Stmt.exec, Stmt.exec]
      exact .bind (.note _) fun _ => .bind value.eval_renames fun v =>
        .bind (.assign v target) fun _ => .pure Signal.normal
  | .expr pos value => by
      rw [Stmt.renamed, Stmt.exec, Stmt.exec]
      exact .bind (.note _) fun _ => .bind value.eval_renames fun v => .bind (.last v) fun _ =>
        .pure Signal.normal
  | .block pos body => by
      rw [Stmt.renamed, Stmt.exec, Stmt.exec]
      exact .bind (.note _) fun _ => (execAll_renames fuel body).inScope
  | .if pos test yes none => by
      rw [Stmt.renamed, Stmt.exec, Stmt.exec]
      refine .bind (.note _) fun _ => .bind test.eval_renames fun v => ?_
      split
      · exact (yes.exec_renames fuel).branch yes
      · exact .pure Signal.normal
  | .if pos test yes (some other) => by
      rw [Stmt.renamed, Stmt.exec, Stmt.exec]
      refine .bind (.note _) fun _ => .bind test.eval_renames fun v => ?_
      split
      · exact (yes.exec_renames fuel).branch yes
      · exact (other.exec_renames fuel).branch other
  | .while pos test body => by
      rw [Stmt.renamed, Stmt.exec, Stmt.exec]
      have turns := Run.Renames.loop pos test.eval_renames
        ((body.exec_renames fuel).branch body) fuel 0
      exact .bind (.note _) fun _ => .bind turns fun _ => .bind (.note _) fun _ =>
        .pure Signal.normal
  | .switch pos subject clauses => by
      rw [Stmt.renamed, Stmt.exec, Stmt.exec]
      refine .bind (.note _) fun _ => .bind subject.eval_renames fun v =>
        .bind (Run.Renames.entry? v clauses) fun n? => ?_
      cases n? with
      | none => exact .pure Signal.normal
      | some n =>
          refine .bind (execFrom_renames fuel clauses n).inScope fun signal => ?_
          cases signal <;> exact .pure _
  | .break _ => by
      rw [Stmt.renamed, Stmt.exec]
      exact .bind (.note _) fun _ => .pure _
  | .continue _ => by
      rw [Stmt.renamed, Stmt.exec]
      exact .bind (.note _) fun _ => .pure _

theorem Stmt.execAll_renames (fuel : Nat) : ∀ body : List Stmt,
    Run.Renames r (Stmt.execAll fuel body) (Stmt.execAll fuel (Stmt.renamedAll r body))
  | [] => .pure Signal.normal
  | s :: rest => by
      rw [Stmt.renamedAll, Stmt.execAll, Stmt.execAll]
      refine .bind (s.exec_renames fuel) fun signal => ?_
      cases signal with
      | normal => exact execAll_renames fuel rest
      | «break» | «continue» => exact .pure _

theorem Stmt.execFrom_renames (fuel : Nat) : ∀ (clauses : List Clause) (n : Nat),
    Run.Renames r (Stmt.execFrom fuel n clauses)
      (Stmt.execFrom fuel n (Clause.renamedAll r clauses))
  | [], _ => .pure Signal.normal
  | .mk _ _ body :: rest, n + 1 => by
      rw [Clause.renamedAll, Stmt.execFrom, Stmt.execFrom]
      exact execFrom_renames fuel rest n
  | .mk _ _ body :: rest, 0 => by
      rw [Clause.renamedAll, Stmt.execFrom, Stmt.execFrom]
      refine .bind (execAll_renames fuel body) fun signal => ?_
      cases signal with
      | normal => exact execFrom_renames fuel rest 0
      | «break» | «continue» => exact .pure _

end

theorem Program.run_renames (fuel : Nat) (p : Program) :
    Run.Renames r (p.run fuel) ((p.renamed r).run fuel) := by
  induction p with
  | nil => exact .pure ()
  | cons s rest again =>
      exact .bind (.last .undefined) fun _ => .bind (s.exec_renames fuel) fun _ => again

end Trees

/-- The texts are the same but for what stands between two quotes. -/
def Requoted (name name' text text' : String) : Prop :=
  ∃ before after, text = before ++ "'" ++ name ++ "'" ++ after ∧
    text' = before ++ "'" ++ name' ++ "'" ++ after

structure Report.Renames (r : Renaming) (report report' : Report) : Prop where
  label : report'.label = report.label
  pos : report'.pos = report.pos
  message : report'.message = report.message ∨
    ∃ name, Requoted name (r name) report.message report'.message

theorem Requoted.closing {start before : String} (opens : start = before ++ "'")
    (name name' : String) :
    Requoted name name' (start ++ name ++ "'") (start ++ name' ++ "'") := by
  refine ⟨before, "", ?_, ?_⟩
  · rw [opens, String.append_empty]
  · rw [opens, String.append_empty]

theorem Fault.message_renamed (r : Renaming) (cause : Fault) :
    (cause.renamed r).message = cause.message ∨
      ∃ name, Requoted name (r name) cause.message (cause.renamed r).message := by
  have closing (start before name : String) (opens : start = before ++ "'") :
      ∃ other, Requoted other (r other) (start ++ name ++ "'") (start ++ r name ++ "'") :=
    ⟨name, .closing opens name (r name)⟩
  cases cause with
  | unbound name =>
      have opening (name : String) :
          "'" ++ name ++ "' is not defined" = "" ++ "'" ++ name ++ "'" ++ " is not defined" := by
        simp only [String.append_assoc, String.reduceAppend]
      exact .inr ⟨name, "", " is not defined", opening name, opening (r name)⟩
  | unboundTarget name =>
      exact .inr (closing "Cannot assign to undeclared variable '"
        "Cannot assign to undeclared variable " name (by decide))
  | constant name =>
      exact .inr (closing "Assignment to constant variable '" "Assignment to constant variable "
        name (by decide))
  | library name =>
      exact .inr (closing "Cannot reassign built-in '" "Cannot reassign built-in " name (by decide))
  | redeclared name =>
      exact .inr (closing "Cannot redeclare constant '" "Cannot redeclare constant " name
        (by decide))
  | _ => exact .inl rfl

theorem Stop.report_renamed (r : Renaming) (stop : Stop) :
    stop.report.Renames r (stop.renamed r).report := by
  cases stop with
  | fault cause pos =>
      refine ⟨?_, rfl, cause.message_renamed r⟩
      cases cause <;> rfl
  | cancelled | domain | unfinished => exact ⟨rfl, rfl, .inl rfl⟩

/-- Two runs ended alike, each under its names: with the same lines printed, the same last value and
the same arrays, with the same values and constants bound, and with the same report. -/
structure EndsRenamed (r : Renaming) (ran ran' : Machine × Option Stop) : Prop where
  output : ran'.1.output = ran.1.output
  last : ran'.1.last = ran.1.last
  heap : ran'.1.heap = ran.1.heap
  globals : ran'.1.scopes.globals = ran.1.scopes.globals.map (Binding.renamed r)
  report : Option.Rel (fun stop stop' => stop.report.Renames r stop'.report) ran.2 ran'.2

theorem outcome_renamed (r : Renaming) (result : EStateM.Result Stop Machine Unit) :
    EndsRenamed r (Machine.outcome result) (Machine.outcome (Run.renamed r result)) := by
  cases result with
  | ok _ m => exact ⟨rfl, rfl, rfl, m.scopes.globals_renamed, .none⟩
  | error stop m => exact ⟨rfl, rfl, rfl, m.scopes.globals_renamed, .some (stop.report_renamed r)⟩

/-- Other names cannot be told from what a program does. -/
theorem Machine.runProgram_renamed (r : Renaming) (m : Machine) (limit : Int) (fuel : Nat)
    (p : Program) :
    EndsRenamed r ((m.ready limit).runProgramWithin fuel p)
      (((m.renamed r).ready limit).runProgramWithin fuel (p.renamed r)) := by
  have ran := Run.Renames.eq (p.run_renames (r := r) fuel) (m.ready limit)
  have same : (m.renamed r).ready limit = (m.ready limit).renamed r := rfl
  rw [runProgramWithin_eq, runProgramWithin_eq, same, ran]
  exact outcome_renamed r _

/-- `const x = "a"; typeof x; x = x.length;`, whose variable is then named as the member is. -/
theorem runProgram_renamed_member :
    EndsRenamed (.swap "x" "length" rfl rfl)
      (Machine.start.runProgramWithin 1
        [.declare ⟨1, 1⟩ .const "x" (some (.literal ⟨1, 11⟩ (.string "a"))),
          .expr ⟨1, 16⟩ (.unary ⟨1, 16⟩ .typeof (.name ⟨1, 23⟩ "x")),
          .assign ⟨1, 26⟩ (.name ⟨1, 26⟩ "x")
            (.member ⟨1, 31⟩ (.name ⟨1, 30⟩ "x") "length" ⟨1, 32⟩)])
      (Machine.start.runProgramWithin 1
        [.declare ⟨1, 1⟩ .const "length" (some (.literal ⟨1, 11⟩ (.string "a"))),
          .expr ⟨1, 16⟩ (.unary ⟨1, 16⟩ .typeof (.name ⟨1, 23⟩ "length")),
          .assign ⟨1, 26⟩ (.name ⟨1, 26⟩ "length")
            (.member ⟨1, 31⟩ (.name ⟨1, 30⟩ "length") "length" ⟨1, 32⟩)]) :=
  Machine.runProgram_renamed (.swap "x" "length" rfl rfl) .start 0 1
    [.declare ⟨1, 1⟩ .const "x" (some (.literal ⟨1, 11⟩ (.string "a"))),
      .expr ⟨1, 16⟩ (.unary ⟨1, 16⟩ .typeof (.name ⟨1, 23⟩ "x")),
      .assign ⟨1, 26⟩ (.name ⟨1, 26⟩ "x")
        (.member ⟨1, 31⟩ (.name ⟨1, 30⟩ "x") "length" ⟨1, 32⟩)]

end Script
