import Script.Proofs.Run.Invariant
import Script.Proofs.Run.Steps

/-!
The values of expression statements. A run is told as the values of those that it carries out, one
after another, and the last of them is the value that it leaves.
-/

namespace Script

/-- The values of the expression statements that a run carries out. -/
abbrev Yield := Machine → List Value

namespace Yield

variable {α : Type}

def none : Yield := fun _ => []

def past (run : Run α) (next : α → Yield) : Yield := fun m =>
  match run m with
  | .ok a m' => next a m'
  | .error _ _ => []

def through (run : Run α) (first : Yield) (next : α → Yield) : Yield := fun m =>
  first m ++ past run next m

def inScope (inside : Yield) : Yield := fun m => inside m.entered

def branch (s : Stmt) (inside : Yield) : Yield := if s.isBlock then inside else inScope inside

def loop (pos : Pos) (test : Run Value) (body : Run Signal) (inside : Yield) (turns : Nat) :
    Nat → Yield
  | 0 => none
  | fuel + 1 =>
    past test fun v =>
      if v.isTruthy then
        past (Run.poll pos turns) fun _ =>
          past Run.begin fun _ =>
            through body inside fun signal =>
              match signal with
              | .break => none
              | _ => loop pos test body inside (turns + 1) fuel
      else none

end Yield

namespace Stmt

mutual

def values (fuel : Nat) (s : Stmt) : Yield :=
  Yield.past (Run.note (.statement s.pos.line s.type)) fun _ =>
    match s with
    | .expr _ value => Yield.past value.eval fun v _ => [v]
    | .block _ body => Yield.inScope (valuesAll fuel body)
    | .if _ test yes no =>
      Yield.past test.eval fun v =>
        if v.isTruthy then Yield.branch yes (yes.values fuel)
        else
          match no with
          | some other => Yield.branch other (other.values fuel)
          | none => Yield.none
    | .while pos test body =>
      Yield.loop pos test.eval (Run.branch body (body.exec fuel))
        (Yield.branch body (body.values fuel)) 0 fuel
    | .switch _ subject clauses =>
      Yield.past subject.eval fun v =>
        Yield.past (Clause.entry? v clauses) fun n? =>
          match n? with
          | some n => Yield.inScope (valuesFrom fuel n clauses)
          | none => Yield.none
    | .declare .. | .assign .. | .break _ | .continue _ => Yield.none

def valuesAll (fuel : Nat) : List Stmt → Yield
  | [] => Yield.none
  | s :: rest =>
    Yield.through (s.exec fuel) (s.values fuel) fun signal =>
      match signal with
      | .normal => valuesAll fuel rest
      | _ => Yield.none

def valuesFrom (fuel : Nat) (n : Nat) : List Clause → Yield
  | [] => Yield.none
  | .mk _ _ body :: rest =>
    match n with
    | n + 1 => valuesFrom fuel n rest
    | 0 =>
      Yield.through (execAll fuel body) (valuesAll fuel body) fun signal =>
        match signal with
        | .normal => valuesFrom fuel 0 rest
        | _ => Yield.none

end

end Stmt

def Program.lastValues (fuel : Nat) : Program → Yield
  | [] => Yield.none
  | [s] => Yield.past (modify fun m => { m with last := .undefined }) fun _ => s.values fuel
  | s :: next :: rest =>
    Yield.past (modify fun m => { m with last := .undefined }) fun _ =>
      Yield.past (s.exec fuel) fun _ => lastValues fuel (next :: rest)

namespace Run

variable {α β : Type}

/-- However it ends, the run leaves the last of its values, or without values the one there was. -/
def Leaves (run : Run α) (yield : Yield) : Prop :=
  ∀ m, (after (run m)).last = (yield m).getLast?.getD m.last

namespace Leaves

variable {run : Run α} {yield first : Yield} {next : α → Run β} {later : α → Yield}

theorem past (same : Leaves run .none) (leaves : ∀ a, Leaves (next a) (later a)) :
    Leaves (run >>= next) (.past run later) := by
  intro m
  have same := same m
  unfold Yield.past
  cases ran : run m with
  | ok a m' =>
      rw [ran] at same
      rw [bind_ok ran, leaves a m']
      exact congrArg _ same
  | error stop m' =>
      rw [ran] at same
      rw [bind_error ran]
      exact same

theorem through (leaves : Leaves run first) (others : ∀ a, Leaves (next a) (later a)) :
    Leaves (run >>= next) (.through run first later) := by
  intro m
  have before := leaves m
  unfold Yield.through Yield.past
  cases ran : run m with
  | ok a m' =>
      rw [ran] at before
      have before : m'.last = (first m).getLast?.getD m.last := before
      rw [bind_ok ran, others a m', before, List.getLast?_append]
      cases (later a m').getLast? <;> rfl
  | error stop m' =>
      rw [ran] at before
      rw [bind_error ran, List.append_nil]
      exact before

theorem none_bind (same : Leaves run .none) (leaves : ∀ a, Leaves (next a) .none) :
    Leaves (run >>= next) .none := by
  intro m
  have whole := past same leaves m
  have nothing : Yield.past run (fun _ => .none) m = [] := by
    unfold Yield.past
    cases run m <;> rfl
  rw [nothing] at whole
  exact whole

theorem bind_none (leaves : Leaves run yield) (same : ∀ a, Leaves (next a) .none) :
    Leaves (run >>= next) yield := by
  intro m
  have before := leaves m
  cases ran : run m with
  | ok a m' =>
      rw [ran] at before
      rw [bind_ok ran]
      exact (same a m').trans before
  | error stop m' =>
      rw [ran] at before
      rw [bind_error ran]
      exact before

theorem pure (a : α) : Leaves (Pure.pure a : Run α) .none := fun _ => rfl

theorem note (event : Event) : Leaves (Run.note event) .none := fun _ => rfl

theorem begin : Leaves Run.begin .none := fun _ => rfl

theorem poll (pos : Pos) (turns : Nat) : Leaves (Run.poll pos turns) .none := by
  intro m
  rw [poll_apply]
  split <;> rfl

theorem eval (e : Expr) : Leaves e.eval .none :=
  e.eval_kept (·.last) (fun _ _ => rfl) fun _ _ => rfl

theorem matching? (subject : Value) (clauses : List Clause) :
    Leaves (Run.matching? subject clauses) .none := by
  induction clauses with
  | nil => exact pure _
  | cons clause rest again =>
      obtain ⟨pos, test?, body⟩ := clause
      cases test? with
      | none => exact none_bind again fun n? => pure _
      | some test =>
          refine none_bind (eval test) fun v => ?_
          split
          · exact pure _
          · exact none_bind again fun n? => pure _

theorem entry? (subject : Value) (clauses : List Clause) :
    Leaves (Clause.entry? subject clauses) .none := by
  refine none_bind (matching? subject clauses) fun n? => ?_
  cases n? <;> exact pure _

theorem declare (pos : Pos) (b : Binding) : Leaves (Run.declare pos b) .none := by
  intro m
  rw [declare_apply]
  split <;> rfl

theorem assign (v : Value) (target : Target) : Leaves (Run.assign v target) .none := by
  cases target with
  | name pos text =>
      intro m
      rw [Run.assign, assignName_apply]
      split
      · rfl
      · split <;> rfl
  | index pos object position =>
      refine none_bind (eval object) fun a => none_bind (eval position) fun b m => ?_
      cases a with
      | array ref =>
          rw [assignItem_apply]
          split
          · rfl
          · split <;> rfl
      | number | string | boolean | undefined | null | function | library => rfl

theorem inScope (leaves : Leaves run yield) : Leaves (Run.inScope run) (.inScope yield) := by
  intro m
  have same := leaves m.entered
  rw [inScope_apply]
  unfold Yield.inScope
  cases ran : run m.entered with
  | ok a m' =>
      rw [ran] at same
      exact same
  | error stop m' =>
      rw [ran] at same
      exact same

theorem branch (s : Stmt) {run : Run Signal} (leaves : Leaves run yield) :
    Leaves (Run.branch s run) (.branch s yield) := by
  unfold Run.branch Yield.branch
  split
  · exact leaves
  · exact leaves.inScope

theorem loop (pos : Pos) {test : Run Value} {body : Run Signal} (same : Leaves test .none)
    (leaves : Leaves body yield) (fuel : Nat) : ∀ turns,
      Leaves (Run.loop pos test body turns fuel) (.loop pos test body yield turns fuel) := by
  induction fuel with
  | zero => exact fun turns m => rfl
  | succ fuel again =>
      intro turns
      rw [Run.loop, Yield.loop]
      refine past same fun v => ?_
      split
      · refine past (poll pos turns) fun _ => past begin fun _ => through leaves fun signal => ?_
        cases signal with
        | normal | «continue» => exact again (turns + 1)
        | «break» => exact pure _
      · exact pure _

end Leaves

end Run

section Statements

variable {fuel : Nat}

mutual

theorem Stmt.exec_leaves : ∀ s : Stmt, Run.Leaves (s.exec fuel) (s.values fuel)
  | .declare pos kind text none => by
      rw [Stmt.exec, Stmt.values]
      exact .past (.note _) fun _ => .none_bind (.pure _) fun v =>
        .none_bind (.declare pos _) fun _ => .pure _
  | .declare pos kind text (some e) => by
      rw [Stmt.exec, Stmt.values]
      exact .past (.note _) fun _ => .none_bind (.eval e) fun v =>
        .none_bind (.declare pos _) fun _ => .pure _
  | .assign pos target value => by
      rw [Stmt.exec, Stmt.values]
      exact .past (.note _) fun _ => .none_bind (.eval value) fun v =>
        .none_bind (.assign v target) fun _ => .pure _
  | .expr pos value => by
      rw [Stmt.exec, Stmt.values]
      exact .past (.note _) fun _ => .past (.eval value) fun v m => rfl
  | .block pos body => by
      rw [Stmt.exec, Stmt.values]
      exact .past (.note _) fun _ => .inScope (execAll_leaves body)
  | .if pos test yes none => by
      rw [Stmt.exec, Stmt.values]
      refine .past (.note _) fun _ => .past (.eval test) fun v => ?_
      split
      · exact .branch yes yes.exec_leaves
      · exact .pure _
  | .if pos test yes (some other) => by
      rw [Stmt.exec, Stmt.values]
      refine .past (.note _) fun _ => .past (.eval test) fun v => ?_
      split
      · exact .branch yes yes.exec_leaves
      · exact .branch other other.exec_leaves
  | .while pos test body => by
      rw [Stmt.exec, Stmt.values]
      have turns := Run.Leaves.loop pos (.eval test) (.branch body body.exec_leaves) fuel 0
      exact .past (.note _) fun _ => .bind_none turns fun _ => .none_bind (.note _) fun _ =>
        .pure _
  | .switch pos subject clauses => by
      rw [Stmt.exec, Stmt.values]
      refine .past (.note _) fun _ => .past (.eval subject) fun v =>
        .past (Run.Leaves.entry? v clauses) fun n? => ?_
      cases n? with
      | none => exact .pure _
      | some n =>
          refine .bind_none (.inScope (execFrom_leaves clauses n)) fun signal => ?_
          cases signal <;> exact .pure _
  | .break _ => by
      rw [Stmt.exec, Stmt.values]
      exact .past (.note _) fun _ => .pure _
  | .continue _ => by
      rw [Stmt.exec, Stmt.values]
      exact .past (.note _) fun _ => .pure _

theorem Stmt.execAll_leaves : ∀ body : List Stmt,
    Run.Leaves (Stmt.execAll fuel body) (Stmt.valuesAll fuel body)
  | [] => .pure _
  | s :: rest => by
      rw [Stmt.execAll, Stmt.valuesAll]
      refine .through s.exec_leaves fun signal => ?_
      cases signal with
      | normal => exact execAll_leaves rest
      | «break» | «continue» => exact .pure _

theorem Stmt.execFrom_leaves : ∀ (clauses : List Clause) (n : Nat),
    Run.Leaves (Stmt.execFrom fuel n clauses) (Stmt.valuesFrom fuel n clauses)
  | [], _ => .pure _
  | .mk _ _ body :: rest, n + 1 => by
      rw [Stmt.execFrom, Stmt.valuesFrom]
      exact execFrom_leaves rest n
  | .mk _ _ body :: rest, 0 => by
      rw [Stmt.execFrom, Stmt.valuesFrom]
      refine .through (execAll_leaves body) fun signal => ?_
      cases signal with
      | normal => exact execFrom_leaves rest 0
      | «break» | «continue» => exact .pure _

end

end Statements

theorem Program.run_last {fuel : Nat} {p : Program} (some : p ≠ []) {m m' : Machine}
    (ran : p.run fuel m = .ok () m') :
    m'.last = (p.lastValues fuel m).getLast?.getD .undefined := by
  induction p generalizing m with
  | nil => exact absurd rfl some
  | cons s rest again =>
      have start : (modify fun m => { m with last := .undefined } : Run PUnit) m =
        .ok () { m with last := .undefined } := rfl
      rw [Program.run, Run.bind_ok start] at ran
      have leaves : Run.Leaves (s.exec fuel) (s.values fuel) := s.exec_leaves
      have leaves := leaves { m with last := .undefined }
      cases first : s.exec fuel { m with last := .undefined } with
      | error stop between =>
          rw [Run.bind_error first] at ran
          cases ran
      | ok signal between =>
          rw [Run.bind_ok first] at ran
          cases rest with
          | nil =>
              cases ran
              rw [first] at leaves
              exact leaves
          | cons next rest =>
              rw [Program.lastValues, Yield.past, start]
              dsimp only
              rw [Yield.past, first]
              exact again (List.cons_ne_nil next rest) ran

end Script
