import Mathlib.Data.List.Chain
import Script.Proofs.Run.Scoping

/-!
The machines that a run goes through: where it enters a scope, where it is about to leave it, and
where each statement ends. Between two of them the scopes make one move or none.
-/

namespace Script

/-- The machines that a run goes through between the one it begins with and the one it ends with. -/
abbrev History := Machine → List Machine

namespace History

variable {α : Type}

def still : History := fun _ => []

def past (run : Run α) (next : α → History) : History := fun m =>
  match run m with
  | .ok a m' => next a m'
  | .error _ _ => []

def through (run : Run α) (history : History) (next : α → History) : History := fun m =>
  history m ++ past run (fun a m' => m' :: next a m') m

def inScope (run : Run α) (history : History) : History := fun m =>
  m.entered :: (history m.entered ++ [Run.after (run m.entered)])

def branch (s : Stmt) (run : Run Signal) (history : History) : History :=
  if s.isBlock then history else inScope run history

def loop (pos : Pos) (test : Run Value) (body : Run Signal) (history : History) (turns : Nat) :
    Nat → History
  | 0 => still
  | fuel + 1 =>
    past test fun v =>
      if v.isTruthy then
        past (Run.poll pos turns) fun _ =>
          past Run.begin fun _ =>
            through body history fun signal =>
              match signal with
              | .break => still
              | _ => loop pos test body history (turns + 1) fuel
      else still

end History

namespace Stmt

mutual

def history (fuel : Nat) (s : Stmt) : History :=
  History.past (Run.note (.statement s.pos.line s.type)) fun _ =>
    match s with
    | .block _ body => History.inScope (execAll fuel body) (historyAll fuel body)
    | .if _ test yes no =>
      History.past test.eval fun v =>
        if v.isTruthy then History.branch yes (yes.exec fuel) (yes.history fuel)
        else
          match no with
          | some other => History.branch other (other.exec fuel) (other.history fuel)
          | none => History.still
    | .while pos test body =>
      History.loop pos test.eval (Run.branch body (body.exec fuel))
        (History.branch body (body.exec fuel) (body.history fuel)) 0 fuel
    | .switch _ subject clauses =>
      History.past subject.eval fun v =>
        History.past (Clause.entry? v clauses) fun n? =>
          match n? with
          | some n => History.inScope (execFrom fuel n clauses) (historyFrom fuel n clauses)
          | none => History.still
    | .declare .. | .assign .. | .expr .. | .break _ | .continue _ => History.still

def historyAll (fuel : Nat) : List Stmt → History
  | [] => History.still
  | s :: rest =>
    History.through (s.exec fuel) (s.history fuel) fun signal =>
      match signal with
      | .normal => historyAll fuel rest
      | _ => History.still

def historyFrom (fuel : Nat) (n : Nat) : List Clause → History
  | [] => History.still
  | .mk _ _ body :: rest =>
    match n with
    | n + 1 => historyFrom fuel n rest
    | 0 =>
      History.through (execAll fuel body) (historyAll fuel body) fun signal =>
        match signal with
        | .normal => historyFrom fuel 0 rest
        | _ => History.still

end

end Stmt

def Program.history (fuel : Nat) : Program → History
  | [] => History.still
  | s :: rest =>
    History.past (modify fun m => { m with last := .undefined }) fun _ =>
      History.through (s.exec fuel) (s.history fuel) fun _ => history fuel rest

def Machine.sourceHistory (source : String) : History := fun m =>
  match Program.read source with
  | .ok p => p.history m.turns.fuel m
  | .error _ => []

/-- What a session goes through after the machine it begins with. -/
def Machine.history (limit : Int) (m : Machine) : List String → List Machine
  | [] => []
  | source :: rest =>
    let ready := m.ready limit
    let step := ready.runSource source
    sourceHistory source ready ++ step.1 :: step.1.history limit rest

def Machine.Moves (m m' : Machine) : Prop := m.scopes.Move m'.scopes

theorem Machine.Moves.of_eq {m m' : Machine} (same : m'.scopes = m.scopes) : m.Moves m' := by
  rw [Moves, same]
  exact .stay

theorem Machine.moves_last (before : List Machine) {m m' : Machine}
    (moves : (before ++ [m]).IsChain Moves) (same : m'.scopes = m.scopes) :
    (before ++ [m']).IsChain Moves := by
  rw [List.isChain_append] at moves ⊢
  refine ⟨moves.1, .singleton m', fun last isLast next isNext => ?_⟩
  cases Option.some.inj isNext
  have move : last.Moves m := moves.2.2 last isLast m rfl
  rw [Moves] at move ⊢
  rw [same]
  exact move

theorem Machine.moves_first {m m' : Machine} {rest : List Machine}
    (moves : (m :: rest).IsChain Moves) (same : m'.scopes = m.scopes) :
    (m' :: rest).IsChain Moves := by
  refine List.IsChain.imp_head ?_ moves
  intro next move
  rw [Moves] at move ⊢
  rw [same]
  exact move

namespace Run

variable {α β : Type}

/-- From its beginning to its end, a run goes through the machines move by move. -/
def Tells (run : Run α) (history : History) : Prop :=
  ∀ m, (m :: (history m ++ [after (run m)])).IsChain Machine.Moves

namespace Tells

variable {run : Run α} {history : History} {next : α → Run β} {told : α → History}

theorem still (moves : ∀ m : Machine, m.Moves (after (run m))) : Tells run .still := fun m =>
  List.isChain_pair.mpr (moves m)

theorem of_still (same : Still run) : Tells run .still := still fun m => .of_eq (same m)

theorem past (same : Still run) (tells : ∀ a, Tells (next a) (told a)) :
    Tells (run >>= next) (.past run told) := by
  intro m
  have same := same m
  unfold History.past
  cases ran : run m with
  | ok a m' =>
      rw [ran] at same
      rw [bind_ok ran]
      exact Machine.moves_first (tells a m') same.symm
  | error stop m' =>
      rw [ran] at same
      rw [bind_error ran]
      exact List.isChain_pair.mpr (.of_eq same)

theorem through (tells : Tells run history) (others : ∀ a, Tells (next a) (told a)) :
    Tells (run >>= next) (.through run history told) := by
  intro m
  have first := tells m
  unfold History.through History.past
  cases ran : run m with
  | ok a m' =>
      rw [ran] at first
      rw [bind_ok ran, List.append_assoc]
      exact List.isChain_cons_split.mpr ⟨first, others a m'⟩
  | error stop m' =>
      rw [ran] at first
      rw [bind_error ran, List.append_nil]
      exact first

theorem bind_still (tells : Tells run history) (same : ∀ a, Still (next a)) :
    Tells (run >>= next) history := by
  intro m
  refine Machine.moves_last (m :: history m) (tells m) ?_
  cases ran : run m with
  | ok a m' =>
      rw [bind_ok ran]
      exact same a m'
  | error stop m' =>
      rw [bind_error ran]
      rfl

theorem still_bind (same : Still run) (tells : ∀ a, Tells (next a) .still) :
    Tells (run >>= next) .still := by
  have told := past same tells
  intro m
  have none : History.past run (fun _ => .still) m = [] := by
    unfold History.past
    cases run m <;> rfl
  have moves := told m
  rw [none] at moves
  exact moves

theorem inScope (rounds : Rounds 1 run) (tells : Tells run history) :
    Tells (Run.inScope run) (.inScope run history) := by
  intro m
  have round : m.scopes.enter.Round 1 (after (run m.entered)).scopes := rounds m.entered
  have left : (after (Run.inScope run m)).scopes = (after (run m.entered)).scopes.leave := by
    rw [inScope_apply]
    cases run m.entered <;> rfl
  have leaves : (after (run m.entered)).Moves (after (Run.inScope run m)) := by
    rw [Machine.Moves, left]
    exact .leave round.inside
  have told : (m :: (History.inScope run history m ++ [after (Run.inScope run m)])) =
      m :: m.entered ::
        (history m.entered ++ after (run m.entered) :: [after (Run.inScope run m)]) := by
    simp [History.inScope]
  have enters : m.Moves m.entered := .enter
  rw [told]
  refine .cons_cons enters ?_
  exact List.isChain_cons_split.mpr ⟨tells m.entered, List.isChain_pair.mpr leaves⟩

theorem branch (s : Stmt) {run : Run Signal} (rounds : Rounds s.own run)
    (tells : Tells run history) : Tells (Run.branch s run) (.branch s run history) := by
  unfold Run.branch History.branch
  split
  · exact tells
  · exact inScope (rounds.mono s.own_le) tells

theorem loop (pos : Pos) {test : Run Value} {body : Run Signal} (same : Still test)
    (tells : Tells body history) (fuel : Nat) :
    ∀ turns, Tells (Run.loop pos test body turns fuel) (.loop pos test body history turns fuel) := by
  induction fuel with
  | zero =>
      intro turns
      exact of_still fun _ => rfl
  | succ fuel again =>
      intro turns
      rw [Run.loop, History.loop]
      apply past same
      intro v
      split
      · apply past (Still.poll pos turns)
        intro _
        apply past Still.begin
        intro _
        apply through tells
        intro signal
        cases signal with
        | normal | «continue» => exact again (turns + 1)
        | «break» => exact of_still (.pure _)
      · exact of_still (.pure _)

end Tells

end Run

section Statements

variable {fuel : Nat}

theorem Run.Tells.declare (pos : Pos) (b : Binding) : Run.Tells (Run.declare pos b) .still := by
  apply Run.Tells.still
  intro m
  rw [Run.declare_apply]
  cases result : m.scopes.define b with
  | error cause => exact .of_eq rfl
  | ok scopes => exact .define result

theorem Run.Tells.assign (v : Value) (target : Target) :
    Run.Tells (Run.assign v target) .still := by
  cases target with
  | index pos object position =>
      rw [Run.assign]
      apply Run.Tells.of_still
      apply Run.Still.bind (.eval object)
      intro a
      apply Run.Still.bind (.eval position)
      intro b
      exact .assignItem pos a b v
  | name pos text =>
      apply Run.Tells.still
      intro m
      rw [Run.assign, Run.assignName_apply]
      split
      · exact .of_eq rfl
      · cases result : m.scopes.assign text v with
        | error cause => exact .of_eq rfl
        | ok scopes => exact .assign result

mutual

theorem Stmt.exec_tells : ∀ s : Stmt, Run.Tells (s.exec fuel) (s.history fuel)
  | .declare pos kind text none => by
      rw [Stmt.exec, Stmt.history]
      apply Run.Tells.past (.note _)
      intro _
      apply Run.Tells.still_bind (.pure _)
      intro v
      exact .bind_still (.declare pos _) fun _ => .pure _
  | .declare pos kind text (some e) => by
      rw [Stmt.exec, Stmt.history]
      apply Run.Tells.past (.note _)
      intro _
      apply Run.Tells.still_bind (.eval e)
      intro v
      exact .bind_still (.declare pos _) fun _ => .pure _
  | .assign pos target value => by
      rw [Stmt.exec, Stmt.history]
      apply Run.Tells.past (.note _)
      intro _
      apply Run.Tells.still_bind (.eval value)
      intro v
      exact .bind_still (.assign v target) fun _ => .pure _
  | .expr pos value => by
      rw [Stmt.exec, Stmt.history]
      apply Run.Tells.past (.note _)
      intro _
      apply Run.Tells.still_bind (.eval value)
      intro v
      exact .of_still fun _ => rfl
  | .block pos body => by
      rw [Stmt.exec, Stmt.history]
      apply Run.Tells.past (.note _)
      intro _
      exact .inScope (execAll_rounds body) (execAll_tells body)
  | .if pos test yes none => by
      rw [Stmt.exec, Stmt.history]
      apply Run.Tells.past (.note _)
      intro _
      apply Run.Tells.past (.eval test)
      intro v
      split
      · exact .branch yes yes.exec_rounds yes.exec_tells
      · exact .of_still (.pure _)
  | .if pos test yes (some other) => by
      rw [Stmt.exec, Stmt.history]
      apply Run.Tells.past (.note _)
      intro _
      apply Run.Tells.past (.eval test)
      intro v
      split
      · exact .branch yes yes.exec_rounds yes.exec_tells
      · exact .branch other other.exec_rounds other.exec_tells
  | .while pos test body => by
      rw [Stmt.exec, Stmt.history]
      apply Run.Tells.past (.note _)
      intro _
      have turn := Run.Tells.branch body body.exec_rounds body.exec_tells
      apply Run.Tells.bind_still (.loop pos (.eval test) turn fuel 0)
      intro turns
      exact .bind (.note _) fun _ => .pure _
  | .switch pos subject clauses => by
      rw [Stmt.exec, Stmt.history]
      apply Run.Tells.past (.note _)
      intro _
      apply Run.Tells.past (.eval subject)
      intro v
      apply Run.Tells.past (Run.Still.entry? v clauses)
      intro n?
      cases n? with
      | none => exact .of_still (.pure _)
      | some n =>
          apply Run.Tells.bind_still (.inScope (execFrom_rounds clauses n) (execFrom_tells clauses n))
          intro signal
          cases signal <;> exact .pure _
  | .break _ => by
      rw [Stmt.exec, Stmt.history]
      exact .past (.note _) fun _ => .of_still (.pure _)
  | .continue _ => by
      rw [Stmt.exec, Stmt.history]
      exact .past (.note _) fun _ => .of_still (.pure _)

theorem Stmt.execAll_tells : ∀ body : List Stmt,
    Run.Tells (Stmt.execAll fuel body) (Stmt.historyAll fuel body)
  | [] => .of_still (.pure _)
  | s :: rest => by
      rw [Stmt.execAll, Stmt.historyAll]
      apply Run.Tells.through s.exec_tells
      intro signal
      cases signal with
      | normal => exact execAll_tells rest
      | «break» | «continue» => exact .of_still (.pure _)

theorem Stmt.execFrom_tells : ∀ (clauses : List Clause) (n : Nat),
    Run.Tells (Stmt.execFrom fuel n clauses) (Stmt.historyFrom fuel n clauses)
  | [], _ => .of_still (.pure _)
  | .mk _ _ body :: rest, n + 1 => by
      rw [Stmt.execFrom, Stmt.historyFrom]
      exact execFrom_tells rest n
  | .mk _ _ body :: rest, 0 => by
      rw [Stmt.execFrom, Stmt.historyFrom]
      apply Run.Tells.through (execAll_tells body)
      intro signal
      cases signal with
      | normal => exact execFrom_tells rest 0
      | «break» | «continue» => exact .of_still (.pure _)

end

end Statements

theorem Program.run_tells (fuel : Nat) (p : Program) :
    Run.Tells (p.run fuel) (p.history fuel) := by
  induction p with
  | nil => exact .of_still (.pure _)
  | cons s rest again =>
      rw [Program.run, Program.history]
      apply Run.Tells.past (fun _ => rfl)
      intro _
      exact .through s.exec_tells fun _ => again

namespace Machine

theorem runSource_tells (m : Machine) (source : String) :
    (m :: (sourceHistory source m ++ [(m.runSource source).1])).IsChain Moves := by
  rw [runSource, runSourceWithin_eq, sourceHistory]
  cases Program.read source with
  | error problem => exact List.isChain_pair.mpr (.of_eq rfl)
  | ok p =>
      have told := p.run_tells m.turns.fuel m
      rw [← runProgramWithin_fst] at told
      exact told

theorem history_moves (limit : Int) (sources : List String) :
    ∀ m : Machine, (m :: m.history limit sources).IsChain Moves := by
  induction sources with
  | nil =>
      intro m
      exact .singleton m
  | cons source rest again =>
      intro m
      have inside := (m.ready limit).runSource_tells source
      have others := again ((m.ready limit).runSource source).1
      exact moves_first (List.isChain_cons_split.mpr ⟨inside, others⟩) rfl

theorem runSources_history (limit : Int) (sources : List String) :
    ∀ m : Machine, ∀ step ∈ m.runSources limit sources, step.1 ∈ m.history limit sources := by
  induction sources with
  | nil =>
      intro m step member
      rw [runSources] at member
      exact absurd member List.not_mem_nil
  | cons source rest again =>
      intro m step member
      rw [runSources, List.mem_cons] at member
      rw [history, List.mem_append, List.mem_cons]
      rcases member with rfl | later
      · exact .inr (.inl rfl)
      · exact .inr (.inr (again _ step later))

end Machine

end Script
