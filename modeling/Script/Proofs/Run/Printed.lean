import Script.Proofs.Run.History
import Script.Proofs.Run.Truncation

/-!
What is printed stays printed. At every moment of a run, in whatever loops it is and however it
ends, the lines printed so far are the first of those that it prints.
-/

namespace Script

namespace Run

variable {α β : Type}

/-- From each of the machines that the run goes through it goes on to the end by printing more. -/
def Passes (run : Run α) (history : History) : Prop :=
  ∀ m, ∀ between ∈ history m, between.Grows (after (run m))

namespace Passes

variable {run : Run α} {history : History} {next : α → Run β} {told : α → History}

theorem still (run : Run α) : Passes run .still := fun _ _ none => absurd none List.not_mem_nil

theorem past (passes : ∀ a, Passes (next a) (told a)) : Passes (run >>= next) (.past run told) := by
  intro m between member
  unfold History.past at member
  cases ran : run m with
  | ok a m' =>
      rw [ran] at member
      rw [bind_ok ran]
      exact passes a m' between member
  | error stop m' =>
      rw [ran] at member
      cases member

theorem through (passes : Passes run history) (grows : ∀ a, Growing (next a))
    (others : ∀ a, Passes (next a) (told a)) :
    Passes (run >>= next) (.through run history told) := by
  intro m between member
  have first := passes m between
  unfold History.through History.past at member
  cases ran : run m with
  | ok a m' =>
      rw [ran] at member first
      rw [bind_ok ran]
      rcases List.mem_append.mp member with before | after
      · exact (first before).trans (grows a m')
      · rcases List.mem_cons.mp after with rfl | later
        · exact grows a between
        · exact others a m' between later
  | error stop m' =>
      rw [ran, List.append_nil] at member
      rw [ran] at first
      rw [bind_error ran]
      exact first member

theorem bind_grows (passes : Passes run history) (grows : ∀ a, Growing (next a)) :
    Passes (run >>= next) history := by
  intro m between member
  have first := passes m between member
  cases ran : run m with
  | ok a m' =>
      rw [ran] at first
      rw [bind_ok ran]
      exact first.trans (grows a m')
  | error stop m' =>
      rw [ran] at first
      rw [bind_error ran]
      exact first

theorem inScope (grows : Growing run) (passes : Passes run history) :
    Passes (Run.inScope run) (.inScope run history) := by
  intro m between member
  have leaves : (after (run m.entered)).Grows (after (Run.inScope run m)) := by
    rw [inScope_apply]
    cases run m.entered <;> exact .of_eq rfl rfl
  rcases List.mem_cons.mp member with rfl | inside
  · exact (grows m.entered).trans leaves
  · rcases List.mem_append.mp inside with before | last
    · exact (passes m.entered between before).trans leaves
    · rw [List.mem_singleton.mp last]
      exact leaves

theorem branch (s : Stmt) {run : Run Signal} (grows : Growing run) (passes : Passes run history) :
    Passes (Run.branch s run) (.branch s run history) := by
  unfold Run.branch History.branch
  split
  · exact passes
  · exact inScope grows passes

theorem loop (pos : Pos) {test : Run Value} {body : Run Signal} (tests : Growing test)
    (grows : Growing body) (passes : Passes body history) (fuel : Nat) :
    ∀ turns, Passes (Run.loop pos test body turns fuel)
      (.loop pos test body history turns fuel) := by
  induction fuel with
  | zero => exact fun turns => still _
  | succ fuel again =>
      intro turns
      rw [Run.loop, History.loop]
      apply past
      intro v
      split
      · apply past
        intro _
        apply past
        intro _
        refine through passes (fun signal => ?_) fun signal => ?_
        · cases signal with
          | normal | «continue» => exact Growing.loop pos tests grows fuel (turns + 1)
          | «break» => exact fun m => .refl m
        · cases signal with
          | normal | «continue» => exact again (turns + 1)
          | «break» => exact still _
      · exact still _

end Passes

end Run

section Statements

variable {fuel : Nat}

theorem Stmt.exec_growing (s : Stmt) : Run.Growing (s.exec fuel) :=
  (s.exec_follows (.refl none) (Nat.le_refl fuel)).grows

theorem Stmt.execAll_growing (body : List Stmt) : Run.Growing (Stmt.execAll fuel body) :=
  (execAll_follows (.refl none) (Nat.le_refl fuel) body).grows

theorem Stmt.execFrom_growing (clauses : List Clause) (n : Nat) :
    Run.Growing (Stmt.execFrom fuel n clauses) :=
  (execFrom_follows (.refl none) (Nat.le_refl fuel) clauses n).grows

theorem Program.run_growing (p : Program) : Run.Growing (p.run fuel) :=
  (p.run_follows (.refl none) (Nat.le_refl fuel)).grows

mutual

theorem Stmt.exec_passes : ∀ s : Stmt, Run.Passes (s.exec fuel) (s.history fuel)
  | .declare .. | .assign .. | .expr .. | .break _ | .continue _ => by
      rw [Stmt.exec, Stmt.history]
      exact .past fun _ => .still _
  | .block pos body => by
      rw [Stmt.exec, Stmt.history]
      exact .past fun _ => .inScope (execAll_growing body) (execAll_passes body)
  | .if pos test yes none => by
      rw [Stmt.exec, Stmt.history]
      refine .past fun _ => .past fun v => ?_
      split
      · exact .branch yes yes.exec_growing yes.exec_passes
      · exact .still _
  | .if pos test yes (some other) => by
      rw [Stmt.exec, Stmt.history]
      refine .past fun _ => .past fun v => ?_
      split
      · exact .branch yes yes.exec_growing yes.exec_passes
      · exact .branch other other.exec_growing other.exec_passes
  | .while pos test body => by
      rw [Stmt.exec, Stmt.history]
      have turn := Run.Passes.branch body body.exec_growing body.exec_passes
      have grows : Run.Growing (Run.branch body (body.exec fuel)) := by
        unfold Run.branch
        split
        · exact body.exec_growing
        · exact .inScope body.exec_growing
      refine .past fun _ => .bind_grows (.loop pos test.eval_timeless.grows grows turn fuel 0) ?_
      exact fun turns => ((Run.Timeless.note _).bind fun _ => .pure Signal.normal).grows
  | .switch pos subject clauses => by
      rw [Stmt.exec, Stmt.history]
      refine .past fun _ => .past fun v => .past fun n? => ?_
      cases n? with
      | none => exact .still _
      | some n =>
          have inside := Run.Passes.inScope (execFrom_growing clauses n) (execFrom_passes clauses n)
          refine .bind_grows inside fun signal => ?_
          cases signal <;> exact fun m => .refl m

theorem Stmt.execAll_passes : ∀ body : List Stmt,
    Run.Passes (Stmt.execAll fuel body) (Stmt.historyAll fuel body)
  | [] => .still _
  | s :: rest => by
      rw [Stmt.execAll, Stmt.historyAll]
      refine .through s.exec_passes (fun signal => ?_) fun signal => ?_
      · cases signal with
        | normal => exact execAll_growing rest
        | «break» | «continue» => exact fun m => .refl m
      · cases signal with
        | normal => exact execAll_passes rest
        | «break» | «continue» => exact .still _

theorem Stmt.execFrom_passes : ∀ (clauses : List Clause) (n : Nat),
    Run.Passes (Stmt.execFrom fuel n clauses) (Stmt.historyFrom fuel n clauses)
  | [], _ => .still _
  | .mk _ _ body :: rest, n + 1 => by
      rw [Stmt.execFrom, Stmt.historyFrom]
      exact execFrom_passes rest n
  | .mk _ _ body :: rest, 0 => by
      rw [Stmt.execFrom, Stmt.historyFrom]
      refine .through (execAll_passes body) (fun signal => ?_) fun signal => ?_
      · cases signal with
        | normal => exact execFrom_growing rest 0
        | «break» | «continue» => exact fun m => .refl m
      · cases signal with
        | normal => exact execFrom_passes rest 0
        | «break» | «continue» => exact .still _

end

theorem Program.run_passes (p : Program) : Run.Passes (p.run fuel) (p.history fuel) := by
  induction p with
  | nil => exact .still _
  | cons s rest again =>
      rw [Program.run, Program.history]
      exact .past fun _ => .through s.exec_passes (fun _ => run_growing rest) fun _ => again

end Statements

/-- What was printed at any time is what the run prints first. -/
theorem Machine.sourceHistory_passes (m : Machine) (source : String) :
    ∀ between ∈ sourceHistory source m, between.Grows (m.runSource source).1 := by
  intro between member
  rw [runSource, runSourceWithin_eq]
  unfold sourceHistory at member
  cases read : Program.read source with
  | error problem =>
      rw [read] at member
      cases member
  | ok p =>
      rw [read] at member
      have passes := p.run_passes m between member
      rw [← runProgramWithin_fst] at passes
      exact passes

end Script
