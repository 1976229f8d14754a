import Script.Proofs.Run.Limit
import Script.Proofs.Scope.Course
import Script.Proofs.Tree.Sites

/-!
The scopes of a run. However a statement ends, the scopes that were there are there again, with the
same names and constants in them; only a declaration adds its name to the scope it stands in.
-/

namespace Script

namespace Run

variable {α β : Type} {own : Nat}

def Still (run : Run α) : Prop := ∀ m, (after (run m)).scopes = m.scopes

namespace Still

theorem pure (a : α) : Still (Pure.pure a : Run α) := fun _ => rfl

theorem bind {run : Run α} {next : α → Run β} (first : Still run)
    (second : ∀ a, Still (next a)) : Still (run >>= next) := by
  intro m
  have same := first m
  cases ran : run m with
  | ok a m' =>
      rw [ran] at same
      rw [bind_ok ran]
      exact (second a m').trans same
  | error stop m' =>
      rw [ran] at same
      rw [bind_error ran]
      exact same

theorem eval (e : Expr) : Still e.eval := e.eval_kept (·.scopes) (fun _ _ => rfl) fun _ _ => rfl

theorem note (event : Event) : Still (Run.note event) := fun _ => rfl

theorem assignItem (pos : Pos) (object index v : Value) :
    Still (Run.assignItem pos object index v) := by
  intro m
  cases object with
  | array ref =>
      rw [assignItem_apply]
      split
      · rfl
      · split <;> rfl
  | number | string | boolean | undefined | null | function | library => rfl

theorem poll (pos : Pos) (turns : Nat) : Still (Run.poll pos turns) := by
  intro m
  rw [poll_apply]
  split <;> rfl

theorem begin : Still Run.begin := fun _ => rfl

theorem matching? (subject : Value) (clauses : List Clause) :
    Still (Run.matching? subject clauses) := by
  induction clauses with
  | nil => exact pure none
  | cons c rest again =>
      obtain ⟨pos, test, body⟩ := c
      cases test with
      | none =>
          rw [Run.matching?]
          exact bind again fun n? => pure _
      | some test =>
          rw [Run.matching?]
          apply bind (eval test)
          intro v
          split
          · exact pure _
          · exact bind again fun n? => pure _

theorem entry? (subject : Value) (clauses : List Clause) :
    Still (Clause.entry? subject clauses) := by
  apply bind (matching? subject clauses)
  intro n?
  cases n? <;> exact pure _

end Still

/-- However it ends, the run is back in the scope it began in. -/
def Rounds (own : Nat) (run : Run α) : Prop :=
  ∀ m : Machine, m.scopes.Round own (after (run m)).scopes

theorem Still.rounds {run : Run α} (still : Still run) : Rounds own run := fun m =>
  .of_eq (still m)

namespace Rounds

theorem pure (a : α) : Rounds own (Pure.pure a : Run α) := (Still.pure a).rounds

theorem bind {run : Run α} {next : α → Run β} (first : Rounds own run)
    (second : ∀ a, Rounds own (next a)) : Rounds own (run >>= next) := by
  intro m
  have round := first m
  cases ran : run m with
  | ok a m' =>
      rw [ran] at round
      rw [bind_ok ran]
      exact round.trans (second a m')
  | error stop m' =>
      rw [ran] at round
      rw [bind_error ran]
      exact round

theorem mono {more : Nat} {run : Run α} (rounds : Rounds own run) (le : own ≤ more) :
    Rounds more run := fun m => (rounds m).mono le

theorem inScope {run : Run α} (rounds : Rounds 1 run) : Rounds 0 (Run.inScope run) := by
  intro m
  have round := rounds m.entered
  rw [inScope_apply]
  cases ran : run m.entered with
  | ok a m' =>
      rw [ran] at round
      exact round.leave
  | error stop m' =>
      rw [ran] at round
      exact round.leave

theorem declare (pos : Pos) (b : Binding) : Rounds 1 (Run.declare pos b) := by
  intro m
  rw [declare_apply]
  cases result : m.scopes.define b with
  | error cause => exact .refl m.scopes
  | ok scopes => exact ⟨.define .start (Nat.le_refl _) result, Scopes.depth_define result⟩

theorem assignName (pos : Pos) (name : String) (v : Value) :
    Rounds 0 (Run.assignName pos name v) := by
  intro m
  rw [assignName_apply]
  split
  · exact .refl m.scopes
  · cases result : m.scopes.assign name v with
    | error cause => exact .refl m.scopes
    | ok scopes => exact ⟨.assign .start result, Scopes.depth_assign result⟩

theorem assign (v : Value) (target : Target) : Rounds 0 (Run.assign v target) := by
  cases target with
  | name pos text => exact assignName pos text v
  | index pos object position =>
      rw [Run.assign]
      apply bind (Still.eval object).rounds
      intro a
      apply bind (Still.eval position).rounds
      intro b
      exact (Still.assignItem pos a b v).rounds

end Rounds

end Run

namespace Stmt

/-- In how many of the scopes it stands in a statement declares. -/
def own : Stmt → Nat
  | .declare .. => 1
  | _ => 0

theorem own_le (s : Stmt) : s.own ≤ 1 := by
  cases s <;> simp [own]

theorem own_of_isBlock (s : Stmt) (block : s.isBlock) : s.own = 0 := by
  cases s <;> simp_all [own, isBlock]

end Stmt

namespace Run.Rounds

theorem branch (s : Stmt) {run : Run Signal} (rounds : Rounds s.own run) :
    Rounds 0 (Run.branch s run) := by
  unfold Run.branch
  split
  · next block => exact s.own_of_isBlock block ▸ rounds
  · exact (rounds.mono s.own_le).inScope

theorem loop (pos : Pos) {test : Run Value} {body : Run Signal} (tests : Rounds 0 test)
    (runs : Rounds 0 body) (fuel : Nat) : ∀ turns, Rounds 0 (Run.loop pos test body turns fuel) := by
  induction fuel with
  | zero =>
      intro turns m
      exact .refl m.scopes
  | succ fuel again =>
      intro turns
      rw [Run.loop]
      apply bind tests
      intro v
      split
      · apply bind (Still.poll pos turns).rounds
        intro _
        apply bind Still.begin.rounds
        intro _
        apply bind runs
        intro signal
        cases signal with
        | normal | «continue» => exact again (turns + 1)
        | «break» => exact pure _
      · exact pure _

end Run.Rounds

section Statements

variable {fuel : Nat}

mutual

theorem Stmt.exec_rounds : ∀ s : Stmt, Run.Rounds s.own (s.exec fuel)
  | .declare pos kind text none => by
      rw [Stmt.exec]
      apply Run.Rounds.bind (Run.Still.note _).rounds
      intro _
      apply Run.Rounds.bind (.pure _)
      intro v
      exact .bind (.declare pos _) fun _ => .pure _
  | .declare pos kind text (some e) => by
      rw [Stmt.exec]
      apply Run.Rounds.bind (Run.Still.note _).rounds
      intro _
      apply Run.Rounds.bind (Run.Still.eval e).rounds
      intro v
      exact .bind (.declare pos _) fun _ => .pure _
  | .assign pos target value => by
      rw [Stmt.exec]
      apply Run.Rounds.bind (Run.Still.note _).rounds
      intro _
      apply Run.Rounds.bind (Run.Still.eval value).rounds
      intro v
      exact .bind (.assign v target) fun _ => .pure _
  | .expr pos value => by
      rw [Stmt.exec]
      apply Run.Rounds.bind (Run.Still.note _).rounds
      intro _
      apply Run.Rounds.bind (Run.Still.eval value).rounds
      intro v
      exact Run.Still.rounds fun _ => rfl
  | .block pos body => by
      rw [Stmt.exec]
      apply Run.Rounds.bind (Run.Still.note _).rounds
      intro _
      exact (execAll_rounds body).inScope
  | .if pos test yes none => by
      rw [Stmt.exec]
      apply Run.Rounds.bind (Run.Still.note _).rounds
      intro _
      apply Run.Rounds.bind (Run.Still.eval test).rounds
      intro v
      split
      · exact .branch yes yes.exec_rounds
      · exact .pure _
  | .if pos test yes (some other) => by
      rw [Stmt.exec]
      apply Run.Rounds.bind (Run.Still.note _).rounds
      intro _
      apply Run.Rounds.bind (Run.Still.eval test).rounds
      intro v
      split
      · exact .branch yes yes.exec_rounds
      · exact .branch other other.exec_rounds
  | .while pos test body => by
      rw [Stmt.exec]
      apply Run.Rounds.bind (Run.Still.note _).rounds
      intro _
      apply Run.Rounds.bind (.loop pos (Run.Still.eval test).rounds (.branch body body.exec_rounds) fuel 0)
      intro turns
      exact .bind (Run.Still.note _).rounds fun _ => .pure _
  | .switch pos subject clauses => by
      rw [Stmt.exec]
      apply Run.Rounds.bind (Run.Still.note _).rounds
      intro _
      apply Run.Rounds.bind (Run.Still.eval subject).rounds
      intro v
      apply Run.Rounds.bind (Run.Still.entry? v clauses).rounds
      intro n?
      cases n? with
      | none => exact .pure _
      | some n =>
          apply Run.Rounds.bind (execFrom_rounds clauses n).inScope
          intro signal
          cases signal <;> exact .pure _
  | .break _ => by
      rw [Stmt.exec]
      exact .bind (Run.Still.note _).rounds fun _ => .pure _
  | .continue _ => by
      rw [Stmt.exec]
      exact .bind (Run.Still.note _).rounds fun _ => .pure _

theorem Stmt.execAll_rounds : ∀ body : List Stmt, Run.Rounds 1 (Stmt.execAll fuel body)
  | [] => .pure _
  | s :: rest => by
      rw [Stmt.execAll]
      apply Run.Rounds.bind (s.exec_rounds.mono s.own_le)
      intro signal
      cases signal with
      | normal => exact execAll_rounds rest
      | «break» | «continue» => exact .pure _

theorem Stmt.execFrom_rounds : ∀ (clauses : List Clause) (n : Nat),
    Run.Rounds 1 (Stmt.execFrom fuel n clauses)
  | [], _ => .pure _
  | .mk _ _ body :: rest, n + 1 => by
      rw [Stmt.execFrom]
      exact execFrom_rounds rest n
  | .mk _ _ body :: rest, 0 => by
      rw [Stmt.execFrom]
      apply Run.Rounds.bind (execAll_rounds body)
      intro signal
      cases signal with
      | normal => exact execFrom_rounds rest 0
      | «break» | «continue» => exact .pure _

end

theorem Stmt.exec_declare_scopes (pos : Pos) (kind : DeclKind) (name : String)
    (value? : Option Expr) (m : Machine) :
    Meets (m.scopes.Gains name (kind = .const) ·.scopes) (fun _ m' => m'.scopes = m.scopes)
      ((Stmt.declare pos kind name value?).exec fuel m) := by
  have declared (v : Value) {m' : Machine} (same : m'.scopes = m.scopes) :
      Meets (m.scopes.Gains name (kind = .const) ·.scopes) (fun _ m' => m'.scopes = m.scopes)
        ((do
          Run.declare pos ⟨name, v, kind = .const⟩
          return .normal : Run Signal) m') := by
    refine .bind ?_ fun _ _ _ gains => gains
    rw [Run.declare_apply, same]
    cases result : m.scopes.define ⟨name, v, kind = .const⟩ with
    | error cause => exact same
    | ok scopes =>
        obtain ⟨free, rfl⟩ := Scopes.define_eq_ok result
        exact ⟨rfl, Scope.gains_bind free⟩
  rw [Stmt.exec]
  cases value? with
  | none => exact declared .undefined rfl
  | some e =>
      let event := Event.statement pos.line "VarDecl"
      let noted : Machine := { m with trace := m.trace.push event }
      have found : Meets (·.scopes = m.scopes) (fun _ m' => m'.scopes = m.scopes) (e.eval noted) :=
        e.eval_keeps (·.scopes) (fun _ _ => rfl) (fun _ _ => rfl) noted
      show Meets _ _ ((e.eval >>= _) noted)
      exact found.bind fun v m' _ same => declared v same

theorem Stmt.exec_scopes (s : Stmt) (fuel : Nat) (m : Machine) :
    match s, s.exec fuel m with
    | .declare _ kind name _, .ok _ m' => m.scopes.Gains name (kind = .const) m'.scopes
    | _, result => m.scopes.Alike (Run.after result).scopes := by
  have round : m.scopes.Round s.own (Run.after (s.exec fuel m)).scopes := s.exec_rounds m
  cases s with
  | declare pos kind name value? =>
      have outcome : Meets _ _ ((Stmt.declare pos kind name value?).exec fuel m) :=
        Stmt.exec_declare_scopes pos kind name value? m
      cases ran : (Stmt.declare pos kind name value?).exec fuel m with
      | ok signal m' =>
          rw [ran] at outcome
          exact outcome
      | error stop m' =>
          rw [ran] at outcome
          exact (Scopes.Round.of_eq outcome).alike
  | assign | expr | block | «if» | «while» | switch | «break» | «continue» =>
      exact Scopes.Round.alike round

theorem Stmt.exec_binds (s : Stmt) (fuel : Nat) (m : Machine) :
    Meets (fun m' => ∀ name, m'.scopes.current.binds name =
      (name ∈ s.declared || m.scopes.current.binds name)) (fun _ _ => True) (s.exec fuel m) := by
  have outcome := s.exec_scopes fuel m
  cases ran : s.exec fuel m with
  | error stop m' => trivial
  | ok signal m' =>
      intro name
      rw [ran] at outcome
      cases s with
      | declare pos kind text value? =>
          rw [outcome.current.binds name]
          simp [Stmt.declared]
      | assign | expr | block | «if» | «while» | switch | «break» | «continue» =>
          have alike : m.scopes.Alike m'.scopes := outcome
          rw [alike.current.binds name]
          simp [Stmt.declared]

end Statements

theorem Program.run_rounds (fuel : Nat) (p : Program) : Run.Rounds 1 (p.run fuel) := by
  induction p with
  | nil => exact .pure ()
  | cons s rest again =>
      rw [Program.run]
      apply Run.Rounds.bind (Run.Still.rounds fun _ => rfl)
      intro _
      exact .bind (s.exec_rounds.mono s.own_le) fun _ => again

theorem Program.run_binds (fuel : Nat) (p : Program) (m : Machine) :
    Meets (fun m' => ∀ name, m'.scopes.current.binds name =
      (name ∈ p.declared || m.scopes.current.binds name)) (fun _ _ => True) (p.run fuel m) := by
  induction p generalizing m with
  | nil =>
      intro name
      simp [declared]
  | cons s rest again =>
      rw [Program.run]
      have first := s.exec_binds fuel { m with last := .undefined }
      show Meets _ _ ((s.exec fuel >>= fun _ => Program.run fuel rest) { m with last := .undefined })
      apply first.bind
      intro signal m₁ _ binds
      have others := again m₁
      cases ran : Program.run fuel rest m₁ with
      | error stop m' => trivial
      | ok _ m' =>
          rw [ran] at others
          intro name
          rw [others name, binds name]
          simp [declared, Bool.or_left_comm, Bool.or_assoc]

namespace Machine

theorem run_outermost (fuel : Nat) (p : Program) {m : Machine} (outermost : m.scopes.outer = []) :
    (Run.after (p.run fuel m)).scopes.outer = [] := by
  have depth := (p.run_rounds fuel m).depth
  have deep : (Run.after (p.run fuel m)).scopes.outer.length = m.scopes.outer.length :=
    Nat.succ.inj depth
  rw [outermost] at deep
  exact List.length_eq_zero_iff.mp deep

theorem runProgramWithin_fst (fuel : Nat) (m : Machine) (p : Program) :
    (m.runProgramWithin fuel p).1 = Run.after (p.run fuel m) := by
  rw [runProgramWithin_eq]
  cases p.run fuel m <;> rfl

theorem runSource_outermost {m : Machine} (outermost : m.scopes.outer = []) (source : String) :
    (m.runSource source).1.scopes.outer = [] := by
  rw [runSource, runSourceWithin_eq]
  cases Program.read source with
  | error problem => exact outermost
  | ok p =>
      rw [runProgramWithin_fst]
      exact run_outermost _ p outermost

theorem runSources_outermost (limit : Int) {m : Machine} (outermost : m.scopes.outer = [])
    (sources : List String) : ∀ step ∈ m.runSources limit sources, step.1.scopes.outer = [] := by
  induction sources generalizing m with
  | nil =>
      intro step member
      rw [runSources] at member
      exact absurd member List.not_mem_nil
  | cons source rest again =>
      have ready : (m.ready limit).scopes.outer = [] := outermost
      have kept := runSource_outermost ready source
      intro step member
      rw [runSources, List.mem_cons] at member
      rcases member with rfl | later
      · exact kept
      · exact again kept step later

end Machine

/-- Statements leave the scopes as they are, but for the name of a declaration. So a program of a
session adds the names of its own declarations, and whatever stops it, the next one begins in the
outermost scope. -/
theorem scopes_restored :
    (∀ (s : Stmt) (fuel : Nat) (m : Machine),
      match s, s.exec fuel m with
      | .declare _ kind name _, .ok _ m' => m.scopes.Gains name (kind = .const) m'.scopes
      | _, result => m.scopes.Alike (Run.after result).scopes) ∧
    ∀ m : Machine, m.scopes.outer = [] →
      (∀ (p : Program) (fuel : Nat),
        match p.run fuel m with
        | .ok _ m' => m'.scopes.outer = [] ∧ ∀ name, m'.scopes.current.binds name =
            (name ∈ p.declared || m.scopes.current.binds name)
        | .error _ m' => m'.scopes.outer = []) ∧
      ∀ (limit : Int) (sources : List String),
        ∀ step ∈ m.runSources limit sources, step.1.scopes.outer = [] := by
  refine ⟨Stmt.exec_scopes, fun m outermost => ⟨fun p fuel => ?_, fun limit sources => ?_⟩⟩
  · have outer := Machine.run_outermost fuel p outermost
    have binds := p.run_binds fuel m
    cases ran : p.run fuel m with
    | ok _ m' =>
        rw [ran] at outer binds
        exact ⟨outer, binds⟩
    | error stop m' =>
        rw [ran] at outer
        exact outer
  · exact Machine.runSources_outermost limit outermost sources

/-- `const a = 1; { var b; a = 2; }` -/
def failingBlock : Program :=
  [.declare ⟨1, 1⟩ .const "a" (some (.literal ⟨1, 11⟩ (.number 1))),
    .block ⟨1, 14⟩ [.declare ⟨1, 16⟩ .var "b" none,
      .assign ⟨1, 23⟩ (.name ⟨1, 23⟩ "a") (.literal ⟨1, 27⟩ (.number 2))]]

theorem scopes_restored_failingBlock :
    Machine.start.scopes.outer = [] ∧
      (match failingBlock.run 1 Machine.start with
        | .ok _ _ => False
        | .error _ m' => m'.scopes.outer = []) ∧
      ∀ step ∈ Machine.start.runSources 0 ["const a = 1; { var b; a = 2; }", "b"],
        step.1.scopes.outer = [] :=
  have kept := scopes_restored.2 Machine.start rfl
  ⟨rfl, kept.1 failingBlock 1, kept.2 0 _⟩

end Script
