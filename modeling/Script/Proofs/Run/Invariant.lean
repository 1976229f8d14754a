import Script.Proofs.Run.Causes
import Script.Proofs.Run.Steps
import Script.Proofs.Tree.Parts

/-!
Invariants of runs. What each step keeps, a whole run keeps: `I` holds of a machine as long as it
goes on and `P` of one that has stopped. The expressions and statements that are run come from a
tree, of which `part` and `stands` say what is known.
-/

namespace Script

/-- A result with a machine that goes on as `I` says or has stopped as `P` says. -/
def Meets {α : Type} (I : Machine → Prop) (P : Stop → Machine → Prop) :
    EStateM.Result Stop Machine α → Prop
  | .ok _ m => I m
  | .error stop m => P stop m

section Meets

variable {α β : Type} {I : Machine → Prop} {P : Stop → Machine → Prop} {m : Machine}

theorem Meets.imp {J : Machine → Prop} {result : EStateM.Result Stop Machine α}
    (meets : Meets J P result) (imp : ∀ m, J m → I m) : Meets I P result := by
  cases result with
  | ok a m => exact imp m meets
  | error stop m => exact meets

theorem Meets.after {result : EStateM.Result Stop Machine α} (meets : Meets I (fun _ => I) result) :
    I (Run.after result) := by
  cases result <;> exact meets

theorem Meets.bind {J : Machine → Prop} {run : Run α} {next : α → Run β}
    (first : Meets J P (run m))
    (second : ∀ a m', run m = .ok a m' → J m' → Meets I P (next a m')) :
    Meets I P ((run >>= next) m) := by
  cases ran : run m with
  | ok a m' =>
      rw [ran] at first
      rw [Run.bind_ok ran]
      exact second a m' ran first
  | error stop m' =>
      rw [ran] at first
      rw [Run.bind_error ran]
      exact first

theorem Meets.ofResult {pos : Pos} {result : Except Fault α} (holds : I m)
    (fault : ∀ cause, result = .error cause → P (.fault cause pos) m) :
    Meets I P (Run.ofResult pos result m) := by
  cases result with
  | ok a => exact holds
  | error cause => exact fault cause rfl

theorem Meets.inScope {run : Run α} (enters : I { m with scopes := m.scopes.enter })
    (leaves : ∀ {m : Machine}, I m → I { m with scopes := m.scopes.leave })
    (stops : ∀ {stop : Stop} {m : Machine}, P stop m → P stop { m with scopes := m.scopes.leave })
    (inner : ∀ m, I m → Meets I P (run m)) : Meets I P (Run.inScope run m) := by
  have ran := inner _ enters
  unfold Run.inScope
  split
  · next known =>
      rw [known] at ran
      exact leaves ran
  · next known =>
      rw [known] at ran
      exact stops ran

theorem Meets.loop {pos : Pos} {test : Run Value} {body : Run Signal}
    (unfinished : ∀ {m}, I m → P .unfinished m)
    (polls : ∀ {m} turns, I m → Meets I P (Run.poll pos turns m))
    (begins : ∀ {m}, I m → I { m with turns := m.turns.begin })
    (tests : ∀ m, I m → Meets I P (test m)) (runs : ∀ m, I m → Meets I P (body m))
    (fuel : Nat) : ∀ {m} turns, I m → Meets I P (Run.loop pos test body turns fuel m) := by
  induction fuel with
  | zero =>
      intro m turns holds
      exact unfinished holds
  | succ fuel again =>
      intro m turns holds
      rw [Run.loop]
      apply Meets.bind (tests m holds)
      intro v m' _ holds
      split
      · apply Meets.bind (polls turns holds)
        intro _ m' _ holds
        have begun : Meets I P (Run.begin m') := begins holds
        apply Meets.bind begun
        intro _ m' _ holds
        apply Meets.bind (runs _ holds)
        intro signal m' _ holds
        split
        · exact holds
        · exact again (turns + 1) holds
      · exact holds

end Meets

/-- The steps of expressions keep `I` or stop as `P` says. -/
structure EvalSteps (I : Machine → Prop) (P : Stop → Machine → Prop) (part : Expr → Prop) :
    Prop where
  operand : ∀ {e inner}, part e → e.asksName = false → inner ∈ e.operands → part inner
  print : ∀ {pos callee arguments m} line, part (.call pos callee arguments) → I m →
    I { m with output := m.output.push line }
  alloc : ∀ {m} items, I m → I { m with heap := (m.heap.alloc items).2 }
  fault : ∀ {e pos m cause}, part e → pos ∈ e.places → cause.Bound ∨ e.isUnbound m → I m →
    P (.fault cause pos) m
  domain : ∀ {pos left right before between after x y}, part (.binary pos .rem left right) →
    left.eval before = .ok (.number x) between → right.eval between = .ok (.number y) after →
    x.isInf → (y == 0) = false → y.isNaN = false → I after → P .domain after

section Evaluation

variable {I : Machine → Prop} {P : Stop → Machine → Prop} {part : Expr → Prop}

theorem Run.read_meets (steps : EvalSteps I P part) {pos : Pos} {name : String}
    (known : part (.name pos name)) {m : Machine} (holds : I m) :
    Meets I P (Run.read pos name m) := by
  rw [read_apply]
  cases found : m.lookup? name with
  | some v => exact holds
  | none =>
      have unbound : (Expr.name pos name).isUnbound m := by rw [Expr.isUnbound, found]; rfl
      exact steps.fault known List.mem_cons_self (.inr unbound) holds

theorem Run.call_meets (steps : EvalSteps I P part) {pos : Pos} {e : Expr} {es : List Expr}
    (known : part (.call pos e es)) (callee : Value) (arguments : List Value) {m : Machine}
    (holds : I m) : Meets I P (Run.call pos callee arguments m) := by
  have fault {cause : Fault} (bound : cause.Bound) : P (.fault cause pos) m :=
    steps.fault known List.mem_cons_self (.inl bound) holds
  cases callee with
  | function f =>
      show Meets I P ((Run.ofResult pos (f.call m.heap arguments) >>= _) m)
      apply Meets.bind (.ofResult holds fun cause fails =>
        fault (Builtin.call_ofOperation fails).bound)
      intro result m' _ holds
      obtain ⟨v, line?⟩ := result
      cases line? with
      | some line => exact steps.print line known holds
      | none => exact holds
  | number | string | boolean | undefined | null | array | library => exact fault (.of_ne rfl)

theorem BinaryOp.onNumbers_domain {op : BinaryOp} {x y : Number}
    (refused : op.onNumbers x y = .error .domain) :
    op = .rem ∧ x.isInf ∧ (y == 0) = false ∧ y.isNaN = false := by
  cases op with
  | rem =>
      simp only [onNumbers] at refused
      split at refused
      · cases refused
      · next nonzero =>
          split at refused
          · next undefined =>
              simp only [Bool.and_eq_true, Bool.not_eq_true'] at undefined
              exact ⟨rfl, undefined.1, by simpa using nonzero, undefined.2⟩
          · cases refused
  | div =>
      simp only [onNumbers] at refused
      split at refused <;> cases refused
  | add | sub | mul | lt | le | gt | ge | eq | ne | strictEq | strictNe => cases refused

theorem BinaryOp.apply_domain {h : Heap} {op : BinaryOp} {left right : Value}
    (refused : op.apply h left right = .error .domain) :
    op = .rem ∧ ∃ x y, left = .number x ∧ right = .number y ∧ x.isInf ∧ (y == 0) = false ∧
      y.isNaN = false := by
  cases op with
  | rem | sub | mul | div =>
      simp only [apply, arithmetic] at refused
      split at refused
      · obtain ⟨same, infinite, nonzero, known⟩ := onNumbers_domain refused
        exact ⟨same, _, _, rfl, rfl, infinite, nonzero, known⟩
      · cases refused
  | add =>
      simp only [apply, plus] at refused
      split at refused
      · cases refused
      · cases refused
      · cases (onNumbers_domain refused).1
      · cases refused
  | lt | le | gt | ge =>
      simp only [apply, comparison] at refused
      split at refused
      · cases (onNumbers_domain refused).1
      · cases refused
      · cases refused
  | eq | ne | strictEq | strictNe => cases refused

theorem Expr.eval_asked {pos : Pos} {op : UnaryOp} {operand : Expr} {m : Machine}
    (asks : (Expr.unary pos op operand).asksName)
    (given : ¬ (decide (op = .typeof) && operand.isUnbound m) = true) (holds : I m) :
    Meets I P (operand.eval m) := by
  unfold asksName at asks
  split at asks
  · next same =>
      cases same
      rw [Expr.eval, Run.read_apply]
      cases found : m.lookup? _ with
      | some v => exact holds
      | none => simp [isUnbound, found] at given
  · cases asks

mutual

theorem Expr.eval_meets (steps : EvalSteps I P part) : ∀ (e : Expr), part e →
    ∀ {m : Machine}, I m → Meets I P (e.eval m)
  | .literal .., _, _, holds => holds
  | .name _ _, known, _, holds => Run.read_meets steps known holds
  | .array _ items, known, m, holds => by
      rw [Expr.eval]
      apply Meets.bind (evalAll_meets steps items (fun e inner => steps.operand known rfl inner) holds)
      intro values m' _ holds
      exact steps.alloc values.toArray holds
  | .binary pos op left right, known, m, holds => by
      rw [Expr.eval]
      have first := left.eval_meets steps (steps.operand known rfl (by simp [Expr.operands])) holds
      apply Meets.bind first
      intro a m₁ before holds
      have second := right.eval_meets steps (steps.operand known rfl (by simp [Expr.operands])) holds
      apply Meets.bind second
      intro b m₂ after holds
      show Meets I P (Run.ofAnswer pos (op.apply m₂.heap a b) m₂)
      cases result : op.apply m₂.heap a b with
      | ok v => exact holds
      | error refusal =>
          cases refusal with
          | fault cause =>
              have bound := (BinaryOp.apply_ofOperation result).bound
              exact steps.fault known List.mem_cons_self (.inl bound) holds
          | domain =>
              obtain ⟨rfl, x, y, rfl, rfl, infinite, nonzero, number⟩ :=
                BinaryOp.apply_domain result
              exact steps.domain known before after infinite nonzero number holds
  | .logical _ op left right, known, m, holds => by
      rw [Expr.eval]
      have first := left.eval_meets steps (steps.operand known rfl (by simp [Expr.operands])) holds
      apply Meets.bind first
      intro a m₁ _ holds
      have second := right.eval_meets steps (steps.operand known rfl (by simp [Expr.operands])) holds
      cases op <;> cases a.isTruthy
      · exact holds
      · exact second
      · exact second
      · exact holds
  | .unary pos op operand, known, m, holds => by
      rw [Expr.eval]
      apply Meets.bind (show Meets I P ((get : Run Machine) m) from holds)
      intro m₁ m₂ got holds
      cases got
      split
      · exact holds
      · next given =>
          have first : Meets I P (operand.eval m) := by
            cases asks : (Expr.unary pos op operand).asksName with
            | false =>
                have inside := steps.operand known asks List.mem_cons_self
                exact operand.eval_meets steps inside holds
            | true => exact Expr.eval_asked asks given holds
          apply Meets.bind first
          intro v m₁ _ holds
          refine .ofResult holds fun cause fails => ?_
          exact steps.fault known List.mem_cons_self
            (.inl (UnaryOp.apply_ofOperation fails).bound) holds
  | .member pos object text namePos, known, m, holds => by
      rw [Expr.eval]
      have first := object.eval_meets steps (steps.operand known rfl (by simp [Expr.operands])) holds
      apply Meets.bind first
      intro v m₁ _ holds
      refine .ofResult holds fun cause fails => ?_
      refine steps.fault known ?_ (.inl (Value.member_ofOperation fails).bound) holds
      cases v <;> simp [Expr.places]
  | .index pos object position, known, m, holds => by
      rw [Expr.eval]
      have first := object.eval_meets steps (steps.operand known rfl (by simp [Expr.operands])) holds
      apply Meets.bind first
      intro a m₁ _ holds
      have second := position.eval_meets steps (steps.operand known rfl (by simp [Expr.operands])) holds
      apply Meets.bind second
      intro b m₂ _ holds
      refine .ofResult holds fun cause fails => ?_
      exact steps.fault known List.mem_cons_self (.inl (Value.item_ofOperation fails).bound) holds
  | .call pos callee arguments, known, m, holds => by
      rw [Expr.eval]
      have first := callee.eval_meets steps (steps.operand known rfl List.mem_cons_self) holds
      apply Meets.bind first
      intro f m₁ _ holds
      have second := evalAll_meets steps arguments
        (fun e inner => steps.operand known rfl (List.mem_cons_of_mem callee inner)) holds
      apply Meets.bind second
      intro values m₂ _ holds
      exact Run.call_meets steps known f values holds

theorem Expr.evalAll_meets (steps : EvalSteps I P part) : ∀ (es : List Expr), (∀ e ∈ es, part e) →
    ∀ {m : Machine}, I m → Meets I P (Expr.evalAll es m)
  | [], _, _, holds => holds
  | e :: rest, known, m, holds => by
      rw [Expr.evalAll]
      apply Meets.bind (e.eval_meets steps (known e List.mem_cons_self) holds)
      intro v m₁ _ holds
      have others := evalAll_meets steps rest
        (fun e later => known e (List.mem_cons_of_mem _ later)) holds
      exact .bind others fun values m₂ _ holds => holds

end

section Kept

variable {γ : Type} (field : Machine → γ)
  (print : ∀ m line, field { m with output := m.output.push line } = field m)
  (alloc : ∀ m items, field { m with heap := (m.heap.alloc items).2 } = field m)

include print alloc

theorem Expr.eval_keeps (e : Expr) (m : Machine) :
    Meets (field · = field m) (fun _ m' => field m' = field m) (e.eval m) := by
  have steps : EvalSteps (field · = field m) (fun _ m' => field m' = field m) (fun _ => True) :=
    { operand := fun _ _ _ => trivial
      print := fun line _ same => (print _ line).trans same
      alloc := fun items same => (alloc _ items).trans same
      fault := fun _ _ _ same => same
      domain := fun _ _ _ _ _ _ same => same }
  exact e.eval_meets steps trivial rfl

theorem Expr.eval_kept (e : Expr) (m : Machine) : field (Run.after (e.eval m)) = field m :=
  (e.eval_keeps field print alloc m).after

end Kept

end Evaluation

/-- The steps of statements keep `I` or stop as `P` says. How a scope is entered and left, and how a
loop goes on, is left to each invariant. -/
structure ExecSteps (fuel : Nat) (I : Machine → Prop) (P : Stop → Machine → Prop)
    (part : Expr → Prop) (stands : Stmt → Prop) : Prop extends EvalSteps I P part where
  uses : ∀ {s e}, stands s → e ∈ s.operands → part e
  inner : ∀ {s child}, stands s → child ∈ s.inner → stands child
  refuse : ∀ {s pos m} cause, stands s → pos ∈ s.places → I m → P (.fault cause pos) m
  note : ∀ {m} event, I m → I { m with trace := m.trace.push event }
  last : ∀ {m} v, I m → I { m with last := v }
  define : ∀ {m b scopes}, m.scopes.define b = .ok scopes → I m → I { m with scopes }
  assign : ∀ {m name v scopes}, m.scopes.assign name v = .ok scopes → I m → I { m with scopes }
  write : ∀ {m ref n} v, n ≤ (m.heap.items ref).size → I m →
    I { m with heap := m.heap.write ref n v }
  scope : ∀ {run : Run Signal} {m}, (∀ m, I m → Meets I P (run m)) → I m →
    Meets I P (Run.inScope run m)
  loop : ∀ {pos test body}, stands (.while pos test body) →
    (∀ m, I m → Meets I P (test.eval m)) →
    (∀ m, I m → Meets I P (Run.branch body (body.exec fuel) m)) →
    ∀ {m}, I m → Meets I P (Run.loop pos test.eval (Run.branch body (body.exec fuel)) 0 fuel m)

section Execution

variable {fuel : Nat} {I : Machine → Prop} {P : Stop → Machine → Prop} {part : Expr → Prop}
  {stands : Stmt → Prop} {m : Machine}

theorem Run.note_meets (steps : ExecSteps fuel I P part stands) (event : Event) (holds : I m) :
    Meets I P (Run.note event m) :=
  steps.note event holds

theorem Run.declare_meets (steps : ExecSteps fuel I P part stands) {s : Stmt} (known : stands s)
    {pos : Pos} (place : pos ∈ s.places) (b : Binding) (holds : I m) :
    Meets I P (Run.declare pos b m) := by
  rw [Run.declare_apply]
  split
  · next result => exact steps.define result holds
  · exact steps.refuse _ known place holds

theorem Run.assignName_meets (steps : ExecSteps fuel I P part stands) {s : Stmt} (known : stands s)
    {pos : Pos} (place : pos ∈ s.places) (name : String) (v : Value) (holds : I m) :
    Meets I P (Run.assignName pos name v m) := by
  rw [Run.assignName_apply]
  split
  · exact steps.refuse _ known place holds
  · split
    · next result => exact steps.assign result holds
    · exact steps.refuse _ known place holds

theorem Run.assignItem_meets (steps : ExecSteps fuel I P part stands) {s : Stmt} (known : stands s)
    {pos : Pos} (place : pos ∈ s.places) (object index v : Value) (holds : I m) :
    Meets I P (Run.assignItem pos object index v m) := by
  cases object with
  | array ref =>
      rw [Run.assignItem_apply]
      split
      · exact steps.refuse _ known place holds
      · split
        · exact steps.refuse _ known place holds
        · next within => exact steps.write v (Nat.le_of_not_lt within) holds
  | number | string | boolean | undefined | null | function | library =>
      exact steps.refuse _ known place holds

theorem Run.assign_meets (steps : ExecSteps fuel I P part stands) {pos : Pos} {target : Target}
    {value : Expr} (known : stands (.assign pos target value)) (v : Value) (holds : I m) :
    Meets I P (Run.assign v target m) := by
  have place : target.pos ∈ (Stmt.assign pos target value).places := by simp [Stmt.places]
  cases target with
  | name at₁ text => exact Run.assignName_meets steps known place text v holds
  | index at₁ object position =>
      have objects := steps.uses known (e := object) (by simp [Stmt.operands, Target.operands])
      have positions := steps.uses known (e := position) (by simp [Stmt.operands, Target.operands])
      rw [Run.assign]
      apply Meets.bind (object.eval_meets steps.toEvalSteps objects holds)
      intro a m₁ _ holds
      apply Meets.bind (position.eval_meets steps.toEvalSteps positions holds)
      intro b m₂ _ holds
      exact Run.assignItem_meets steps known place a b v holds

theorem Run.matching?_meets (steps : EvalSteps I P part) (subject : Value)
    (clauses : List Clause) : (∀ c ∈ clauses, ∀ test ∈ c.test, part test) → ∀ {m}, I m →
    Meets I P (Run.matching? subject clauses m) := by
  induction clauses with
  | nil =>
      intro _ m holds
      exact holds
  | cons c rest again =>
      intro known m holds
      have later := fun c inner => known c (List.mem_cons_of_mem _ inner)
      obtain ⟨pos, test, body⟩ := c
      cases test with
      | none =>
          rw [Run.matching?]
          exact .bind (again later holds) fun _ _ _ holds => holds
      | some test =>
          have tested := known _ List.mem_cons_self test rfl
          rw [Run.matching?]
          apply Meets.bind (test.eval_meets steps tested holds)
          intro v m₁ _ holds
          split
          · exact holds
          · exact .bind (again later holds) fun _ _ _ holds => holds

theorem Run.entry?_meets (steps : EvalSteps I P part) (subject : Value) (clauses : List Clause)
    (known : ∀ c ∈ clauses, ∀ test ∈ c.test, part test) (holds : I m) :
    Meets I P (Clause.entry? subject clauses m) := by
  unfold Clause.entry?
  apply Meets.bind (Run.matching?_meets steps subject clauses known holds)
  intro n? m₁ _ holds
  cases n? <;> exact holds

theorem Run.branch_meets (steps : ExecSteps fuel I P part stands) (s : Stmt) {run : Run Signal}
    (runs : ∀ m, I m → Meets I P (run m)) (m : Machine) (holds : I m) :
    Meets I P (Run.branch s run m) := by
  unfold Run.branch
  split
  · exact runs m holds
  · exact steps.scope runs holds

mutual

theorem Stmt.exec_meets (steps : ExecSteps fuel I P part stands) : ∀ (s : Stmt), stands s →
    ∀ m, I m → Meets I P (s.exec fuel m)
  | .declare pos kind text value?, known, m, holds => by
      rw [Stmt.exec]
      apply Meets.bind (Run.note_meets steps _ holds)
      intro _ m₁ _ holds
      have declared (v : Value) {m : Machine} (holds : I m) : Meets I P ((do
          Run.declare pos ⟨text, v, kind = .const⟩
          return .normal : Run Signal) m) :=
        .bind (Run.declare_meets steps known List.mem_cons_self _ holds) fun _ _ _ holds => holds
      cases value? with
      | none => exact declared .undefined holds
      | some e =>
          have first := e.eval_meets steps.toEvalSteps (steps.uses known List.mem_cons_self) holds
          exact .bind first fun v m₂ _ holds => declared v holds
  | .assign pos target value, known, m, holds => by
      rw [Stmt.exec]
      apply Meets.bind (Run.note_meets steps _ holds)
      intro _ m₁ _ holds
      have first := value.eval_meets steps.toEvalSteps (steps.uses known List.mem_cons_self) holds
      apply Meets.bind first
      intro v m₂ _ holds
      exact .bind (Run.assign_meets steps known v holds) fun _ _ _ holds => holds
  | .expr pos value, known, m, holds => by
      rw [Stmt.exec]
      apply Meets.bind (Run.note_meets steps _ holds)
      intro _ m₁ _ holds
      have first := value.eval_meets steps.toEvalSteps (steps.uses known List.mem_cons_self) holds
      apply Meets.bind first
      intro v m₂ _ holds
      exact steps.last v holds
  | .block pos body, known, m, holds => by
      rw [Stmt.exec]
      apply Meets.bind (Run.note_meets steps _ holds)
      intro _ m₁ _ holds
      exact steps.scope (execAll_meets steps body fun s inner => steps.inner known inner) holds
  | .if pos test yes none, known, m, holds => by
      rw [Stmt.exec]
      apply Meets.bind (Run.note_meets steps _ holds)
      intro _ m₁ _ holds
      have first := test.eval_meets steps.toEvalSteps (steps.uses known List.mem_cons_self) holds
      apply Meets.bind first
      intro v m₂ _ holds
      split
      · have runs := yes.exec_meets steps (steps.inner known List.mem_cons_self)
        exact Run.branch_meets steps yes runs m₂ holds
      · exact holds
  | .if pos test yes (some other), known, m, holds => by
      rw [Stmt.exec]
      apply Meets.bind (Run.note_meets steps _ holds)
      intro _ m₁ _ holds
      have first := test.eval_meets steps.toEvalSteps (steps.uses known List.mem_cons_self) holds
      apply Meets.bind first
      intro v m₂ _ holds
      split
      · have runs := yes.exec_meets steps (steps.inner known List.mem_cons_self)
        exact Run.branch_meets steps yes runs m₂ holds
      · have runs := other.exec_meets steps (steps.inner known (by simp [Stmt.inner]))
        exact Run.branch_meets steps other runs m₂ holds
  | .while pos test body, known, m, holds => by
      rw [Stmt.exec]
      apply Meets.bind (Run.note_meets steps _ holds)
      intro _ m₁ _ holds
      have tests (m : Machine) (holds : I m) :=
        test.eval_meets steps.toEvalSteps (steps.uses known List.mem_cons_self) holds
      have runs := body.exec_meets steps (steps.inner known List.mem_cons_self)
      apply Meets.bind (steps.loop known tests (Run.branch_meets steps body runs) holds)
      intro turns m₂ _ holds
      exact steps.note _ holds
  | .switch pos subject clauses, known, m, holds => by
      rw [Stmt.exec]
      apply Meets.bind (Run.note_meets steps _ holds)
      intro _ m₁ _ holds
      have first := subject.eval_meets steps.toEvalSteps (steps.uses known List.mem_cons_self) holds
      apply Meets.bind first
      intro v m₂ _ holds
      have tests : ∀ c ∈ clauses, ∀ test ∈ c.test, part test := by
        intro c inner test tested
        apply steps.uses known
        apply List.mem_cons_of_mem
        exact List.mem_filterMap.mpr ⟨c, inner, tested⟩
      apply Meets.bind (Run.entry?_meets steps.toEvalSteps v clauses tests holds)
      intro n? m₃ _ holds
      cases n? with
      | none => exact holds
      | some n =>
          have runs := execFrom_meets steps clauses
            (fun c inner s within => steps.inner known (List.mem_flatMap.mpr ⟨c, inner, within⟩)) n
          apply Meets.bind (steps.scope runs holds)
          intro signal m₄ _ holds
          cases signal <;> exact holds
  | .break _, _, m, holds => steps.note _ holds
  | .continue _, _, m, holds => steps.note _ holds

theorem Stmt.execAll_meets (steps : ExecSteps fuel I P part stands) : ∀ (body : List Stmt),
    (∀ s ∈ body, stands s) → ∀ m, I m → Meets I P (Stmt.execAll fuel body m)
  | [], _, _, holds => holds
  | s :: rest, known, m, holds => by
      rw [Stmt.execAll]
      apply Meets.bind (s.exec_meets steps (known s List.mem_cons_self) m holds)
      intro signal m₁ _ holds
      cases signal with
      | normal =>
          exact execAll_meets steps rest (fun s later => known s (List.mem_cons_of_mem _ later)) m₁
            holds
      | «break» | «continue» => exact holds

theorem Stmt.execFrom_meets (steps : ExecSteps fuel I P part stands) :
    ∀ (clauses : List Clause), (∀ c ∈ clauses, ∀ s ∈ c.body, stands s) →
      ∀ n m, I m → Meets I P (Stmt.execFrom fuel n clauses m)
  | [], _, _, _, holds => holds
  | .mk _ _ body :: rest, known, n, m, holds => by
      have later := fun c inner => known c (List.mem_cons_of_mem _ inner)
      cases n with
      | succ n =>
          rw [Stmt.execFrom]
          exact execFrom_meets steps rest later n m holds
      | zero =>
          rw [Stmt.execFrom]
          apply Meets.bind (execAll_meets steps body (known _ List.mem_cons_self) m holds)
          intro signal m₁ _ holds
          cases signal with
          | normal => exact execFrom_meets steps rest later 0 m₁ holds
          | «break» | «continue» => exact holds

end

theorem Program.run_meets (steps : ExecSteps fuel I P part stands) (p : Program) :
    (∀ s ∈ p, stands s) → ∀ {m}, I m → Meets I P (p.run fuel m) := by
  induction p with
  | nil =>
      intro _ m holds
      exact holds
  | cons s rest again =>
      intro known m holds
      rw [Program.run]
      have emptied : Meets I P ((modify fun m => { m with last := .undefined } : Run Unit) m) :=
        steps.last .undefined holds
      apply Meets.bind emptied
      intro _ m₁ _ holds
      apply Meets.bind (s.exec_meets steps (known s List.mem_cons_self) m₁ holds)
      intro _ m₂ _ holds
      exact again (fun s later => known s (List.mem_cons_of_mem _ later)) holds

end Execution

end Script
