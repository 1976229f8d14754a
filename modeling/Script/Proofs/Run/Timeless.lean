import Script.Proofs.Run.Steps

/-!
Runs that take no turns. Expressions and the single steps of statements go the same under every
limit; whatever is run, what was printed and asked for before stays.
-/

namespace Script

def Machine.limited (m : Machine) (limit : Option Nat) : Machine :=
  { m with turns := { m.turns with limit } }

/-- From `m` to `m'` lines are printed and turns asked for, under the same limit. -/
structure Machine.Grows (m m' : Machine) : Prop where
  output : m.output.toList <+: m'.output.toList
  asked : m.turns.asked ≤ m'.turns.asked
  limit : m'.turns.limit = m.turns.limit

namespace Machine.Grows

variable {m m' m'' : Machine}

theorem refl (m : Machine) : m.Grows m := ⟨List.prefix_refl _, Nat.le_refl _, rfl⟩

theorem trans (first : m.Grows m') (second : m'.Grows m'') : m.Grows m'' where
  output := first.output.trans second.output
  asked := Nat.le_trans first.asked second.asked
  limit := second.limit.trans first.limit

theorem of_eq (output : m'.output = m.output) (turns : m'.turns = m.turns) : m.Grows m' where
  output := by
    have same : m.output.toList = m'.output.toList := congrArg Array.toList output.symm
    exact same ▸ List.prefix_refl _
  asked := Nat.le_of_eq (congrArg Turns.asked turns.symm)
  limit := by rw [turns]

end Machine.Grows

namespace Run

variable {α β : Type}

def limited (limit : Option Nat) : EStateM.Result Stop Machine α → EStateM.Result Stop Machine α
  | .ok a m => .ok a (m.limited limit)
  | .error stop m => .error stop (m.limited limit)

def Growing (run : Run α) : Prop := ∀ m : Machine, m.Grows (after (run m))

theorem Growing.bind {run : Run α} {next : α → Run β} (first : Growing run)
    (second : ∀ a, Growing (next a)) : Growing (run >>= next) := by
  intro m
  have grows := first m
  cases ran : run m with
  | ok a m' =>
      rw [ran] at grows
      rw [bind_ok ran]
      exact grows.trans (second a m')
  | error stop m' =>
      rw [ran] at grows
      rw [bind_error ran]
      exact grows

structure Timeless (run : Run α) : Prop where
  grows : Growing run
  blind : ∀ m limit, run (m.limited limit) = limited limit (run m)

namespace Timeless

theorem pure (a : α) : Timeless (Pure.pure a : Run α) := ⟨fun m => .refl m, fun _ _ => rfl⟩

theorem throw (stop : Stop) : Timeless (MonadExcept.throw stop : Run α) :=
  ⟨fun m => .refl m, fun _ _ => rfl⟩

theorem bind {run : Run α} {next : α → Run β} (first : Timeless run)
    (second : ∀ a, Timeless (next a)) : Timeless (run >>= next) where
  grows := first.grows.bind fun a => (second a).grows
  blind := by
    intro m limit
    have other := first.blind m limit
    cases ran : run m with
    | ok a m' =>
        rw [ran] at other
        rw [bind_ok ran, bind_ok other]
        exact (second a).blind m' limit
    | error stop m' =>
        rw [ran] at other
        rw [bind_error ran, bind_error other]
        rfl

theorem get {next : Machine → Run β} (goes : ∀ m, Timeless (next m))
    (same : ∀ m limit, next (m.limited limit) = next m) : Timeless (MonadState.get >>= next) where
  grows := fun m => (goes m).grows m
  blind := by
    intro m limit
    show next (m.limited limit) (m.limited limit) = limited limit (next m m)
    rw [same]
    exact (goes m).blind m limit

theorem ofResult (pos : Pos) (result : Except Fault α) : Timeless (Run.ofResult pos result) := by
  cases result with
  | ok a => exact pure a
  | error cause => exact throw _

theorem ofAnswer (pos : Pos) (answer : Except Refusal α) : Timeless (Run.ofAnswer pos answer) := by
  cases answer with
  | ok a => exact pure a
  | error refusal => cases refusal <;> exact throw _

theorem note (event : Event) : Timeless (Run.note event) :=
  ⟨fun _ => .of_eq rfl rfl, fun _ _ => rfl⟩

theorem print (line : String) : Timeless (Run.print line) where
  grows := by
    intro m
    refine ⟨?_, Nat.le_refl _, rfl⟩
    show m.output.toList <+: (m.output.push line).toList
    rw [Array.toList_push]
    exact List.prefix_append _ _
  blind := fun _ _ => rfl

theorem read (pos : Pos) (name : String) : Timeless (Run.read pos name) := by
  refine get (fun m => ?_) fun _ _ => rfl
  cases m.lookup? name with
  | some v => exact pure v
  | none => exact throw _

theorem alloc (items : List Value) : Timeless (Run.alloc items) :=
  ⟨fun _ => .of_eq rfl rfl, fun _ _ => rfl⟩

theorem call (pos : Pos) (callee : Value) (arguments : List Value) :
    Timeless (Run.call pos callee arguments) := by
  cases callee with
  | function f =>
      refine get (fun m => ?_) fun _ _ => rfl
      apply bind (ofResult pos _)
      intro result
      obtain ⟨v, line?⟩ := result
      cases line? with
      | some line => exact bind (print line) fun _ => pure v
      | none => exact pure v
  | number | string | boolean | undefined | null | array | library => exact throw _

theorem declare (pos : Pos) (b : Binding) : Timeless (Run.declare pos b) where
  grows := by
    intro m
    rw [declare_apply]
    split <;> exact .of_eq rfl rfl
  blind := by
    intro m limit
    have same : (m.limited limit).scopes = m.scopes := rfl
    rw [declare_apply, declare_apply, same]
    cases m.scopes.define b <;> rfl

theorem assignName (pos : Pos) (name : String) (v : Value) :
    Timeless (Run.assignName pos name v) where
  grows := by
    intro m
    rw [assignName_apply]
    split
    · exact .refl m
    · split <;> exact .of_eq rfl rfl
  blind := by
    intro m limit
    have same : (m.limited limit).scopes = m.scopes := rfl
    rw [assignName_apply, assignName_apply, same]
    split
    · rfl
    · cases m.scopes.assign name v <;> rfl

theorem assignItem (pos : Pos) (object index v : Value) :
    Timeless (Run.assignItem pos object index v) := by
  cases object with
  | array ref =>
      refine bind (ofResult pos _) fun n => get (fun m => ?_) fun _ _ => rfl
      dsimp only
      split
      · exact throw _
      · exact ⟨fun _ => .of_eq rfl rfl, fun _ _ => rfl⟩
  | number | string | boolean | undefined | null | function | library => exact throw _

end Timeless

end Run

mutual

theorem Expr.eval_timeless : ∀ e : Expr, Run.Timeless e.eval
  | .literal _ value => .pure value.toValue
  | .name pos text => .read pos text
  | .array _ items => by
      rw [Expr.eval]
      exact .bind (evalAll_timeless items) fun values => .alloc values
  | .binary pos op left right => by
      rw [Expr.eval]
      apply Run.Timeless.bind left.eval_timeless
      intro a
      apply Run.Timeless.bind right.eval_timeless
      intro b
      exact .get (fun m => .ofAnswer pos _) fun _ _ => rfl
  | .logical _ op left right => by
      rw [Expr.eval]
      apply Run.Timeless.bind left.eval_timeless
      intro a
      cases op <;> cases a.isTruthy
      · exact .pure a
      · exact right.eval_timeless
      · exact right.eval_timeless
      · exact .pure a
  | .unary pos op operand => by
      rw [Expr.eval]
      refine .get (fun m => ?_) fun m limit => ?_
      · split
        · exact .pure _
        · exact .bind operand.eval_timeless fun v => .ofResult pos _
      · have same : operand.isUnbound (m.limited limit) = operand.isUnbound m := by
          cases operand <;> rfl
        rw [same]
  | .member pos object text namePos => by
      rw [Expr.eval]
      apply Run.Timeless.bind object.eval_timeless
      intro v
      exact .get (fun m => .ofResult _ _) fun _ _ => rfl
  | .index pos object position => by
      rw [Expr.eval]
      apply Run.Timeless.bind object.eval_timeless
      intro a
      apply Run.Timeless.bind position.eval_timeless
      intro b
      exact .get (fun m => .ofResult pos _) fun _ _ => rfl
  | .call pos callee arguments => by
      rw [Expr.eval]
      apply Run.Timeless.bind callee.eval_timeless
      intro f
      apply Run.Timeless.bind (evalAll_timeless arguments)
      intro values
      exact .call pos f values

theorem Expr.evalAll_timeless : ∀ es : List Expr, Run.Timeless (Expr.evalAll es)
  | [] => .pure []
  | e :: rest => by
      rw [Expr.evalAll]
      exact .bind e.eval_timeless fun v => .bind (evalAll_timeless rest) fun values => .pure _

end

namespace Run.Timeless

theorem assign (v : Value) (target : Target) : Timeless (Run.assign v target) := by
  cases target with
  | name pos text => exact assignName pos text v
  | index pos object position =>
      rw [Run.assign]
      apply bind object.eval_timeless
      intro a
      apply bind position.eval_timeless
      intro b
      exact assignItem pos a b v

theorem matching? (subject : Value) (clauses : List Clause) :
    Timeless (Run.matching? subject clauses) := by
  induction clauses with
  | nil => exact pure none
  | cons c rest again =>
      obtain ⟨pos, test, body⟩ := c
      cases test with
      | none =>
          rw [Run.matching?]
          exact bind again fun n? => pure _
      | some test =>
          rw [Run.matching?]
          apply bind test.eval_timeless
          intro v
          split
          · exact pure _
          · exact bind again fun n? => pure _

theorem entry? (subject : Value) (clauses : List Clause) :
    Timeless (Clause.entry? subject clauses) := by
  apply bind (matching? subject clauses)
  intro n?
  cases n? <;> exact pure _

end Run.Timeless

end Script
