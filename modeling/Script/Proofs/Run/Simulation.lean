import Script.Execution
import Script.Proofs.Run.Steps

/-!
One run beside another. Two runs that start on related machines end on related machines, with
related values or for related reasons; this is kept by every way in which runs are put together.
-/

namespace Script

namespace Run

variable {α β γ δ : Type}

inductive Ends (machines : Machine → Machine → Prop) (stops : Stop → Stop → Prop)
    (values : α → β → Prop) :
    EStateM.Result Stop Machine α → EStateM.Result Stop Machine β → Prop
  | ok {a : α} {b : β} {m m' : Machine} (rel : values a b) (after : machines m m') :
      Ends machines stops values (.ok a m) (.ok b m')
  | error {stop stop' : Stop} {m m' : Machine} (rel : stops stop stop') (after : machines m m') :
      Ends machines stops values (.error stop m) (.error stop' m')

/-- On related machines the second run ends as the first. -/
structure Simulates (machines : Machine → Machine → Prop) (stops : Stop → Stop → Prop)
    (values : α → β → Prop) (run : Run α) (run' : Run β) : Prop where
  goes : ∀ {m m'}, machines m m' → Ends machines stops values (run m) (run' m')

namespace Simulates

variable {machines : Machine → Machine → Prop} {stops : Stop → Stop → Prop}
  {values : α → β → Prop} {others : γ → δ → Prop}

theorem pure {a : α} {b : β} (rel : values a b) :
    Simulates machines stops values (Pure.pure a) (Pure.pure b) :=
  ⟨fun related => .ok rel related⟩

theorem throw {stop stop' : Stop} (rel : stops stop stop') :
    Simulates machines stops values (MonadExcept.throw stop) (MonadExcept.throw stop') :=
  ⟨fun related => .error rel related⟩

theorem bind {run : Run α} {run' : Run β} {next : α → Run γ} {next' : β → Run δ}
    (first : Simulates machines stops values run run')
    (second : ∀ {a b}, values a b → Simulates machines stops others (next a) (next' b)) :
    Simulates machines stops others (run >>= next) (run' >>= next') := by
  refine ⟨fun {m m'} related => ?_⟩
  have ran := first.goes related
  generalize known : run m = result at ran
  generalize known' : run' m' = result' at ran
  cases ran with
  | ok rel after =>
      rw [bind_ok known, bind_ok known']
      exact (second rel).goes after
  | error rel after =>
      rw [bind_error known, bind_error known']
      exact .error rel after

theorem get {next : Machine → Run γ} {next' : Machine → Run δ}
    (goes : ∀ {m m'}, machines m m' → Simulates machines stops others (next m) (next' m')) :
    Simulates machines stops others (MonadState.get >>= next) (MonadState.get >>= next') :=
  ⟨fun related => (goes related).goes related⟩

theorem modify {f f' : Machine → Machine}
    (step : ∀ {m m'}, machines m m' → machines (f m) (f' m')) :
    Simulates machines stops Eq (modify f : Run PUnit) (modify f') :=
  ⟨fun related => .ok rfl (step related)⟩

theorem inScope {run : Run α} {run' : Run β} (goes : Simulates machines stops values run run')
    (enter : ∀ {m m'}, machines m m' → machines m.entered m'.entered)
    (leave : ∀ {m m'}, machines m m' →
      machines { m with scopes := m.scopes.leave } { m' with scopes := m'.scopes.leave }) :
    Simulates machines stops values (Run.inScope run) (Run.inScope run') := by
  refine ⟨fun {m m'} related => ?_⟩
  have ran := goes.goes (enter related)
  rw [inScope_apply, inScope_apply]
  generalize run m.entered = result at ran
  generalize run' m'.entered = result' at ran
  cases ran with
  | ok rel after => exact .ok rel (leave after)
  | error rel after => exact .error rel (leave after)

theorem loop {pos pos' : Pos} {test test' : Run Value} {body body' : Run Signal}
    {truth : Value → Value → Prop} (true : ∀ {v v'}, truth v v' → v.isTruthy = v'.isTruthy)
    (tests : Simulates machines stops truth test test')
    (polls : ∀ turns, Simulates machines stops Eq (poll pos turns) (poll pos' turns))
    (begins : Simulates machines stops Eq begin begin)
    (bodies : Simulates machines stops Eq body body') (unfinished : stops .unfinished .unfinished)
    (fuel : Nat) : ∀ turns, Simulates machines stops Eq (Run.loop pos test body turns fuel)
      (Run.loop pos' test' body' turns fuel) := by
  induction fuel with
  | zero => exact fun turns => throw unfinished
  | succ fuel again =>
      intro turns
      rw [Run.loop, Run.loop]
      refine bind tests fun {v v'} rel => ?_
      rw [true rel]
      split
      · refine bind (polls turns) fun _ => bind begins fun _ => bind bodies ?_
        rintro signal _ rfl
        cases signal with
        | normal | «continue» => exact again (turns + 1)
        | «break» => exact pure rfl
      · exact pure rfl

end Simulates

end Run

end Script
