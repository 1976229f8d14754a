import Script.Proofs.Run.Timeless

/-!
One run under two limits. Under the narrower limit, or on less fuel, a run goes step by step as
under the wider one, up to where it is cut.
-/

namespace Script

def Wider (narrow wide : Option Nat) : Prop :=
  ∀ asked, wide.any (· < asked) → narrow.any (· < asked)

theorem Wider.refl (limit : Option Nat) : Wider limit limit := fun _ past => past

/-- The stops that a wider limit or more fuel puts off. -/
def Cuts (narrow wide : Option Nat) : Stop → Prop
  | .unfinished => True
  | .cancelled .. => narrow ≠ wide
  | .fault .. | .domain => False

/-- The first result is the second one under the narrower limit, or a part of it. -/
inductive Truncates {α : Type} (narrow wide : Option Nat) :
    EStateM.Result Stop Machine α → EStateM.Result Stop Machine α → Prop
  | same (result : EStateM.Result Stop Machine α) : Truncates narrow wide result
      (Run.limited wide result)
  | cut {stop : Stop} {m : Machine} {long : EStateM.Result Stop Machine α}
      (cuts : Cuts narrow wide stop) (grows : (m.limited wide).Grows (Run.after long)) :
      Truncates narrow wide (.error stop m) long

namespace Run

structure Follows {α : Type} (narrow wide : Option Nat) (short long : Run α) : Prop where
  grows : Growing short
  growsLong : Growing long
  truncates : ∀ m : Machine, m.turns.limit = narrow →
    Truncates narrow wide (short m) (long (m.limited wide))

variable {α β : Type} {narrow wide : Option Nat}

theorem Timeless.follows {run : Run α} (timeless : Timeless run) : Follows narrow wide run run where
  grows := timeless.grows
  growsLong := timeless.grows
  truncates := by
    intro m _
    rw [timeless.blind]
    exact .same _

theorem Growing.poll (pos : Pos) (turns : Nat) : Growing (Run.poll pos turns) := by
  intro m
  rw [poll_apply]
  split <;> exact ⟨List.prefix_refl _, Nat.le_succ _, rfl⟩

theorem Growing.begin : Growing Run.begin := fun _ => ⟨List.prefix_refl _, Nat.le_refl _, rfl⟩

theorem Growing.inScope {run : Run α} (grows : Growing run) : Growing (Run.inScope run) := by
  intro m
  have enters : m.Grows { m with scopes := m.scopes.enter } := .of_eq rfl rfl
  have leaves (m : Machine) : m.Grows { m with scopes := m.scopes.leave } := .of_eq rfl rfl
  have inside := enters.trans (grows { m with scopes := m.scopes.enter })
  unfold Run.inScope
  split
  · next known =>
      rw [known] at inside
      exact inside.trans (leaves _)
  · next known =>
      rw [known] at inside
      exact inside.trans (leaves _)

theorem Growing.loop (pos : Pos) {test : Run Value} {body : Run Signal} (tests : Growing test)
    (runs : Growing body) (fuel : Nat) : ∀ turns, Growing (Run.loop pos test body turns fuel) := by
  induction fuel with
  | zero =>
      intro turns m
      exact .refl m
  | succ fuel again =>
      intro turns
      rw [Run.loop]
      apply tests.bind
      intro v
      split
      · apply (Growing.poll pos turns).bind
        intro _
        apply Growing.begin.bind
        intro _
        apply runs.bind
        intro signal
        cases signal with
        | normal | «continue» => exact again (turns + 1)
        | «break» => exact (Timeless.pure (turns + 1)).grows
      · exact (Timeless.pure turns).grows

namespace Follows

theorem bind {short long : Run α} {next nextLong : α → Run β}
    (first : Follows narrow wide short long)
    (second : ∀ a, Follows narrow wide (next a) (nextLong a)) :
    Follows narrow wide (short >>= next) (long >>= nextLong) where
  grows := first.grows.bind fun a => (second a).grows
  growsLong := first.growsLong.bind fun a => (second a).growsLong
  truncates := by
    intro m limit
    have kept := (first.grows m).limit.trans limit
    have truncates := first.truncates m limit
    generalize other : long (m.limited wide) = result at truncates
    generalize ran : short m = shorter at truncates kept
    cases truncates with
    | same =>
        cases shorter with
        | ok a m' =>
            rw [bind_ok ran, bind_ok other]
            exact (second a).truncates m' kept
        | error stop m' =>
            rw [bind_error ran, bind_error other]
            exact .same _
    | cut cuts grows =>
        rw [bind_error ran]
        refine .cut cuts ?_
        -- What the long run does after the cut only adds to it.
        cases result with
        | ok a m' =>
            rw [bind_ok other]
            exact grows.trans ((second a).growsLong m')
        | error stop m' =>
            rw [bind_error other]
            exact grows

theorem inScope {short long : Run α} (follows : Follows narrow wide short long) :
    Follows narrow wide (Run.inScope short) (Run.inScope long) where
  grows := follows.grows.inScope
  growsLong := follows.growsLong.inScope
  truncates := by
    intro m limit
    have truncates := follows.truncates { m with scopes := m.scopes.enter } limit
    have grew (m : Machine) : m.Grows { m with scopes := m.scopes.leave } := .of_eq rfl rfl
    have entered : ({ m.limited wide with scopes := (m.limited wide).scopes.enter } : Machine) =
      ({ m with scopes := m.scopes.enter } : Machine).limited wide := rfl
    unfold Run.inScope
    rw [entered]
    generalize long (({ m with scopes := m.scopes.enter } : Machine).limited wide) = result
      at truncates ⊢
    generalize short { m with scopes := m.scopes.enter } = shorter at truncates
    cases truncates with
    | same => cases shorter <;> exact .same _
    | @cut _ m' _ cuts grows =>
        have before : (({ m' with scopes := m'.scopes.leave } : Machine).limited wide).Grows
          (m'.limited wide) := .of_eq rfl rfl
        cases result <;> exact .cut cuts ((before.trans grows).trans (grew _))

theorem poll (wider : Wider narrow wide) (pos : Pos) (turns : Nat) :
    Follows narrow wide (Run.poll pos turns) (Run.poll pos turns) where
  grows := .poll pos turns
  growsLong := .poll pos turns
  truncates := by
    intro m limit
    rw [poll_apply, poll_apply]
    have implies := wider m.turns.ask.asked
    by_cases past : m.turns.ask.isOver
    · rw [if_pos past]
      by_cases far : (m.limited wide).turns.ask.isOver
      · rw [if_pos far]
        exact .same (.error (.cancelled turns pos) { m with turns := m.turns.ask })
      · rw [if_neg far]
        refine .cut ?_ (.refl _)
        rintro rfl
        apply far
        rw [← limit]
        exact past
    · have near : ¬ (m.limited wide).turns.ask.isOver := by
        intro far
        apply past
        subst limit
        exact implies far
      rw [if_neg past, if_neg near]
      exact .same (.ok () { m with turns := m.turns.ask })

theorem loop (wider : Wider narrow wide) (pos : Pos) {test : Run Value} (tests : Timeless test)
    {body bodyLong : Run Signal} (runs : Follows narrow wide body bodyLong) (fuel : Nat) :
    ∀ more, fuel ≤ more → ∀ turns,
      Follows narrow wide (Run.loop pos test body turns fuel)
        (Run.loop pos test bodyLong turns more) := by
  induction fuel with
  | zero =>
      intro more _ turns
      have grows := Growing.loop pos tests.grows runs.growsLong more turns
      exact ⟨fun m => .refl m, grows, fun m _ => .cut trivial (grows _)⟩
  | succ fuel again =>
      intro more le turns
      obtain ⟨more, rfl⟩ : ∃ before, more = before + 1 := ⟨more - 1, by omega⟩
      rw [Run.loop, Run.loop]
      apply tests.follows.bind
      intro v
      split
      · apply (poll wider pos turns).bind
        intro _
        have begins : Follows narrow wide Run.begin Run.begin :=
          ⟨.begin, .begin, fun m _ => .same (.ok () { m with turns := m.turns.begin })⟩
        apply begins.bind
        intro _
        apply runs.bind
        intro signal
        cases signal with
        | normal | «continue» => exact again more (Nat.le_of_succ_le_succ le) (turns + 1)
        | «break» => exact (Timeless.pure (turns + 1)).follows
      · exact (Timeless.pure turns).follows

theorem branch (s : Stmt) {short long : Run Signal} (follows : Follows narrow wide short long) :
    Follows narrow wide (Run.branch s short) (Run.branch s long) := by
  unfold Run.branch
  split
  · exact follows
  · exact follows.inScope

end Follows

end Run

section Statements

variable {narrow wide : Option Nat} {fuel more : Nat}

mutual

theorem Stmt.exec_follows (wider : Wider narrow wide) (le : fuel ≤ more) : ∀ s : Stmt,
    Run.Follows narrow wide (s.exec fuel) (s.exec more)
  | .declare pos kind text none => by
      rw [Stmt.exec, Stmt.exec]
      apply (Run.Timeless.note _).follows.bind
      intro _
      exact ((Run.Timeless.declare pos _).bind fun _ => .pure Signal.normal).follows
  | .declare pos kind text (some e) => by
      rw [Stmt.exec, Stmt.exec]
      apply (Run.Timeless.note _).follows.bind
      intro _
      apply e.eval_timeless.follows.bind
      intro v
      exact ((Run.Timeless.declare pos _).bind fun _ => .pure Signal.normal).follows
  | .assign pos target value => by
      rw [Stmt.exec, Stmt.exec]
      apply (Run.Timeless.note _).follows.bind
      intro _
      apply value.eval_timeless.follows.bind
      intro v
      exact ((Run.Timeless.assign v target).bind fun _ => .pure Signal.normal).follows
  | .expr pos value => by
      rw [Stmt.exec, Stmt.exec]
      apply (Run.Timeless.note _).follows.bind
      intro _
      apply value.eval_timeless.follows.bind
      intro v
      exact (show Run.Timeless _ from ⟨fun _ => .of_eq rfl rfl, fun _ _ => rfl⟩).follows
  | .block pos body => by
      rw [Stmt.exec, Stmt.exec]
      apply (Run.Timeless.note _).follows.bind
      intro _
      exact (execAll_follows wider le body).inScope
  | .if pos test yes none => by
      rw [Stmt.exec, Stmt.exec]
      apply (Run.Timeless.note _).follows.bind
      intro _
      apply test.eval_timeless.follows.bind
      intro v
      split
      · exact (yes.exec_follows wider le).branch yes
      · exact (Run.Timeless.pure _).follows
  | .if pos test yes (some other) => by
      rw [Stmt.exec, Stmt.exec]
      apply (Run.Timeless.note _).follows.bind
      intro _
      apply test.eval_timeless.follows.bind
      intro v
      split
      · exact (yes.exec_follows wider le).branch yes
      · exact (other.exec_follows wider le).branch other
  | .while pos test body => by
      rw [Stmt.exec, Stmt.exec]
      apply (Run.Timeless.note _).follows.bind
      intro _
      have runs := (body.exec_follows wider le).branch body
      have turns := Run.Follows.loop wider pos test.eval_timeless runs fuel more le 0
      apply turns.bind
      intro turns
      exact ((Run.Timeless.note _).bind fun _ => .pure Signal.normal).follows
  | .switch pos subject clauses => by
      rw [Stmt.exec, Stmt.exec]
      apply (Run.Timeless.note _).follows.bind
      intro _
      apply subject.eval_timeless.follows.bind
      intro v
      apply (Run.Timeless.entry? v clauses).follows.bind
      intro n?
      cases n? with
      | none => exact (Run.Timeless.pure _).follows
      | some n =>
          apply (execFrom_follows wider le clauses n).inScope.bind
          intro signal
          cases signal <;> exact (Run.Timeless.pure _).follows
  | .break _ => by
      rw [Stmt.exec, Stmt.exec]
      exact (Run.Timeless.note _).follows.bind fun _ => (Run.Timeless.pure _).follows
  | .continue _ => by
      rw [Stmt.exec, Stmt.exec]
      exact (Run.Timeless.note _).follows.bind fun _ => (Run.Timeless.pure _).follows

theorem Stmt.execAll_follows (wider : Wider narrow wide) (le : fuel ≤ more) :
    ∀ body : List Stmt, Run.Follows narrow wide (Stmt.execAll fuel body) (Stmt.execAll more body)
  | [] => (Run.Timeless.pure _).follows
  | s :: rest => by
      rw [Stmt.execAll, Stmt.execAll]
      apply (s.exec_follows wider le).bind
      intro signal
      cases signal with
      | normal => exact execAll_follows wider le rest
      | «break» | «continue» => exact (Run.Timeless.pure _).follows

theorem Stmt.execFrom_follows (wider : Wider narrow wide) (le : fuel ≤ more) :
    ∀ (clauses : List Clause) (n : Nat),
      Run.Follows narrow wide (Stmt.execFrom fuel n clauses) (Stmt.execFrom more n clauses)
  | [], _ => (Run.Timeless.pure _).follows
  | .mk _ _ body :: rest, n + 1 => by
      rw [Stmt.execFrom, Stmt.execFrom]
      exact execFrom_follows wider le rest n
  | .mk _ _ body :: rest, 0 => by
      rw [Stmt.execFrom, Stmt.execFrom]
      apply (execAll_follows wider le body).bind
      intro signal
      cases signal with
      | normal => exact execFrom_follows wider le rest 0
      | «break» | «continue» => exact (Run.Timeless.pure _).follows

end

theorem Program.run_follows (wider : Wider narrow wide) (le : fuel ≤ more) (p : Program) :
    Run.Follows narrow wide (p.run fuel) (p.run more) := by
  induction p with
  | nil => exact (Run.Timeless.pure ()).follows
  | cons s rest again =>
      rw [Program.run, Program.run]
      have starts : Run.Timeless (modify fun m : Machine => { m with last := .undefined }) :=
        ⟨fun _ => .of_eq rfl rfl, fun _ _ => rfl⟩
      exact starts.follows.bind fun _ => (s.exec_follows wider le).bind fun _ => again

theorem Run.limited_self {α : Type} {result : EStateM.Result Stop Machine α} {limit : Option Nat}
    (same : (Run.after result).turns.limit = limit) : Run.limited limit result = result := by
  subst same
  cases result <;> rfl

theorem Program.run_of_le (le : fuel ≤ more) (p : Program) (m : Machine)
    (ends : ∀ m', p.run fuel m ≠ .error .unfinished m') : p.run more m = p.run fuel m := by
  have follows := p.run_follows (.refl m.turns.limit) le
  have kept := (follows.grows m).limit
  have truncates : Truncates _ _ (p.run fuel m) (p.run more m) := follows.truncates m rfl
  generalize p.run more m = long at truncates
  generalize p.run fuel m = short at truncates ends kept
  cases truncates with
  | same => exact Run.limited_self kept
  | @cut stop m' _ cuts grows =>
      cases stop with
      | unfinished => exact absurd rfl (ends m')
      | cancelled => exact absurd rfl cuts
      | fault | domain => exact cuts.elim

end Statements

end Script
