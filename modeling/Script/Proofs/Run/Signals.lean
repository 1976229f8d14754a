import Script.Proofs.Grammar.Acceptance
import Script.Proofs.Grammar.Placement
import Script.Proofs.Run.Scoping

/-!
Which signals statements give. The grammar lets `break` and `continue` stand only where something
takes them up, and a `continue` in a switch is taken up by the loop around it.
-/

namespace Script

/-- Whether something around a statement takes up the signal. -/
def Enclosing.allows (enclosing : Enclosing) : Signal → Bool
  | .normal => true
  | .break => enclosing.loop || enclosing.switch
  | .continue => enclosing.loop

namespace Run

variable {α β : Type} {good : α → Prop}

/-- What the run gives, if it gives something, is `good`. -/
def Gives (run : Run α) (good : α → Prop) : Prop := ∀ m a m', run m = .ok a m' → good a

namespace Gives

theorem pure {a : α} (holds : good a) : Gives (Pure.pure a) good := by
  rintro m _ _ ⟨⟩
  exact holds

theorem imp {better : α → Prop} {run : Run α} (gives : Gives run better)
    (imp : ∀ a, better a → good a) : Gives run good := fun m a m' ran => imp a (gives m a m' ran)

theorem bind {good : β → Prop} {given : α → Prop} {run : Run α} {next : α → Run β}
    (first : Gives run given) (second : ∀ a, given a → Gives (next a) good) :
    Gives (run >>= next) good := by
  intro m b m' gave
  cases ran : run m with
  | ok a m₁ =>
      rw [bind_ok ran] at gave
      exact second a (first m a m₁ ran) m₁ b m' gave
  | error stop m₁ =>
      rw [bind_error ran] at gave
      cases gave

theorem next {good : β → Prop} {run : Run α} {next : α → Run β}
    (second : ∀ a, Gives (next a) good) : Gives (run >>= next) good := by
  have anything : Gives run fun _ => True := fun _ _ _ _ => trivial
  exact bind anything fun a _ => second a

theorem inScope {run : Run α} (gives : Gives run good) : Gives (Run.inScope run) good := by
  intro m a m' gave
  unfold Run.inScope at gave
  split at gave
  · next ran =>
      cases gave
      exact gives _ _ _ ran
  · cases gave

theorem branch {good : Signal → Prop} (s : Stmt) {run : Run Signal} (gives : Gives run good) :
    Gives (Run.branch s run) good := by
  unfold Run.branch
  split
  · exact gives
  · exact inScope gives

end Gives

end Run

section Statements

variable {fuel : Nat}

theorem Stmt.while_gives (pos : Pos) (test : Expr) (body : Stmt) :
    Run.Gives ((Stmt.while pos test body).exec fuel) (· = .normal) := by
  rw [Stmt.exec]
  apply Run.Gives.next
  intro _
  apply Run.Gives.next
  intro turns
  exact .next fun _ => .pure rfl

theorem Stmt.switch_gives (good : Signal → Prop) (pos : Pos) (subject : Expr)
    {clauses : List Clause} (normal : good .normal)
    (runs : ∀ n, Run.Gives (Stmt.execFrom fuel n clauses) fun signal =>
      signal = .continue → good signal) :
    Run.Gives ((Stmt.switch pos subject clauses).exec fuel) fun signal =>
      signal ≠ .break ∧ good signal := by
  rw [Stmt.exec]
  apply Run.Gives.next
  intro _
  apply Run.Gives.next
  intro v
  apply Run.Gives.next
  intro n?
  cases n? with
  | none => exact .pure ⟨nofun, normal⟩
  | some n =>
      refine .bind (.inScope (runs n)) fun signal given => ?_
      cases signal with
      | normal | «break» => exact .pure ⟨nofun, normal⟩
      | «continue» => exact .pure ⟨nofun, given rfl⟩

namespace Grammar

theorem Simple.gives_allowed {enclosing : Enclosing} {w : List Token} {s : Stmt}
    (whole : Simple enclosing w s) : Run.Gives (s.exec fuel) (enclosing.allows ·) := by
  cases whole with
  | declare | define =>
      rw [Stmt.exec]
      apply Run.Gives.next
      intro _
      apply Run.Gives.next
      intro v
      exact .next fun _ => .pure rfl
  | assign =>
      rw [Stmt.exec]
      apply Run.Gives.next
      intro _
      apply Run.Gives.next
      intro v
      exact .next fun _ => .pure rfl
  | expr =>
      rw [Stmt.exec]
      apply Run.Gives.next
      intro _
      apply Run.Gives.next
      intro v
      exact .next fun _ => .pure rfl
  | «break» _ placed =>
      rw [Stmt.exec]
      refine .next fun _ => .pure ?_
      simpa [Enclosing.allows] using placed
  | «continue» _ placed =>
      rw [Stmt.exec]
      exact .next fun _ => .pure placed

mutual

theorem Statement.gives_allowed : ∀ {enclosing : Enclosing} {w : List Token} {next : Token}
    {s : Stmt}, Statement enclosing w next s → Run.Gives (s.exec fuel) (enclosing.allows ·)
  | _, _, _, _, .terminated whole _ => whole.gives_allowed
  | _, _, _, _, .unterminated whole _ => whole.gives_allowed
  | _, _, _, _, .empty _ => by
      rw [Stmt.exec]
      exact .next fun _ => .inScope (.pure rfl)
  | _, _, _, _, .block _ inside _ => by
      rw [Stmt.exec]
      exact .next fun _ => .inScope inside.gives_allowed
  | _, _, _, _, @Statement.if _ _ _ _ _ _ yes _ _ branch _ => by
      rw [Stmt.exec]
      apply Run.Gives.next
      intro _
      apply Run.Gives.next
      intro v
      split
      · exact .branch yes branch.gives_allowed
      · exact .pure rfl
  | _, _, _, _, @Statement.ifElse _ _ _ _ _ _ _ _ yes no _ _ branch _ rest => by
      rw [Stmt.exec]
      apply Run.Gives.next
      intro _
      apply Run.Gives.next
      intro v
      split
      · exact .branch yes branch.gives_allowed
      · exact .branch no rest.gives_allowed
  | _, _, _, _, .while _ _ _ =>
      (Stmt.while_gives _ _ _).imp fun signal normal => by
        rw [normal]
        rfl
  | enclosing, _, _, _, .switch _ _ _ inside _ _ => by
      have runs (n : Nat) := (inside.gives_allowed n).imp fun signal allowed =>
        (show signal = .continue → enclosing.allows signal from fun same => by
          rw [same] at allowed ⊢
          exact allowed)
      exact (Stmt.switch_gives (enclosing.allows ·) _ _ rfl runs).imp fun signal given => given.2

theorem Statements.gives_allowed : ∀ {enclosing : Enclosing} {w : List Token} {next : Token}
    {body : List Stmt}, Statements enclosing w next body →
    Run.Gives (Stmt.execAll fuel body) (enclosing.allows ·)
  | _, _, _, _, .nil => .pure rfl
  | _, _, _, _, .cons first others => by
      rw [Stmt.execAll]
      refine .bind first.gives_allowed fun signal allowed => ?_
      cases signal with
      | normal => exact others.gives_allowed
      | «break» | «continue» => exact .pure allowed

theorem Clauses.gives_allowed : ∀ {enclosing : Enclosing} {w : List Token} {next : Token}
    {clauses : List Clause}, Clauses enclosing w next clauses → ∀ n,
    Run.Gives (Stmt.execFrom fuel n clauses) (enclosing.allows ·)
  | _, _, _, _, .nil, _ => .pure rfl
  | _, _, _, _, .case _ _ _ _ others, n + 1 => by
      rw [Stmt.execFrom]
      exact others.gives_allowed n
  | _, _, _, _, .default _ _ _ others, n + 1 => by
      rw [Stmt.execFrom]
      exact others.gives_allowed n
  | _, _, _, _, .case _ _ _ inside others, 0 => by
      rw [Stmt.execFrom]
      refine .bind inside.gives_allowed fun signal allowed => ?_
      cases signal with
      | normal => exact others.gives_allowed 0
      | «break» | «continue» => exact .pure allowed
  | _, _, _, _, .default _ _ inside others, 0 => by
      rw [Stmt.execFrom]
      refine .bind inside.gives_allowed fun signal allowed => ?_
      cases signal with
      | normal => exact others.gives_allowed 0
      | «break» | «continue» => exact .pure allowed

end

end Grammar

end Statements

namespace Machine

def noted (m : Machine) (s : Stmt) : Machine :=
  { m with trace := m.trace.push (.statement s.pos.line s.type) }

def begun (m : Machine) : Machine := { m with turns := m.turns.begin }

def into (m : Machine) (branch : Stmt) : Machine := if branch.isBlock then m else m.entered

end Machine

/-- Run from a machine, a statement comes to `part` in `m'`, with no loop between the two. -/
inductive Stmt.Reached (part : Stmt) (m' : Machine) (fuel : Nat) : Stmt → Machine → Prop
  | here : Reached part m' fuel part m'
  | block {pos : Pos} {before rest : List Stmt} {s : Stmt} {m m₁ : Machine}
      (passed : Stmt.execAll fuel before (m.noted (.block pos (before ++ s :: rest))).entered =
        .ok .normal m₁)
      (within : Reached part m' fuel s m₁) :
      Reached part m' fuel (.block pos (before ++ s :: rest)) m
  | yes {pos : Pos} {test : Expr} {yes : Stmt} {no : Option Stmt} {v : Value} {m m₁ : Machine}
      (tested : test.eval (m.noted (.if pos test yes no)) = .ok v m₁) (truthy : v.isTruthy = true)
      (within : Reached part m' fuel yes (m₁.into yes)) :
      Reached part m' fuel (.if pos test yes no) m
  | no {pos : Pos} {test : Expr} {yes no : Stmt} {v : Value} {m m₁ : Machine}
      (tested : test.eval (m.noted (.if pos test yes no)) = .ok v m₁) (falsy : v.isTruthy = false)
      (within : Reached part m' fuel no (m₁.into no)) :
      Reached part m' fuel (.if pos test yes (some no)) m
  | switch {pos : Pos} {subject : Expr} {clauses : List Clause} {v : Value} {n : Nat}
      {before rest : List Stmt} {s : Stmt} {m m₁ m₂ m₃ : Machine}
      (found : subject.eval (m.noted (.switch pos subject clauses)) = .ok v m₁)
      (enters : Clause.entry? v clauses m₁ = .ok (some n) m₂)
      (bodies : (clauses.drop n).flatMap (·.body) = before ++ s :: rest)
      (passed : Stmt.execAll fuel before m₂.entered = .ok .normal m₃)
      (within : Reached part m' fuel s m₃) :
      Reached part m' fuel (.switch pos subject clauses) m

section Reaching

variable {fuel : Nat} {m m' m₁ : Machine}

theorem Run.inScope_ok {α : Type} {run : Run α} {a : α} (ran : run m.entered = .ok a m') :
    Run.inScope run m = .ok a { m' with scopes := m'.scopes.leave } := by
  rw [Run.inScope_apply, ran]

theorem Run.branch_ok {s : Stmt} {run : Run Signal} {signal : Signal}
    (ran : run (m.into s) = .ok signal m') :
    ∃ scopes, Run.branch s run m = .ok signal { m' with scopes } := by
  unfold Run.branch
  unfold Machine.into at ran
  split
  · next block =>
      rw [if_pos block] at ran
      exact ⟨m'.scopes, ran⟩
  · next bare =>
      rw [if_neg bare] at ran
      exact ⟨_, Run.inScope_ok ran⟩

theorem Stmt.execAll_append (before rest : List Stmt) :
    Stmt.execAll fuel (before ++ rest) = do
      match ← Stmt.execAll fuel before with
      | .normal => Stmt.execAll fuel rest
      | signal => return signal := by
  induction before with
  | nil => rfl
  | cons s more again =>
      rw [List.cons_append, Stmt.execAll, Stmt.execAll, bind_assoc]
      congr 1
      funext signal
      cases signal with
      | normal => exact again
      | «break» | «continue» => rfl

theorem Stmt.execFrom_eq (clauses : List Clause) (n : Nat) :
    Stmt.execFrom fuel n clauses = Stmt.execAll fuel ((clauses.drop n).flatMap (·.body)) := by
  induction clauses generalizing n with
  | nil => simp [Stmt.execFrom, Stmt.execAll]
  | cons c rest again =>
      obtain ⟨pos, test, body⟩ := c
      cases n with
      | succ n =>
          rw [Stmt.execFrom, again n]
          rfl
      | zero =>
          rw [Stmt.execFrom, again 0]
          exact (Stmt.execAll_append body _).symm

theorem Stmt.execAll_continue {before : List Stmt} {s : Stmt} (rest : List Stmt)
    (passed : Stmt.execAll fuel before m = .ok .normal m₁)
    (signals : s.exec fuel m₁ = .ok .continue m') :
    Stmt.execAll fuel (before ++ s :: rest) m = .ok .continue m' := by
  rw [Stmt.execAll_append, Run.bind_ok passed]
  show Stmt.execAll fuel (s :: rest) m₁ = _
  rw [Stmt.execAll, Run.bind_ok signals]
  rfl

theorem Stmt.Reached.continues {s part : Stmt} {m₂ : Machine} (reached : part.Reached m' fuel s m)
    (signals : part.exec fuel m' = .ok .continue m₂) :
    ∃ scopes, s.exec fuel m = .ok .continue { m₂ with scopes } := by
  induction reached with
  | here => exact ⟨m₂.scopes, signals⟩
  | @block pos before rest s m m₁ passed _ again =>
      obtain ⟨scopes, ran⟩ := again
      refine ⟨scopes.leave, ?_⟩
      rw [Stmt.exec]
      exact Run.inScope_ok (Stmt.execAll_continue rest passed ran)
  | @yes pos test yes no v m m₁ tested truthy _ again =>
      obtain ⟨scopes, ran⟩ := again
      obtain ⟨left, branched⟩ := Run.branch_ok ran
      refine ⟨left, ?_⟩
      unfold Stmt.exec
      show (test.eval >>= _) (m.noted _) = _
      rw [Run.bind_ok tested, if_pos truthy]
      exact branched
  | @no pos test yes no v m m₁ tested falsy _ again =>
      obtain ⟨scopes, ran⟩ := again
      obtain ⟨left, branched⟩ := Run.branch_ok ran
      refine ⟨left, ?_⟩
      rw [Stmt.exec]
      show (test.eval >>= _) (m.noted _) = _
      rw [Run.bind_ok tested, if_neg (by simp [falsy])]
      exact branched
  | @switch pos subject clauses v n before rest s m m₁ m₂ m₃ found enters bodies passed _ again =>
      obtain ⟨scopes, ran⟩ := again
      have inside := Run.inScope_ok (Stmt.execAll_continue rest passed ran)
      rw [← bodies, ← Stmt.execFrom_eq] at inside
      refine ⟨scopes.leave, ?_⟩
      rw [Stmt.exec]
      show (subject.eval >>= _) (m.noted _) = _
      rw [Run.bind_ok found, Run.bind_ok enters]
      show (Run.inScope (Stmt.execFrom fuel n clauses) >>= _) m₂ = _
      rw [Run.bind_ok inside]
      rfl

/-- A loop takes up a `continue` that its body comes to: it goes on with its next turn from there,
back in its own scopes. -/
theorem Run.loop_continues {pos : Pos} {test : Expr} {body part : Stmt} {turns left : Nat}
    {v : Value} {m₂ m₃ : Machine} (tested : test.eval m = .ok v m₁) (truthy : v.isTruthy = true)
    (polled : Run.poll pos turns m₁ = .ok () m₂)
    (reached : part.Reached m' fuel body (m₂.begun.into body))
    (signals : part.exec fuel m' = .ok .continue m₃) :
    ∃ scopes, m.scopes.Alike scopes ∧
      Run.loop pos test.eval (Run.branch body (body.exec fuel)) turns (left + 1) m =
        Run.loop pos test.eval (Run.branch body (body.exec fuel)) (turns + 1) left
          { m₃ with scopes } := by
  obtain ⟨inner, ran⟩ := reached.continues signals
  obtain ⟨scopes, branched⟩ := Run.branch_ok ran
  have branched : Run.branch body (body.exec fuel) m₂.begun = .ok .continue { m₃ with scopes } :=
    branched
  refine ⟨scopes, ?_, ?_⟩
  · have first : (after (test.eval m)).scopes = m.scopes := Run.Still.eval test m
    have second : (after (Run.poll pos turns m₁)).scopes = m₁.scopes := Run.Still.poll pos turns m₁
    have rounds : Run.Rounds 0 (Run.branch body (body.exec fuel)) := .branch body body.exec_rounds
    have round := rounds m₂.begun
    rw [tested] at first
    rw [polled] at second
    rw [branched] at round
    have same : m₂.scopes = m.scopes := second.trans first
    exact same ▸ round.alike
  · rw [Run.loop, Run.bind_ok tested, if_pos truthy, Run.bind_ok polled]
    show (Run.branch body (body.exec fuel) >>= _) m₂.begun = _
    rw [Run.bind_ok branched]

end Reaching

/-- Runs the statements up to the first that gives a signal. -/
def Program.heed (fuel : Nat) : Program → Run Signal
  | [] => return .normal
  | s :: rest => do
    modify fun m => { m with last := .undefined }
    match ← s.exec fuel with
    | .normal => heed fuel rest
    | signal => return signal

theorem Program.run_eq_heed {fuel : Nat} {p : Program}
    (normal : ∀ s ∈ p, Run.Gives (s.exec fuel) (· = .normal)) :
    p.run fuel = p.heed fuel >>= fun _ => return () := by
  induction p with
  | nil => rfl
  | cons s rest again =>
      have later := again fun t later => normal t (List.mem_cons_of_mem s later)
      funext m
      let emptied : Machine := { m with last := .undefined }
      rw [Program.run, Program.heed, later]
      show (s.exec fuel >>= _) emptied = ((s.exec fuel >>= _) >>= _) emptied
      rw [bind_assoc]
      cases ran : s.exec fuel emptied with
      | error stop m' => rw [Run.bind_error ran, Run.bind_error ran]
      | ok signal m' =>
          rw [Run.bind_ok ran, Run.bind_ok ran, normal s List.mem_cons_self _ _ _ ran]

/-- In a program that was read, a signal is given only where something around the statement takes it
up: a loop takes up both, a switch `break`. So a run that does not heed the signals of the program's
own statements misses none, and a `continue` in switches and blocks reaches the loop around them. -/
theorem signals_taken_up {tokens : List Token} {p : Program}
    (parsed : Program.ofTokens tokens = .ok p) (fuel : Nat) :
    (∀ s ∈ p, Run.Gives (s.exec fuel) (· = .normal)) ∧
    (p.run fuel = p.heed fuel >>= fun _ => return ()) ∧
    (∀ site ∈ p.sites, Run.Gives (site.stmt.exec fuel) (site.around.enclosing.allows ·)) ∧
    (∀ pos test body, Run.Gives ((Stmt.while pos test body).exec fuel) (· = .normal)) ∧
    (∀ pos subject clauses, Run.Gives ((Stmt.switch pos subject clauses).exec fuel) (· ≠ .break)) ∧
    ∀ (pos : Pos) (test : Expr) (body part : Stmt) (turns left : Nat) (v : Value)
      (m m₁ m₂ m₃ m₄ : Machine), test.eval m = .ok v m₁ → v.isTruthy = true →
      Run.poll pos turns m₁ = .ok () m₂ → part.Reached m₃ fuel body (m₂.begun.into body) →
      part.exec fuel m₃ = .ok .continue m₄ →
      ∃ scopes, m.scopes.Alike scopes ∧
        Run.loop pos test.eval (Run.branch body (body.exec fuel)) turns (left + 1) m =
          Run.loop pos test.eval (Run.branch body (body.exec fuel)) (turns + 1) left
            { m₄ with scopes } := by
  have normal : ∀ s ∈ p, Run.Gives (s.exec fuel) (· = .normal) := by
    intro s member
    obtain ⟨w, next, derived⟩ := Program.derives_of_ofTokens parsed s member
    refine derived.gives_allowed.imp fun signal allowed => ?_
    cases signal with
    | normal => rfl
    | «break» | «continue» => cases allowed
  refine ⟨normal, Program.run_eq_heed normal, ?sites, Stmt.while_gives, ?switches, ?loops⟩
  case sites =>
    intro site member
    obtain ⟨w, next, derived⟩ := Program.sited_of_ofTokens parsed site member
    exact derived.gives_allowed
  case switches =>
    intro pos subject clauses
    have runs (n : Nat) : Run.Gives (Stmt.execFrom fuel n clauses) fun signal =>
        signal = .continue → True := fun _ _ _ _ _ => trivial
    exact (Stmt.switch_gives (fun _ => True) pos subject trivial runs).imp fun _ given => given.1
  case loops =>
    intro pos test body part turns left v m m₁ m₂ m₃ m₄ tested truthy polled reached signals
    exact Run.loop_continues tested truthy polled reached signals

/-- `while (Math) switch (Math) { default: continue; }` -/
def continuing : List Token :=
  [⟨.keyword .while, "while", ⟨1, 1⟩⟩, ⟨.punct .openParen, "(", ⟨1, 7⟩⟩,
    ⟨.identifier "Math", "Math", ⟨1, 8⟩⟩, ⟨.punct .closeParen, ")", ⟨1, 12⟩⟩,
    ⟨.keyword .switch, "switch", ⟨1, 14⟩⟩, ⟨.punct .openParen, "(", ⟨1, 21⟩⟩,
    ⟨.identifier "Math", "Math", ⟨1, 22⟩⟩, ⟨.punct .closeParen, ")", ⟨1, 26⟩⟩,
    ⟨.punct .openBrace, "\x7b", ⟨1, 28⟩⟩, ⟨.keyword .default, "default", ⟨1, 30⟩⟩,
    ⟨.punct .colon, ":", ⟨1, 37⟩⟩, ⟨.keyword .continue, "continue", ⟨1, 39⟩⟩,
    ⟨.punct .semicolon, ";", ⟨1, 47⟩⟩, ⟨.punct .closeBrace, "\x7d", ⟨1, 49⟩⟩,
    ⟨.endOfInput, "", ⟨1, 50⟩⟩]

def continuingTest : Expr := .name ⟨1, 8⟩ "Math"

def continuingClauses : List Clause := [.mk ⟨1, 30⟩ none [.continue ⟨1, 39⟩]]

def continuingBody : Stmt := .switch ⟨1, 14⟩ (.name ⟨1, 22⟩ "Math") continuingClauses

open Grammar in
theorem ofTokens_continuing :
    Program.ofTokens continuing = .ok [.while ⟨1, 1⟩ continuingTest continuingBody] := by
  have last : Statement ⟨true, true⟩ ((continuing.drop 11).take 2)
      ⟨.punct .closeBrace, "\x7d", ⟨1, 49⟩⟩ (.continue ⟨1, 39⟩) :=
    @Statement.terminated _ [_] _ _ _ (.continue rfl rfl) rfl
  have clauses : Clauses ⟨true, true⟩ ((continuing.drop 9).take 4)
      ⟨.punct .closeBrace, "\x7d", ⟨1, 49⟩⟩ continuingClauses :=
    @Clauses.default _ _ [] _ ⟨.keyword .default, "default", ⟨1, 30⟩⟩ _ _ _ rfl rfl
      (.cons last .nil) .nil
  have single : defaults continuingClauses ≤ 1 := Nat.le_refl 1
  have body : Statement ⟨true, false⟩ ((continuing.drop 4).take 10)
      ⟨.endOfInput, "", ⟨1, 50⟩⟩ continuingBody :=
    @Statement.switch ⟨true, false⟩ _ _ _ ⟨.keyword .switch, "switch", ⟨1, 14⟩⟩
      ⟨.punct .openBrace, "\x7b", ⟨1, 28⟩⟩ ⟨.punct .closeBrace, "\x7d", ⟨1, 49⟩⟩ _ _ rfl
      (.name "Math" ⟨1, 21⟩ ⟨1, 22⟩ ⟨1, 26⟩) rfl clauses rfl single
  have whole : Statement ⟨false, false⟩ continuing.dropLast
      ⟨.endOfInput, "", ⟨1, 50⟩⟩ (.while ⟨1, 1⟩ continuingTest continuingBody) :=
    @Statement.while _ _ _ _ ⟨.keyword .while, "while", ⟨1, 1⟩⟩ _ _ rfl
      (.name "Math" ⟨1, 7⟩ ⟨1, 8⟩ ⟨1, 12⟩) body
  have statements : Statements ⟨false, false⟩ continuing.dropLast ⟨.endOfInput, "", ⟨1, 50⟩⟩
      [.while ⟨1, 1⟩ continuingTest continuingBody] := .cons whole .nil
  have derived : Program.Derived continuing [.while ⟨1, 1⟩ continuingTest continuingBody] :=
    .mk rfl statements
  exact derived.reads

theorem signals_taken_up_continuing :
    Program.ofTokens continuing = .ok [.while ⟨1, 1⟩ continuingTest continuingBody] ∧
      (∀ signal m', (Stmt.while ⟨1, 1⟩ continuingTest continuingBody).exec 2 .start =
        .ok signal m' → signal = .normal) ∧
      ∃ m, Run.loop ⟨1, 1⟩ continuingTest.eval
          (Run.branch continuingBody (continuingBody.exec 2)) 0 2 .start =
        Run.loop ⟨1, 1⟩ continuingTest.eval
          (Run.branch continuingBody (continuingBody.exec 2)) 1 1 m := by
  obtain ⟨normal, -, -, -, -, loops⟩ := signals_taken_up ofTokens_continuing 2
  let asked : Machine := { Machine.start with turns := Turns.unlimited.ask }
  have reached : (Stmt.continue ⟨1, 39⟩).Reached _ 2 continuingBody
      (asked.begun.into continuingBody) :=
    .switch rfl rfl (show _ = [] ++ Stmt.continue ⟨1, 39⟩ :: [] from rfl) rfl .here
  obtain ⟨scopes, -, continues⟩ := loops ⟨1, 1⟩ continuingTest continuingBody _ 0 1 (.library .math)
    .start .start asked _ _ rfl rfl rfl reached rfl
  exact ⟨ofTokens_continuing, fun signal m' => normal _ List.mem_cons_self _ signal m', _, continues⟩

end Script
