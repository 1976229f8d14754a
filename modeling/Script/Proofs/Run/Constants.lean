import Script.Proofs.Run.History

/-!
What a session cannot change: constants keep their values as long as their scope is there, and the
libraries are what they are wherever no binding has the name.
-/

namespace Script

namespace Scopes

theorem keeps_of_moves {n : Nat} {stretch : List Machine} (moves : stretch.IsChain Machine.Moves)
    (deep : ∀ m ∈ stretch, n < m.scopes.depth) :
    stretch.Pairwise fun m m' => Keeps n m.scopes m'.scopes := by
  have : IsTrans Machine fun m m' => Keeps n m.scopes m'.scopes := ⟨fun _ _ _ => Keeps.trans⟩
  apply List.IsChain.pairwise
  apply moves.imp_of_mem_imp
  intro m m' _ member move
  exact Move.keeps move (deep m' member)

end Scopes

theorem Library.named?_name (l : Library) : Library.named? l.name = some l := by
  cases l <;> decide

namespace Machine

variable {m : Machine} {l : Library}

theorem lookup?_of_unbound (unbound : m.scopes.chain.find? l.name = none) :
    m.lookup? l.name = some (.library l) := by
  rw [lookup?, unbound, Library.named?_name]
  rfl

theorem eval_library (unbound : m.scopes.chain.find? l.name = none) (pos : Pos) :
    (Expr.name pos l.name).eval m = .ok (.library l) m := by
  rw [Expr.eval, Run.read_apply, lookup?_of_unbound unbound]

theorem eval_member (unbound : m.scopes.chain.find? l.name = none) (pos at₁ namePos : Pos)
    (text : String) :
    (Expr.member pos (.name at₁ l.name) text namePos).eval m =
      match l.member? text with
      | some f => .ok (.function f) m
      | none => .error (.fault (.noMember l text) namePos) m := by
  rw [Expr.eval, Run.bind_ok (eval_library unbound at₁)]
  show Run.ofResult namePos ((Value.library l).member m.heap text) m = _
  rw [Value.member]
  cases l.member? text <;> rfl

theorem assignName_library (unbound : m.scopes.chain.find? l.name = none) (pos : Pos) (v : Value) :
    Run.assignName pos l.name v m = .error (.fault (.library l.name) pos) m := by
  rw [Run.assignName_apply, unbound, Library.named?_name]
  rfl

end Machine

/-- Through all of a session, constants are among the names of their scopes. While a scope is there,
its constants stay bound as they are, to the same arrays too. A library that no binding hides is
read, with the functions it has, and is never written to. -/
theorem constants_kept (limit : Int) (m : Machine) (sources : List String) :
    let states := m :: m.history limit sources
    states.IsChain Machine.Moves ∧
    (∀ step ∈ m.runSources limit sources, step.1 ∈ states) ∧
    (∀ state ∈ states, ∀ scope ∈ state.scopes.levels, ∀ name,
      scope.fixes name → scope.binds name) ∧
    (∀ stretch, stretch <:+: states → ∀ n, (∀ state ∈ stretch, n < state.scopes.depth) →
      stretch.Pairwise fun earlier later => Scopes.Keeps n earlier.scopes later.scopes) ∧
    ∀ state ∈ states, ∀ l : Library,
      (∀ pos index v, Run.assignItem pos (.library l) index v state =
        .error (.fault (.notIndexAssignable .object) pos) state) ∧
      (state.scopes.chain.find? l.name = none →
        (∀ pos, (Expr.name pos l.name).eval state = .ok (.library l) state) ∧
        (∀ pos at₁ namePos text, (Expr.member pos (.name at₁ l.name) text namePos).eval state =
          match l.member? text with
          | some f => .ok (.function f) state
          | none => .error (.fault (.noMember l text) namePos) state) ∧
        ∀ pos v, Run.assignName pos l.name v state =
          .error (.fault (.library l.name) pos) state) := by
  intro states
  have moves := Machine.history_moves limit sources m
  refine ⟨moves, ?ends, ?named, ?kept, ?libraries⟩
  case ends =>
    intro step member
    exact List.mem_cons_of_mem m (Machine.runSources_history limit sources m step member)
  case named =>
    intro state _ scope _ name
    exact Scope.binds_of_fixes
  case kept =>
    intro stretch within n deep
    have inside : stretch.IsChain Machine.Moves := List.IsChain.infix moves within
    exact Scopes.keeps_of_moves inside deep
  case libraries =>
    intro state _ l
    refine ⟨fun pos index v => rfl, fun unbound => ⟨?_, ?_, ?_⟩⟩
    · exact Machine.eval_library unbound
    · exact Machine.eval_member unbound
    · exact Machine.assignName_library unbound

def Machine.withConstant : Machine :=
  { Machine.start with scopes := ⟨[⟨"a", .null, true⟩], []⟩ }

theorem constants_kept_withConstant :
    let states := Machine.withConstant :: Machine.withConstant.history 0 ["a = 1;", "{ var a; }"]
    (∀ state ∈ states, 0 < state.scopes.depth) ∧
      (states.Pairwise fun earlier later => Scopes.Keeps 0 earlier.scopes later.scopes) ∧
      Machine.withConstant.scopes.chain.find? "Math" = none ∧
      (Expr.name ⟨1, 1⟩ "Math").eval Machine.withConstant =
        .ok (.library .math) Machine.withConstant := by
  intro states
  obtain ⟨-, -, -, kept, libraries⟩ :=
    constants_kept 0 Machine.withConstant ["a = 1;", "{ var a; }"]
  have deep : ∀ state ∈ states, 0 < state.scopes.depth := fun state _ => Nat.succ_pos _
  have unbound : Machine.withConstant.scopes.chain.find? "Math" = none := by decide
  have first := (libraries Machine.withConstant List.mem_cons_self .math).2 unbound
  exact ⟨deep, kept states List.infix_rfl 0 deep, unbound, first.1 ⟨1, 1⟩⟩

end Script
