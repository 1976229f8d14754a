import Script.Proofs.Grammar.Acceptance
import Script.Proofs.Grammar.Joining
import Script.Proofs.Grammar.ViableExpression

/-!
Where statements go wrong. What was read of one before the wrong token can be gone on with to a
statement; the statements and clauses before it may end there.
-/

namespace Script

namespace Grammar

section Simple

theorem condition_wrong (c : Cursor) (closed : c.Closed) :
    Parse.Pinpoints condition (fun v => ∃ test, Condition v test) c := by
  intro e fails
  rcases Parse.bind_eq_error fails with openingFails | ⟨opening, openingReads, fails⟩
  · refine (Cursor.expectMark_wrong closed openingFails).first [.name, .mark .closeParen] ?_ ?_
    · rintro v line ⟨t, rfl, opens⟩
      exact ⟨_, .mk opens (Expression.name "x" ⟨line, 1⟩) rfl⟩
    · intro c' same fails
      rw [condition, fails]
      rfl
  · obtain ⟨opens, first⟩ := Cursor.expectMark_eq_ok openingReads
    have inside := closed.passes first
    rcases Parse.bind_eq_error fails with testFails | ⟨test, testReads, fails⟩
    · refine (chain_wrong _ opening.next inside testFails).after first [.mark .closeParen] ?_ ?_
      · rintro v line ⟨test, derived⟩
        exact ⟨test, .mk opens derived rfl⟩
      · intro c' m' _ passes' _ fails
        obtain ⟨_, openingReads⟩ := Cursor.expectMark_one passes' opens
        rw [condition, openingReads]
        simp only [expression, bind, Except.bind, fails]
    · obtain ⟨w, passes, derived, apart⟩ := expression_reads opening.next inside test testReads
      rcases Parse.bind_eq_error fails with closingFails | ⟨closing, -, same⟩
      · refine (Cursor.expectMark_wrong (inside.passes passes) closingFails).through
          (first.trans passes) ?_ ?_
        · rintro v ⟨t, rfl, closes⟩
          exact ⟨_, .mk opens derived closes⟩
        · intro c' m' _ passes' next fails
          obtain ⟨k, passes', last⟩ := passes'.split
          obtain ⟨_, openingReads⟩ := Cursor.expectMark_one passes' opens
          obtain ⟨_, testReads⟩ := Expression.gives derived last (Cursor.kind_of_token next ▸ apart)
          rw [condition, openingReads]
          simp only [bind, Except.bind, testReads, fails]
      · cases same

/-- A statement, whatever comes after it. -/
def SomeEnded (enclosing : Enclosing) (v : List Token) : Prop :=
  ∀ next, ∃ s, Statement enclosing v next s

variable (enclosing : Enclosing)

theorem declaration_wrong {word : Token} {kind : DeclKind} (declares : Declares word.kind kind)
    (c : Cursor) (closed : c.Closed) :
    Parse.Pinpoints (declaration kind word.pos) (fun v => ∃ s, Simple enclosing (word :: v) s)
      c := by
  intro e fails
  rcases Parse.bind_eq_error fails with nameFails | ⟨name, nameReads, fails⟩
  · refine (Cursor.expectName_wrong closed nameFails).first [.equals, .name] ?_ ?_
    · rintro v line ⟨t, text, rfl, named⟩
      exact ⟨_, .define declares named rfl (Expression.name "x" ⟨line, 1⟩)⟩
    · intro c' _ fails
      rw [declaration, fails]
      rfl
  · obtain ⟨known, first⟩ := Cursor.expectAs_eq_ok nameReads
    have named := Kind.name?_eq_some_iff.mp known
    have inside := closed.passes first
    split at fails
    · next equals taken =>
        obtain ⟨assigns, second⟩ := Cursor.take?_eq_some taken
        have before := first.trans second
        rcases Parse.bind_eq_error fails with valueFails | ⟨value, -, same⟩
        · refine (chain_wrong _ equals.next (closed.passes before) valueFails).through before ?_ ?_
          · rintro v ⟨value, derived⟩
            exact ⟨_, .define declares named assigns derived⟩
          · intro c' m' _ passes' _ fails
            obtain ⟨k, passes', last⟩ := passes'.split
            obtain ⟨_, nameReads⟩ := Cursor.expectAs_one passes' known .identifier
            obtain ⟨_, taken⟩ := Cursor.take?_one last assigns
            rw [declaration, nameReads]
            simp only [expression, bind, Except.bind, taken, fails]
        · cases same
    · next unassigned =>
        split at fails
        · next constant =>
            cases fails
            refine (Cursor.GoesWrong.missing rfl [.equals, .name]).through first ?_ ?_
            · rintro v ⟨line, rfl⟩
              exact ⟨_, .define declares named rfl (Expression.name "x" ⟨line, 1⟩)⟩
            · intro c' m' _ passes' next _
              obtain ⟨_, nameReads⟩ := Cursor.expectAs_one passes' known .identifier
              rw [declaration, nameReads]
              simp only [bind, Except.bind, Cursor.take?_again unassigned inside next,
                if_pos constant, Cursor.fail, next]
        · cases fails

theorem expressionOrAssignment_wrong (c : Cursor) (closed : c.Closed) :
    Parse.Pinpoints expressionOrAssignment (fun v => ∃ s, Simple enclosing v s) c := by
  intro e fails
  rcases Parse.bind_eq_error fails with leftFails | ⟨left, leftReads, fails⟩
  · refine (chain_wrong _ c closed leftFails).imp ?_ ?_
    · rintro v ⟨value, derived⟩
      obtain ⟨t, v, rfl, -⟩ := derived.begins
      exact ⟨_, .expr derived⟩
    · intro c' _ fails
      rw [expressionOrAssignment, expression, fails]
      rfl
  · obtain ⟨w, passes, derived, apart⟩ := expression_reads c closed left leftReads
    obtain ⟨t, w, rfl, -⟩ := derived.begins
    split at fails
    · next equals taken =>
        obtain ⟨assigns, second⟩ := Cursor.take?_eq_some taken
        split at fails
        · next target known =>
            have assignable := Target.ofExpr?_eq_some_iff.mp known
            have before := passes.trans second
            rcases Parse.bind_eq_error fails with valueFails | ⟨value, -, same⟩
            · refine (chain_wrong _ equals.next (closed.passes before) valueFails).through before
                ?_ ?_
              · rintro v ⟨value, after⟩
                exact ⟨_, by simpa using Simple.assign derived assignable assigns after⟩
              · intro c' m' _ passes' _ fails
                obtain ⟨k, passes', last⟩ := passes'.split
                have between : k.kind = left.next.kind := last.kind.trans second.kind.symm
                obtain ⟨_, leftReads⟩ := Expression.gives derived passes' (between ▸ apart)
                obtain ⟨_, taken⟩ := Cursor.take?_one last assigns
                rw [expressionOrAssignment, leftReads]
                simp only [expression, bind, Except.bind, taken, known, fails]
            · cases same
        · next unknown =>
            cases fails
            have assigned : left.next.token = equals.value := second.token
            -- the `=` was taken before the error names it, but it is the token after the left side
            have wrong : left.next.GoesWrong ⟨.target, equals.value⟩
                (fun m' => ∃ k shorter, m'.take? (.operator .assign) = some ⟨m'.token, k, shorter⟩)
                (· = []) := by
              refine .here assigned.symm [] (fun _ => rfl) fun closed _ same => ?_
              exact Cursor.take?_of_closed closed
                ((Cursor.kind_of_token same).trans (second.kind.trans assigns))
            refine wrong.through passes ?_ ?_
            · rintro v rfl
              exact ⟨_, by simpa using Simple.expr derived⟩
            · rintro c' m' _ passes' next ⟨k, _, taken⟩
              obtain ⟨_, leftReads⟩ := Expression.gives derived passes'
                (Cursor.kind_of_token next ▸ apart)
              rw [expressionOrAssignment, leftReads]
              simp only [bind, Except.bind, taken, unknown, next, assigned]
    · cases fails

theorem ended_wrong {e : ParseError} {bound : Nat} {statement : Step Stmt bound}
    (closed : statement.next.Closed) (fails : ended statement = .error e) :
    statement.next.GoesWrong e
      (fun c' => ∀ {bound : Nat} (s : Stmt) (shorter : c'.remaining < bound),
        ended ⟨s, c', shorter⟩ = .error e)
      fun v => ∃ mark, v = [mark] ∧ mark.kind = .punct .semicolon := by
  unfold ended at fails
  dsimp only at fails
  split at fails
  · cases fails
  · next unmarked =>
      split at fails
      · cases fails
      · next apart =>
          cases fails
          refine .here rfl [.mark .semicolon] (fun line => ⟨_, rfl, rfl⟩) ?_
          intro c' _ line same bound s shorter
          -- here the line of the token before counts, not only the tokens
          have apart : ¬ (c'.kind = .punct .closeBrace ∨ c'.kind = .endOfInput ∨
              c'.line < c'.token.pos.line) := by
            rw [Cursor.kind, same, line]
            exact apart
          simp only [ended, Cursor.takeMark?, Cursor.take?_again unmarked closed same, if_neg apart]
          rw [Cursor.fail, same]

theorem unended_wrong {e : ParseError} {c : Cursor} {bound : Nat} {statement : Step Stmt bound}
    {w : List Token} (fails : ended statement = .error e) (passes : c.Passes w statement.next)
    (closed : c.Closed) (derived : Simple enclosing w statement.value)
    (apart : ¬ Continues statement.value statement.next.kind) :
    c.GoesWrong e (fun c' => simple enclosing c' = .error e) (SomeEnded enclosing) := by
  refine (ended_wrong (closed.passes passes) fails).through passes ?_ ?_
  · rintro v ⟨mark, rfl, marked⟩ next
    exact ⟨_, .terminated derived marked⟩
  · intro c' m' _ passes' next fails
    obtain ⟨shorter, leads⟩ := derived.leads passes' (Cursor.kind_of_token next ▸ apart)
    rw [leads]
    exact fails _ shorter

theorem simple_wrong_declaration {c : Cursor} (closed : c.Closed)
    {word : Step (Token × DeclKind) c.remaining} (taken : c.takeAs declKind? = some word) :
    Parse.Pinpoints (simple enclosing) (SomeEnded enclosing) c := by
  intro e fails
  rw [simple_declaration taken] at fails
  obtain ⟨known, first⟩ := Cursor.takeAs_eq_some taken
  have declares := declKind?_eq_some_iff.mp known
  have inside := closed.passes first
  rcases Parse.bind_eq_error fails with declarationFails | ⟨statement, reads, endFails⟩
  · refine (declaration_wrong enclosing declares word.next inside declarationFails).after first
      [.mark .semicolon] ?_ ?_
    · rintro v line ⟨s, derived⟩ next
      exact ⟨s, .terminated derived rfl⟩
    · intro c' m' _ passes' _ fails
      obtain ⟨_, taken⟩ := Cursor.takeAs_one passes' known
      rw [simple_declaration taken, fails]
      rfl
  · obtain ⟨w, passes, derived, apart⟩ := declaration_reads enclosing declares word.next inside
      statement reads
    have before : c.Passes (word.value.1 :: w) (word.andThen statement).next := first.trans passes
    exact unended_wrong enclosing endFails before closed derived apart

theorem simple_wrong_break {c : Cursor} (closed : c.Closed) (is : c.kind = .keyword .break) :
    Parse.Pinpoints (simple enclosing) (SomeEnded enclosing) c := by
  by_cases placed : (enclosing.loop || enclosing.switch) = true
  · intro e fails
    obtain ⟨m, shorter, taken⟩ := Cursor.take?_of_closed closed is
    rw [simple_break taken, if_pos placed] at fails
    have first := (Cursor.take?_eq_some taken).2
    exact unended_wrong enclosing fails first closed (.break is (by simpa using placed)) id
  · refine .refused closed .breakable [.mark .semicolon] (fun _ _ => ⟨_, .empty rfl⟩) ?_
    intro c' closed' same
    obtain ⟨_, _, taken⟩ := Cursor.take?_of_closed closed' ((Cursor.kind_of_token same).trans is)
    rw [simple_break taken, if_neg placed, same]

theorem simple_wrong_continue {c : Cursor} (closed : c.Closed) (is : c.kind = .keyword .continue) :
    Parse.Pinpoints (simple enclosing) (SomeEnded enclosing) c := by
  by_cases placed : enclosing.loop = true
  · intro e fails
    obtain ⟨m, shorter, taken⟩ := Cursor.take?_of_closed closed is
    rw [simple_continue taken, if_pos placed] at fails
    have first := (Cursor.take?_eq_some taken).2
    exact unended_wrong enclosing fails first closed (.continue is placed) id
  · refine .refused closed .repeatable [.mark .semicolon] (fun _ _ => ⟨_, .empty rfl⟩) ?_
    intro c' closed' same
    obtain ⟨_, _, taken⟩ := Cursor.take?_of_closed closed' ((Cursor.kind_of_token same).trans is)
    rw [simple_continue taken, if_neg placed, same]

theorem simple_wrong_expression {c : Cursor} (closed : c.Closed)
    (undeclared : declKind? c.kind = none) (noBreak : c.kind ≠ .keyword .break)
    (noContinue : c.kind ≠ .keyword .continue) :
    Parse.Pinpoints (simple enclosing) (SomeEnded enclosing) c := by
  have leads {c' : Cursor} (same : c'.token = c.token) :
      simple enclosing c' = expressionOrAssignment c' >>= ended := by
    rw [← Cursor.kind_of_token same] at undeclared noBreak noContinue
    exact simple_expression undeclared noBreak noContinue
  intro e fails
  rw [leads rfl] at fails
  rcases Parse.bind_eq_error fails with statementFails | ⟨statement, reads, endFails⟩
  · refine (expressionOrAssignment_wrong enclosing c closed statementFails).first
      [.mark .semicolon] ?_ ?_
    · rintro v line ⟨s, derived⟩ next
      exact ⟨s, .terminated derived rfl⟩
    · intro c' same fails
      rw [leads same, fails]
      rfl
  · obtain ⟨w, passes, derived, apart⟩ := expressionOrAssignment_reads enclosing c closed statement
      reads
    exact unended_wrong enclosing endFails passes closed derived apart

theorem simple_wrong (c : Cursor) (closed : c.Closed) :
    Parse.Pinpoints (simple enclosing) (SomeEnded enclosing) c := by
  cases taken : c.takeAs declKind? with
  | some word => exact simple_wrong_declaration enclosing closed taken
  | none =>
      have undeclared := Cursor.takeAs_eq_none taken closed rfl
      by_cases isBreak : c.kind = .keyword .break
      · exact simple_wrong_break enclosing closed isBreak
      · by_cases isContinue : c.kind = .keyword .continue
        · exact simple_wrong_continue enclosing closed isContinue
        · exact simple_wrong_expression enclosing closed undeclared isBreak isContinue

end Simple

theorem Statements.one {enclosing : Enclosing} {w : List Token} {next : Token} {s : Stmt}
    (derived : Statement enclosing w next s) : Statements enclosing w next [s] := by
  rw [← List.append_nil w]
  exact .cons derived .nil

theorem Statements.stopped {stop : Token}
    (stops : stop.kind = .punct .closeBrace ∨ stop.kind = .endOfInput) :
    ∀ {enclosing : Enclosing} {w : List Token} {next : Token} {body : List Stmt},
      Statements enclosing w next body → Statements enclosing w stop body
  | _, _, _, _, .nil => .nil
  | _, _, _, _, .cons (v := []) first others =>
      .cons (first.stopped stops) (others.stopped stops)
  | _, _, _, _, .cons (v := _ :: _) first others => .cons first (others.stopped stops)

theorem headD_of_cons_eq {t close : Token} {v u : List Token} (same : t :: v = u ++ [close]) :
    u.headD close = t := by
  rw [← Cursor.headD_concat u close t, ← same]
  rfl

def SomeStatement (enclosing : Enclosing) (v : List Token) : Prop :=
  ∀ next : Token, next.kind ≠ .keyword .else → ∃ s, Statement enclosing v next s

def SomeBlock (enclosing : Enclosing) (v : List Token) : Prop :=
  ∃ u close body, v = u ++ [close] ∧ close.kind = .punct .closeBrace ∧
    Statements enclosing u close body

def SomeClauses (enclosing : Enclosing) (seenDefault : Bool) (v : List Token) : Prop :=
  ∃ u close cases, v = u ++ [close] ∧ close.kind = .punct .closeBrace ∧
    Clauses enclosing u close cases ∧ defaults cases ≤ if seenDefault then 0 else 1

def SomeBody (enclosing : Enclosing) (v : List Token) : Prop :=
  ∀ close : Token, close.kind = .punct .closeBrace → ∃ body, Statements enclosing v close body

section Some

variable {enclosing : Enclosing} {seenDefault : Bool} {w v u : List Token}
  {word colon close t : Token} {s : Stmt} {test : Expr} {body : List Stmt}

theorem SomeBlock.none (closes : close.kind = .punct .closeBrace) : SomeBlock enclosing [close] :=
  ⟨[], close, [], rfl, closes, .nil⟩

theorem SomeBlock.cons (first : Statement enclosing w t s) (others : SomeBlock enclosing (t :: v)) :
    SomeBlock enclosing (w ++ t :: v) := by
  obtain ⟨u, close, body, same, closes, inside⟩ := others
  rw [← headD_of_cons_eq same] at first
  exact ⟨w ++ u, close, _, by rw [same, List.append_assoc], closes, .cons first inside⟩

theorem SomeBody.cons (first : Statement enclosing w t s) (others : SomeBody enclosing (t :: v)) :
    SomeBody enclosing (w ++ t :: v) := by
  intro close closes
  obtain ⟨body, inside⟩ := others close closes
  exact ⟨_, .cons first inside⟩

theorem SomeClauses.none (closes : close.kind = .punct .closeBrace) :
    SomeClauses enclosing seenDefault [close] :=
  ⟨[], close, [], rfl, closes, .nil, Nat.zero_le _⟩

theorem SomeClauses.case (is : word.kind = .keyword .case) (tested : Expression w test)
    (divides : colon.kind = .punct .colon) (inside : Statements enclosing v t body)
    (others : SomeClauses enclosing seenDefault (t :: u)) :
    SomeClauses enclosing seenDefault (word :: w ++ colon :: v ++ t :: u) := by
  obtain ⟨u, close, cases, same, closes, others, single⟩ := others
  rw [← headD_of_cons_eq same] at inside
  refine ⟨_, close, _, ?_, closes, .case is tested divides inside others, ?_⟩
  · rw [same, ← List.append_assoc]
  · rw [defaults_case]
    exact single

theorem SomeClauses.default (is : word.kind = .keyword .default)
    (divides : colon.kind = .punct .colon) (inside : Statements enclosing v t body)
    (others : SomeClauses enclosing true (t :: u)) :
    SomeClauses enclosing false (word :: colon :: v ++ t :: u) := by
  obtain ⟨u, close, cases, same, closes, others, single⟩ := others
  rw [← headD_of_cons_eq same] at inside
  refine ⟨_, close, _, ?_, closes, .default is divides inside others, ?_⟩
  · rw [same, List.append_assoc]
  · rw [defaults_default]
    exact Nat.succ_le_succ single

end Some

/-- What `Parse.Pinpoints` says, of the statements of a clause. -/
def BodyPinpoints (enclosing : Enclosing) (c : Cursor) : Prop :=
  ∀ ⦃e : ParseError⦄ ⦃bound : Nat⦄ (shorter : c.remaining < bound),
    clauseBody enclosing c shorter = .error e → c.GoesWrong e
      (fun c' => ∀ {bound : Nat} (shorter : c'.remaining < bound),
        clauseBody enclosing c' shorter = .error e) (SomeBody enclosing)

section Statements

variable {enclosing : Enclosing} {c : Cursor} {word : Step Token c.remaining}

theorem statement_wrong_block (taken : c.take? (.punct .openBrace) = some word)
    (inside : Parse.Pinpoints (block enclosing) (SomeBlock enclosing) word.next) :
    Parse.Pinpoints (statement enclosing) (SomeStatement enclosing) c := by
  intro e fails
  rw [statement_block taken] at fails
  obtain ⟨opens, first⟩ := Cursor.take?_eq_some taken
  rcases Parse.bind_eq_error fails with bodyFails | ⟨body, -, same⟩
  · refine (inside bodyFails).through first ?_ ?_
    · rintro v ⟨u, close, body, rfl, closes, inside⟩ next _
      exact ⟨_, .block opens inside closes⟩
    · intro c' m' _ passes' _ fails
      obtain ⟨_, taken⟩ := Cursor.take?_one passes' opens
      rw [statement_block taken, fails]
      rfl
  · cases same

theorem statement_wrong_if (closed : c.Closed) (taken : c.take? (.keyword .if) = some word)
    (branches : ∀ m : Cursor, m.remaining < c.remaining → m.Closed →
      Parse.Pinpoints (statement enclosing) (SomeStatement enclosing) m) :
    Parse.Pinpoints (statement enclosing) (SomeStatement enclosing) c := by
  intro e fails
  rw [statement_if taken] at fails
  obtain ⟨is, first⟩ := Cursor.take?_eq_some taken
  have inside := closed.passes first
  rcases Parse.bind_eq_error fails with testFails | ⟨test, testReads, fails⟩
  · refine (condition_wrong word.next inside testFails).after first [.mark .semicolon] ?_ ?_
    · rintro v line ⟨test, condition⟩ next alone
      exact ⟨_, .if is condition (.empty rfl) alone⟩
    · intro c' m' _ passes' _ fails
      obtain ⟨_, taken⟩ := Cursor.take?_one passes' is
      rw [statement_if taken, fails]
      rfl
  · obtain ⟨v, tests, condition⟩ := condition_reads word.next inside test testReads
    have afterTest := Nat.lt_trans test.shorter word.shorter
    have before := first.trans tests
    rcases Parse.bind_eq_error fails with yesFails | ⟨yes, yesReads, fails⟩
    · refine (branches test.next afterTest (closed.passes before) yesFails).through before ?_ ?_
      · intro w whole next alone
        obtain ⟨yes, branch⟩ := whole next alone
        exact ⟨_, .if is condition branch alone⟩
      · intro c' m' _ passes' _ fails
        obtain ⟨k, passes', last⟩ := passes'.split
        obtain ⟨_, taken⟩ := Cursor.take?_one passes' is
        obtain ⟨_, testReads⟩ := condition.gives last
        rw [statement_if taken]
        simp only [bind, Except.bind, testReads, fails]
    · obtain ⟨w, passes, branch⟩ := statement_reads enclosing test.next (closed.passes before) yes
        yesReads
      split at fails
      · next other taken =>
          obtain ⟨otherwise, second⟩ := Cursor.take?_eq_some taken
          have afterOther := Nat.lt_trans other.shorter (Nat.lt_trans yes.shorter afterTest)
          have through := (before.trans passes).trans second
          have here : yes.next.token = other.value := second.token
          rw [here] at branch
          rcases Parse.bind_eq_error fails with noFails | ⟨no, -, same⟩
          · refine (branches other.next afterOther (closed.passes through) noFails).through through
              ?_ ?_
            · intro u whole next alone
              obtain ⟨no, rest⟩ := whole next alone
              exact ⟨_, by simpa using Statement.ifElse is condition branch otherwise rest⟩
            · intro c' m' _ passes' _ fails
              obtain ⟨k, passes', last⟩ := passes'.split
              obtain ⟨k', passes', second'⟩ := passes'.split
              obtain ⟨k'', passes', tests'⟩ := passes'.split
              obtain ⟨_, taken⟩ := Cursor.take?_one passes' is
              obtain ⟨_, testReads⟩ := condition.gives tests'
              obtain ⟨_, yesReads⟩ := branch.gives second' last.token
              obtain ⟨_, takenOther⟩ := Cursor.take?_one last otherwise
              rw [statement_if taken]
              simp only [bind, Except.bind, testReads, yesReads, takenOther, fails]
          · cases same
      · cases fails

theorem statement_wrong_while (closed : c.Closed) (taken : c.take? (.keyword .while) = some word)
    (turns : ∀ m : Cursor, m.remaining < c.remaining → m.Closed →
      Parse.Pinpoints (statement { enclosing with loop := true })
        (SomeStatement { enclosing with loop := true }) m) :
    Parse.Pinpoints (statement enclosing) (SomeStatement enclosing) c := by
  intro e fails
  rw [statement_while taken] at fails
  obtain ⟨is, first⟩ := Cursor.take?_eq_some taken
  have inside := closed.passes first
  rcases Parse.bind_eq_error fails with testFails | ⟨test, testReads, fails⟩
  · refine (condition_wrong word.next inside testFails).after first [.mark .semicolon] ?_ ?_
    · rintro v line ⟨test, condition⟩ next _
      exact ⟨_, .while is condition (.empty rfl)⟩
    · intro c' m' _ passes' _ fails
      obtain ⟨_, taken⟩ := Cursor.take?_one passes' is
      rw [statement_while taken, fails]
      rfl
  · obtain ⟨v, tests, condition⟩ := condition_reads word.next inside test testReads
    have afterTest := Nat.lt_trans test.shorter word.shorter
    have before := first.trans tests
    rcases Parse.bind_eq_error fails with turnFails | ⟨turn, -, same⟩
    · refine (turns test.next afterTest (closed.passes before) turnFails).through before ?_ ?_
      · intro w whole next apart
        obtain ⟨body, turn⟩ := whole next apart
        exact ⟨_, .while is condition turn⟩
      · intro c' m' _ passes' _ fails
        obtain ⟨k, passes', last⟩ := passes'.split
        obtain ⟨_, taken⟩ := Cursor.take?_one passes' is
        obtain ⟨_, testReads⟩ := condition.gives last
        rw [statement_while taken]
        simp only [bind, Except.bind, testReads, fails]
    · cases same

theorem statement_wrong_switch (closed : c.Closed)
    (taken : c.take? (.keyword .switch) = some word)
    (clauses : ∀ m : Cursor, m.remaining < c.remaining → m.Closed →
      Parse.Pinpoints (clauses { enclosing with switch := true } false)
        (SomeClauses { enclosing with switch := true } false) m) :
    Parse.Pinpoints (statement enclosing) (SomeStatement enclosing) c := by
  intro e fails
  rw [statement_switch taken] at fails
  obtain ⟨is, first⟩ := Cursor.take?_eq_some taken
  have inside := closed.passes first
  rcases Parse.bind_eq_error fails with subjectFails | ⟨subject, subjectReads, fails⟩
  · refine (condition_wrong word.next inside subjectFails).after first
      [.mark .openBrace, .mark .closeBrace] ?_ ?_
    · rintro v line ⟨subject, condition⟩ next _
      exact ⟨_, by simpa using Statement.switch is condition rfl .nil rfl (Nat.zero_le 1)⟩
    · intro c' m' _ passes' _ fails
      obtain ⟨_, taken⟩ := Cursor.take?_one passes' is
      rw [statement_switch taken, fails]
      rfl
  · obtain ⟨v, subjects, condition⟩ := condition_reads word.next inside subject subjectReads
    have before := first.trans subjects
    rcases Parse.bind_eq_error fails with openingFails | ⟨opening, openingReads, fails⟩
    · refine (Cursor.expectMark_wrong (closed.passes before) openingFails).after before
        [.mark .closeBrace] ?_ ?_
      · rintro w line ⟨t, rfl, opens⟩ next _
        exact ⟨_, by simpa using Statement.switch is condition opens .nil rfl (Nat.zero_le 1)⟩
      · intro c' m' _ passes' _ fails
        obtain ⟨k, passes', last⟩ := passes'.split
        obtain ⟨_, taken⟩ := Cursor.take?_one passes' is
        obtain ⟨_, subjectReads⟩ := condition.gives last
        rw [statement_switch taken]
        simp only [bind, Except.bind, subjectReads, fails]
    · obtain ⟨opens, second⟩ := Cursor.expectMark_eq_ok openingReads
      have afterOpening := Nat.lt_trans opening.shorter (Nat.lt_trans subject.shorter word.shorter)
      have through := before.trans second
      rcases Parse.bind_eq_error fails with clausesFail | ⟨_, -, same⟩
      · refine (clauses opening.next afterOpening (closed.passes through) clausesFail).through
          through ?_ ?_
        · rintro w ⟨u, close, cases, rfl, closes, inside, single⟩ next _
          exact ⟨_, by simpa using Statement.switch is condition opens inside closes single⟩
        · intro c' m' _ passes' _ fails
          obtain ⟨k, passes', last⟩ := passes'.split
          obtain ⟨k', passes', subjects'⟩ := passes'.split
          obtain ⟨_, taken⟩ := Cursor.take?_one passes' is
          obtain ⟨_, subjectReads⟩ := condition.gives subjects'
          obtain ⟨_, openingReads⟩ := Cursor.expectMark_one last opens
          rw [statement_switch taken]
          simp only [bind, Except.bind, subjectReads, openingReads, fails]
      · cases same

theorem statement_wrong_simple (closed : c.Closed) (plain : ¬ Opens c.kind) :
    Parse.Pinpoints (statement enclosing) (SomeStatement enclosing) c := by
  intro e fails
  rw [statement_eq_simple enclosing plain] at fails
  refine (simple_wrong enclosing c closed fails).imp (fun _ whole next _ => whole next) ?_
  intro c' same fails
  rw [statement_eq_simple enclosing (Cursor.kind_of_token same ▸ plain)]
  exact fails

theorem block_wrong_stop (closed : c.Closed) (stops : c.kind = .endOfInput) :
    Parse.Pinpoints (block enclosing) (SomeBlock enclosing) c := by
  refine .refused closed (.mark .closeBrace) [.mark .closeBrace] (fun _ => .none rfl) ?_
  intro c' _ same
  have stops := (Cursor.kind_of_token same).trans stops
  have unclosed : c'.kind ≠ .punct .closeBrace := by simp [stops]
  rw [block]
  simp only [Cursor.takeMark?, Cursor.take?_of_ne unclosed, if_pos stops, Cursor.fail, same]

theorem block_wrong_cons (closed : c.Closed) (noBrace : c.kind ≠ .punct .closeBrace)
    (inside : c.kind ≠ .endOfInput)
    (first : Parse.Pinpoints (statement enclosing) (SomeStatement enclosing) c)
    (others : ∀ m : Cursor, m.remaining < c.remaining → m.Closed →
      Parse.Pinpoints (block enclosing) (SomeBlock enclosing) m) :
    Parse.Pinpoints (block enclosing) (SomeBlock enclosing) c := by
  intro e fails
  have leads {c' : Cursor} (same : c'.token = c.token) : block enclosing c' = do
      let first ← statement enclosing c'
      let more ← block enclosing first.next
      return (first.andThen more).map (first.value :: ·) := by
    have kind := Cursor.kind_of_token same
    rw [block]
    simp only [Cursor.takeMark?, Cursor.take?_of_ne (kind ▸ noBrace), if_neg (kind ▸ inside)]
  rw [leads rfl] at fails
  rcases Parse.bind_eq_error fails with firstFails | ⟨step, stepReads, fails⟩
  · refine (first firstFails).first [.mark .closeBrace] ?_ ?_
    · intro v line whole
      obtain ⟨s, derived⟩ := whole (PutIn.token line (.mark .closeBrace)) nofun
      exact .cons derived (.none rfl)
    · intro c' same fails
      rw [leads same, fails]
      rfl
  · obtain ⟨w, passes, derived⟩ := statement_reads enclosing c closed step stepReads
    rcases Parse.bind_eq_error fails with othersFail | ⟨_, -, same⟩
    · refine (others step.next step.shorter (closed.passes passes) othersFail).afterStatements
        passes [.mark .closeBrace] ?_ ?_ ?_
      · -- the first statement may have ended only because the wrong token is on a later line
        intro line
        exact .cons (derived.stopped (.inl rfl)) (.none rfl)
      · intro v others
        exact .cons derived others
      · intro c' m' same passes' next fails
        obtain ⟨_, stepReads⟩ := derived.gives passes' next
        rw [leads same]
        simp only [bind, Except.bind, stepReads, fails]
    · cases same

theorem bodyPinpoints_cons (closed : c.Closed) (begins : endsClause c.kind = false)
    (first : Parse.Pinpoints (statement enclosing) (SomeStatement enclosing) c)
    (others : ∀ m : Cursor, m.remaining < c.remaining → m.Closed → BodyPinpoints enclosing m) :
    BodyPinpoints enclosing c := by
  intro e bound shorter fails
  have begins' {c' : Cursor} (same : c'.token = c.token) : ¬ endsClause c'.kind = true := by
    rw [Cursor.kind_of_token same, begins]
    exact Bool.false_ne_true
  rw [clauseBody, if_neg (begins' rfl)] at fails
  rcases Parse.bind_eq_error fails with firstFails | ⟨step, stepReads, fails⟩
  · refine (first firstFails).imp ?_ ?_
    · intro v whole close closes
      obtain ⟨s, derived⟩ := whole close (by simp [closes])
      exact ⟨_, .one derived⟩
    · intro c' same fails bound shorter
      rw [clauseBody, if_neg (begins' same), fails]
      rfl
  · obtain ⟨w, passes, derived⟩ := statement_reads enclosing c closed step stepReads
    rcases Parse.bind_eq_error fails with othersFail | ⟨_, -, same⟩
    · refine (others step.next step.shorter (closed.passes passes) _ othersFail).afterStatements
        passes [] ?_ ?_ ?_
      · intro line close closes
        rw [List.map_nil, List.append_nil]
        exact ⟨_, .one (derived.stopped (.inl closes))⟩
      · intro v others
        exact .cons derived others
      · intro c' m' same passes' next fails bound shorter
        obtain ⟨_, stepReads⟩ := derived.gives passes' next
        rw [clauseBody, if_neg (begins' same)]
        simp only [bind, Except.bind, stepReads]
        rw [fails]
    · cases same

end Statements

theorem clauseBody_ends (enclosing : Enclosing) (c : Cursor) {bound : Nat}
    (shorter : c.remaining < bound) {step : Step (List Stmt) bound}
    (reads : clauseBody enclosing c shorter = .ok step) : endsClause step.next.kind = true := by
  rw [clauseBody] at reads
  split at reads
  · next ends =>
      cases reads
      exact ends
  · obtain ⟨first, -, reads⟩ := Parse.bind_eq_ok reads
    obtain ⟨more, moreReads, same⟩ := Parse.bind_eq_ok reads
    cases same
    have afterFirst := first.shorter
    have ends := clauseBody_ends enclosing first.next _ moreReads
    exact ends
termination_by c.remaining

section Clauses

variable {enclosing : Enclosing} {seenDefault : Bool} {c : Cursor} {word : Step Token c.remaining}

theorem clauses_wrong_case (closed : c.Closed) (taken : c.take? (.keyword .case) = some word)
    (bodies : ∀ m : Cursor, m.remaining < c.remaining → m.Closed → BodyPinpoints enclosing m)
    (others : ∀ m : Cursor, m.remaining < c.remaining → m.Closed →
      Parse.Pinpoints (clauses enclosing seenDefault) (SomeClauses enclosing seenDefault) m) :
    Parse.Pinpoints (clauses enclosing seenDefault) (SomeClauses enclosing seenDefault) c := by
  intro e fails
  rw [clauses_case taken] at fails
  obtain ⟨is, first⟩ := Cursor.take?_eq_some taken
  have inside := closed.passes first
  rcases Parse.bind_eq_error fails with testFails | ⟨test, testReads, fails⟩
  · refine (chain_wrong _ word.next inside testFails).after first
      [.mark .colon, .mark .closeBrace] ?_ ?_
    · rintro v line ⟨test, tested⟩
      have divides : (PutIn.token line (.mark .colon)).kind = .punct .colon := rfl
      simpa using SomeClauses.case is tested divides .nil (SomeClauses.none rfl)
    · intro c' m' _ passes' _ fails
      obtain ⟨_, taken⟩ := Cursor.take?_one passes' is
      rw [clauses_case taken, expression, fails]
      rfl
  · obtain ⟨w, tests, tested, apart⟩ := expression_reads word.next inside test testReads
    have before := first.trans tests
    rcases Parse.bind_eq_error fails with colonFails | ⟨colon, colonReads, fails⟩
    · refine (Cursor.expectMark_wrong (closed.passes before) colonFails).after before
        [.mark .closeBrace] ?_ ?_
      · rintro v line ⟨t, rfl, divides⟩
        simpa using SomeClauses.case is tested divides .nil (SomeClauses.none rfl)
      · intro c' m' _ passes' next fails
        obtain ⟨k, passes', last⟩ := passes'.split
        obtain ⟨_, taken⟩ := Cursor.take?_one passes' is
        obtain ⟨_, testReads⟩ := Expression.gives tested last (Cursor.kind_of_token next ▸ apart)
        rw [clauses_case taken]
        simp only [bind, Except.bind, testReads, fails]
    · obtain ⟨divides, second⟩ := Cursor.expectMark_eq_ok colonReads
      have afterTest := Nat.lt_trans test.shorter word.shorter
      have afterColon := Nat.lt_trans colon.shorter afterTest
      have before := before.trans second
      rcases Parse.bind_eq_error fails with bodyFails | ⟨body, bodyReads, fails⟩
      · refine (bodies colon.next afterColon (closed.passes before) colon.shorter
          bodyFails).after before [.mark .closeBrace] ?_ ?_
        · intro v line whole
          obtain ⟨body, inside⟩ := whole (PutIn.token line (.mark .closeBrace)) rfl
          simpa using SomeClauses.case is tested divides inside (SomeClauses.none rfl)
        · intro c' m' _ passes' _ fails
          obtain ⟨k, passes', last⟩ := passes'.split
          obtain ⟨k', passes', tests'⟩ := passes'.split
          have between : k.kind = test.next.kind := last.kind.trans second.kind.symm
          obtain ⟨_, taken⟩ := Cursor.take?_one passes' is
          obtain ⟨_, testReads⟩ := Expression.gives tested tests' (between ▸ apart)
          obtain ⟨_, colonReads⟩ := Cursor.expectMark_one last divides
          rw [clauses_case taken]
          simp only [bind, Except.bind, testReads, colonReads]
          rw [fails]
      · obtain ⟨v, passes, inside⟩ := clauseBody_reads enclosing colon.next colon.shorter
          (closed.passes before) body bodyReads
        have ends := clauseBody_ends enclosing colon.next colon.shorter bodyReads
        have through := before.trans passes
        rcases Parse.bind_eq_error fails with othersFail | ⟨_, -, same⟩
        · refine (others body.next (Nat.lt_trans body.shorter afterTest) (closed.passes through)
            othersFail).afterStatements through [.mark .closeBrace] ?_ ?_ ?_
          · intro line
            simpa using
              SomeClauses.case is tested divides (inside.stopped (.inl rfl)) (.none rfl)
          · intro u others
            simpa using SomeClauses.case is tested divides inside others
          · intro c' m' _ passes' next fails
            obtain ⟨k, passes', bodies'⟩ := passes'.split
            obtain ⟨k', passes', last⟩ := passes'.split
            obtain ⟨k'', passes', tests'⟩ := passes'.split
            have between : k'.kind = test.next.kind := last.kind.trans second.kind.symm
            obtain ⟨_, taken⟩ := Cursor.take?_one passes' is
            obtain ⟨_, testReads⟩ := Expression.gives tested tests' (between ▸ apart)
            obtain ⟨afterColon, colonReads⟩ := Cursor.expectMark_one last divides
            obtain ⟨_, bodyReads⟩ := inside.gives_body bodies' next ends _ afterColon
            rw [clauses_case taken]
            simp only [bind, Except.bind, testReads, colonReads, bodyReads, fails]
        · cases same

theorem clauses_wrong_default (closed : c.Closed)
    (taken : c.take? (.keyword .default) = some word)
    (bodies : ∀ m : Cursor, m.remaining < c.remaining → m.Closed → BodyPinpoints enclosing m)
    (others : ∀ m : Cursor, m.remaining < c.remaining → m.Closed →
      Parse.Pinpoints (clauses enclosing true) (SomeClauses enclosing true) m) :
    Parse.Pinpoints (clauses enclosing false) (SomeClauses enclosing false) c := by
  intro e fails
  rw [clauses_default taken, if_neg Bool.false_ne_true] at fails
  obtain ⟨is, first⟩ := Cursor.take?_eq_some taken
  have inside := closed.passes first
  rcases Parse.bind_eq_error fails with colonFails | ⟨colon, colonReads, fails⟩
  · refine (Cursor.expectMark_wrong inside colonFails).after first [.mark .closeBrace] ?_ ?_
    · rintro v line ⟨t, rfl, divides⟩
      exact .default is divides .nil (.none rfl)
    · intro c' m' _ passes' next fails
      obtain ⟨_, taken⟩ := Cursor.take?_one passes' is
      rw [clauses_default taken, if_neg Bool.false_ne_true, fails]
      rfl
  · obtain ⟨divides, second⟩ := Cursor.expectMark_eq_ok colonReads
    have afterColon := Nat.lt_trans colon.shorter word.shorter
    have before := first.trans second
    rcases Parse.bind_eq_error fails with bodyFails | ⟨body, bodyReads, fails⟩
    · refine (bodies colon.next afterColon (closed.passes before) colon.shorter
        bodyFails).after before [.mark .closeBrace] ?_ ?_
      · intro v line whole
        obtain ⟨body, inside⟩ := whole (PutIn.token line (.mark .closeBrace)) rfl
        exact .default is divides inside (.none rfl)
      · intro c' m' _ passes' _ fails
        obtain ⟨k, passes', last⟩ := passes'.split
        obtain ⟨_, taken⟩ := Cursor.take?_one passes' is
        obtain ⟨_, colonReads⟩ := Cursor.expectMark_one last divides
        rw [clauses_default taken, if_neg Bool.false_ne_true]
        simp only [bind, Except.bind, colonReads]
        rw [fails]
    · obtain ⟨v, passes, inside⟩ := clauseBody_reads enclosing colon.next colon.shorter
        (closed.passes before) body bodyReads
      have ends := clauseBody_ends enclosing colon.next colon.shorter bodyReads
      have through := before.trans passes
      rcases Parse.bind_eq_error fails with othersFail | ⟨_, -, same⟩
      · refine (others body.next (Nat.lt_trans body.shorter word.shorter) (closed.passes through)
          othersFail).afterStatements through [.mark .closeBrace] ?_ ?_ ?_
        · intro line
          exact .default is divides (inside.stopped (.inl rfl)) (.none rfl)
        · intro u others
          exact .default is divides inside others
        · intro c' m' _ passes' next fails
          obtain ⟨k, passes', bodies'⟩ := passes'.split
          obtain ⟨k', passes', last⟩ := passes'.split
          obtain ⟨_, taken⟩ := Cursor.take?_one passes' is
          obtain ⟨afterColon, colonReads⟩ := Cursor.expectMark_one last divides
          obtain ⟨_, bodyReads⟩ := inside.gives_body bodies' next ends _ afterColon
          rw [clauses_default taken, if_neg Bool.false_ne_true]
          simp only [bind, Except.bind, colonReads, bodyReads, fails]
      · cases same

theorem clauses_wrong_again (closed : c.Closed) (is : c.kind = .keyword .default) :
    Parse.Pinpoints (clauses enclosing true) (SomeClauses enclosing true) c := by
  refine .refused closed .singleDefault [.mark .closeBrace] (fun _ => .none rfl) ?_
  intro c' closed' same
  obtain ⟨_, _, taken⟩ := Cursor.take?_of_closed closed' ((Cursor.kind_of_token same).trans is)
  rw [clauses_default taken, if_pos rfl, same]

theorem clauses_wrong_other (closed : c.Closed) (noBrace : c.kind ≠ .punct .closeBrace)
    (noCase : c.kind ≠ .keyword .case) (noDefault : c.kind ≠ .keyword .default) :
    Parse.Pinpoints (clauses enclosing seenDefault) (SomeClauses enclosing seenDefault) c := by
  refine .refused closed .clause [.mark .closeBrace] (fun _ => .none rfl) ?_
  intro c' _ same
  rw [← Cursor.kind_of_token same] at noBrace noCase noDefault
  rw [clauses]
  simp only [Cursor.takeMark?, Cursor.take?_of_ne noBrace, Cursor.take?_of_ne noCase,
    Cursor.take?_of_ne noDefault, Cursor.fail, same]

end Clauses

mutual

theorem statement_wrong (enclosing : Enclosing) (c : Cursor) (closed : c.Closed) :
    Parse.Pinpoints (statement enclosing) (SomeStatement enclosing) c := by
  by_cases opens : Opens c.kind
  · rcases opens with marked | opens | is | is | is
    · intro e fails
      obtain ⟨m, shorter, taken⟩ := Cursor.take?_of_closed closed marked
      rw [statement_empty taken] at fails
      cases fails
    · obtain ⟨m, shorter, taken⟩ := Cursor.take?_of_closed closed opens
      have first := (Cursor.take?_eq_some taken).2
      exact statement_wrong_block taken (block_wrong enclosing m (closed.passes first))
    · obtain ⟨m, shorter, taken⟩ := Cursor.take?_of_closed closed is
      exact statement_wrong_if closed taken fun m _ => statement_wrong enclosing m
    · obtain ⟨m, shorter, taken⟩ := Cursor.take?_of_closed closed is
      exact statement_wrong_while closed taken fun m _ => statement_wrong _ m
    · obtain ⟨m, shorter, taken⟩ := Cursor.take?_of_closed closed is
      exact statement_wrong_switch closed taken fun m _ => clauses_wrong _ false m
  · exact statement_wrong_simple closed opens
termination_by (c.remaining, 0)

theorem block_wrong (enclosing : Enclosing) (c : Cursor) (closed : c.Closed) :
    Parse.Pinpoints (block enclosing) (SomeBlock enclosing) c := by
  by_cases closes : c.kind = .punct .closeBrace
  · intro e fails
    obtain ⟨m, shorter, taken⟩ := Cursor.take?_of_closed closed closes
    rw [block, Cursor.takeMark?, taken] at fails
    cases fails
  · by_cases stops : c.kind = .endOfInput
    · exact block_wrong_stop closed stops
    · exact block_wrong_cons closed closes stops (statement_wrong enclosing c closed)
        fun m _ => block_wrong enclosing m
termination_by (c.remaining, 1)

theorem clauses_wrong (enclosing : Enclosing) (seenDefault : Bool) (c : Cursor)
    (closed : c.Closed) :
    Parse.Pinpoints (clauses enclosing seenDefault) (SomeClauses enclosing seenDefault) c := by
  by_cases closes : c.kind = .punct .closeBrace
  · intro e fails
    obtain ⟨m, shorter, taken⟩ := Cursor.take?_of_closed closed closes
    rw [clauses, Cursor.takeMark?, taken] at fails
    cases fails
  · by_cases is : c.kind = .keyword .case
    · obtain ⟨m, shorter, taken⟩ := Cursor.take?_of_closed closed is
      exact clauses_wrong_case closed taken (fun m _ => clauseBody_wrong enclosing m)
        fun m _ => clauses_wrong enclosing seenDefault m
    · by_cases isDefault : c.kind = .keyword .default
      · cases seenDefault with
        | false =>
            obtain ⟨m, shorter, taken⟩ := Cursor.take?_of_closed closed isDefault
            exact clauses_wrong_default closed taken (fun m _ => clauseBody_wrong enclosing m)
              fun m _ => clauses_wrong enclosing true m
        | true => exact clauses_wrong_again closed isDefault
      · exact clauses_wrong_other closed closes is isDefault
termination_by (c.remaining, 0)

theorem clauseBody_wrong (enclosing : Enclosing) (c : Cursor) (closed : c.Closed) :
    BodyPinpoints enclosing c := by
  by_cases ends : endsClause c.kind = true
  · intro e bound shorter fails
    rw [clauseBody, if_pos ends] at fails
    cases fails
  · exact bodyPinpoints_cons closed (by simpa using ends) (statement_wrong enclosing c closed)
      fun m _ => clauseBody_wrong enclosing m
termination_by (c.remaining, 1)

end

end Grammar

end Script
