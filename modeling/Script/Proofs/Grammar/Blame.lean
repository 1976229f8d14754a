import Script.Proofs.Grammar.Soundness

/-!
What an error names. A reader that fails names the token at a cursor that it has come to.
-/

namespace Script

def Parse.Blames {α : Type} (p : Except ParseError α) (c : Cursor) : Prop :=
  ∀ e, p = .error e → ∃ w d, c.Passes w d ∧ e.found = d.token

section Blames

variable {α β : Type} {c d : Cursor} {w : List Token}

theorem Parse.Blames.bind {p : Except ParseError α} {next : α → Except ParseError β}
    (first : Blames p c) (second : ∀ a, p = .ok a → Blames (next a) c) :
    Blames (p >>= next) c := by
  intro e fails
  cases reads : p with
  | error other =>
      rw [reads] at fails
      cases fails
      exact first e reads
  | ok a =>
      rw [reads] at fails
      exact second a reads e fails

theorem Parse.Blames.after {p : Except ParseError α} (blames : Blames p d)
    (passes : c.Passes w d) : Blames p c := by
  intro e fails
  obtain ⟨v, last, more, named⟩ := blames e fails
  exact ⟨w ++ v, last, passes.trans more, named⟩

theorem Parse.Blames.ok (a : α) : Blames (Except.ok a : Except ParseError α) c := by
  intro e fails
  cases fails

theorem Parse.Blames.here (expected : Expected) :
    Blames (.error ⟨expected, c.token⟩ : Except ParseError α) c := by
  intro e fails
  cases fails
  exact ⟨[], c, .refl c, rfl⟩

theorem Parse.Blames.taken {t : Token} (passes : c.Passes [t] d) (expected : Expected) :
    Blames (.error ⟨expected, t⟩ : Except ParseError α) c := by
  rw [show t = c.token from passes.token.symm]
  exact here expected

theorem Cursor.expectAs_blames (read : Kind → Option α) (expected : Expected) (c : Cursor) :
    Parse.Blames (c.expectAs read expected) c := by
  unfold Cursor.expectAs
  split
  · exact .ok _
  · exact .here expected

theorem Cursor.expectMark_blames (mark : Punct) (c : Cursor) :
    Parse.Blames (c.expectMark mark) c := by
  unfold Cursor.expectMark
  split
  · exact .ok _
  · exact .here _

end Blames

namespace Grammar

mutual

theorem chain_blames (level : Nat) (c : Cursor) (closed : c.Closed) :
    Parse.Blames (chain level c) c := by
  cases level with
  | zero =>
      rw [chain]
      exact unary_blames c closed
  | succ tighter =>
      rw [chain]
      apply (chain_blames tighter c closed).bind
      intro left leftReads
      obtain ⟨w, passes, -⟩ := chain_reads tighter c closed left leftReads
      have shorter := left.shorter
      exact (chainRest_blames tighter left.value left.next left.shorter
        (closed.passes passes)).after passes
termination_by (c.remaining, level + 3)

theorem chainRest_blames (tighter : Nat) (left : Expr) (c : Cursor) {bound : Nat}
    (shorter : c.remaining < bound) (closed : c.Closed) :
    Parse.Blames (chainRest tighter left c shorter) c := by
  rw [chainRest]
  split
  · exact .ok _
  · next connective taken =>
      have first := (Cursor.takeAs_eq_some taken).2
      have afterConnective := connective.shorter
      have closed := closed.passes first
      have operand := (chain_blames tighter connective.next closed).after first
      apply operand.bind
      intro right rightReads
      obtain ⟨v, passes, -⟩ := chain_reads tighter connective.next closed right rightReads
      have afterRight := right.shorter
      exact (chainRest_blames tighter _ right.next _ (closed.passes passes)).after
        (first.trans passes)
termination_by (c.remaining, 0)

theorem unary_blames (c : Cursor) (closed : c.Closed) : Parse.Blames (unary c) c := by
  rw [unary]
  split
  · next op taken =>
      have first := (Cursor.takeAs_eq_some taken).2
      have shorter := op.shorter
      have operand := (unary_blames op.next (closed.passes first)).after first
      exact operand.bind fun _ _ => .ok _
  · apply (primary_blames c closed).bind
    intro object objectReads
    obtain ⟨w, passes, -⟩ := primary_reads c closed object objectReads
    have shorter := object.shorter
    exact (postfixRest_blames object.value object.next object.shorter
      (closed.passes passes)).after passes
termination_by (c.remaining, 2)

theorem postfixRest_blames (object : Expr) (c : Cursor) {bound : Nat}
    (shorter : c.remaining < bound) (closed : c.Closed) :
    Parse.Blames (postfixRest object c shorter) c := by
  rw [postfixRest]
  split
  · next dot taken =>
      have first := (Cursor.take?_eq_some taken).2
      apply ((Cursor.expectAs_blames _ _ dot.next).after first).bind
      intro name nameReads
      have second := (Cursor.expectAs_eq_ok nameReads).2
      have afterDot := dot.shorter
      have afterName := name.shorter
      have passes := first.trans second
      exact (postfixRest_blames _ name.next _ (closed.passes passes)).after passes
  · split
    · next opening taken =>
        have first := (Cursor.take?_eq_some taken).2
        have afterOpening := opening.shorter
        have inside := chain_blames Connective.loosest opening.next (closed.passes first)
        apply (inside.after first).bind
        intro position positionReads
        obtain ⟨v, passes, -⟩ := chain_reads _ opening.next (closed.passes first) position
          positionReads
        have before := first.trans passes
        apply ((Cursor.expectMark_blames _ position.next).after before).bind
        intro closing closingReads
        have last := (Cursor.expectMark_eq_ok closingReads).2
        have afterPosition := position.shorter
        have afterClosing := closing.shorter
        have passes := before.trans last
        exact (postfixRest_blames _ closing.next _ (closed.passes passes)).after passes
    · split
      · next opening taken =>
          have first := (Cursor.take?_eq_some taken).2
          have afterOpening := opening.shorter
          have inside := items_blames .closeParen opening.next (closed.passes first)
          apply (inside.after first).bind
          intro arguments argumentsRead
          obtain ⟨v, passes, -⟩ := items_reads _ opening.next (closed.passes first) arguments
            argumentsRead
          have afterArguments := arguments.shorter
          have passes := first.trans passes
          exact (postfixRest_blames _ arguments.next _ (closed.passes passes)).after passes
      · exact .ok _
termination_by (c.remaining, 0)

theorem items_blames (closing : Punct) (c : Cursor) (closed : c.Closed) :
    Parse.Blames (items closing c) c := by
  rw [items]
  split
  · exact .ok _
  · apply (chain_blames Connective.loosest c closed).bind
    intro item itemReads
    obtain ⟨w, passes, -⟩ := chain_reads _ c closed item itemReads
    have afterItem := item.shorter
    split
    · next comma taken =>
        have second := (Cursor.take?_eq_some taken).2
        have afterComma := comma.shorter
        have before := passes.trans second
        have others := items_blames closing comma.next (closed.passes before)
        exact (others.after before).bind fun _ _ => .ok _
    · split
      · exact .ok _
      · exact (Parse.Blames.here _).after passes
termination_by (c.remaining, Connective.loosest + 4)

theorem primary_blames (c : Cursor) (closed : c.Closed) : Parse.Blames (primary c) c := by
  rw [primary]
  split
  · exact .ok _
  · split
    · next opening taken =>
        have first := (Cursor.take?_eq_some taken).2
        have shorter := opening.shorter
        have inside := items_blames .closeBracket opening.next (closed.passes first)
        exact (inside.after first).bind fun _ _ => .ok _
    · split
      · next opening taken =>
          have first := (Cursor.take?_eq_some taken).2
          have shorter := opening.shorter
          have inside := chain_blames Connective.loosest opening.next (closed.passes first)
          apply (inside.after first).bind
          intro inner innerReads
          obtain ⟨v, passes, -⟩ := chain_reads _ opening.next (closed.passes first) inner innerReads
          have last := (Cursor.expectMark_blames .closeParen inner.next).after (first.trans passes)
          exact last.bind fun _ _ => .ok _
      · exact .here _
termination_by (c.remaining, 1)

end

theorem expression_blames (c : Cursor) (closed : c.Closed) : Parse.Blames (expression c) c :=
  chain_blames Connective.loosest c closed

theorem condition_blames (c : Cursor) (closed : c.Closed) : Parse.Blames (condition c) c := by
  apply (Cursor.expectMark_blames _ c).bind
  intro opening openingReads
  have first := (Cursor.expectMark_eq_ok openingReads).2
  have inside := expression_blames opening.next (closed.passes first)
  apply (inside.after first).bind
  intro test testReads
  obtain ⟨w, passes, -⟩ := expression_reads opening.next (closed.passes first) test testReads
  have last := (Cursor.expectMark_blames .closeParen test.next).after (first.trans passes)
  exact last.bind fun _ _ => .ok _

theorem declaration_blames (kind : DeclKind) (pos : Pos) (c : Cursor) (closed : c.Closed) :
    Parse.Blames (declaration kind pos c) c := by
  apply (Cursor.expectAs_blames _ _ c).bind
  intro name nameReads
  have first := (Cursor.expectAs_eq_ok nameReads).2
  split
  · next equals taken =>
      have before := first.trans (Cursor.take?_eq_some taken).2
      have value := expression_blames equals.next (closed.passes before)
      exact (value.after before).bind fun _ _ => .ok _
  · split
    · exact (Parse.Blames.here _).after first
    · exact .ok _

theorem expressionOrAssignment_blames (c : Cursor) (closed : c.Closed) :
    Parse.Blames (expressionOrAssignment c) c := by
  apply (expression_blames c closed).bind
  intro left leftReads
  obtain ⟨w, passes, -⟩ := expression_reads c closed left leftReads
  split
  · next equals taken =>
      have second := (Cursor.take?_eq_some taken).2
      split
      · have before := passes.trans second
        have value := expression_blames equals.next (closed.passes before)
        exact (value.after before).bind fun _ _ => .ok _
      · exact (Parse.Blames.taken second _).after passes
  · exact .ok _

theorem ended_blames {bound : Nat} (statement : Step Stmt bound) :
    Parse.Blames (ended statement) statement.next := by
  unfold ended
  dsimp only
  split
  · exact .ok _
  · split
    · exact .ok _
    · exact .here _

theorem simple_blames (enclosing : Enclosing) (c : Cursor) (closed : c.Closed) :
    Parse.Blames (simple enclosing c) c := by
  unfold simple
  split
  · next word taken =>
      obtain ⟨known, first⟩ := Cursor.takeAs_eq_some taken
      have declares := declKind?_eq_some_iff.mp known
      have closed := closed.passes first
      have inside := declaration_blames word.value.2 word.value.1.pos word.next closed
      apply (inside.after first).bind
      intro s reads
      obtain ⟨w, passes, -⟩ := declaration_reads enclosing declares word.next closed s reads
      exact (ended_blames (word.andThen s)).after (first.trans passes)
  · split
    · next word taken =>
        have first := (Cursor.take?_eq_some taken).2
        split
        · exact (ended_blames (word.map (.break ·.pos))).after first
        · exact .taken first _
    · split
      · next word taken =>
          have first := (Cursor.take?_eq_some taken).2
          split
          · exact (ended_blames (word.map (.continue ·.pos))).after first
          · exact .taken first _
      · apply (expressionOrAssignment_blames c closed).bind
        intro s reads
        obtain ⟨w, passes, -⟩ := expressionOrAssignment_reads enclosing c closed s reads
        exact (ended_blames s).after passes

mutual

theorem statement_blames (enclosing : Enclosing) (c : Cursor) (closed : c.Closed) :
    Parse.Blames (statement enclosing c) c := by
  rw [statement]
  split
  · exact .ok _
  · split
    · next opening taken =>
        have first := (Cursor.take?_eq_some taken).2
        have shorter := opening.shorter
        have inside := block_blames enclosing opening.next (closed.passes first)
        exact (inside.after first).bind fun _ _ => .ok _
    · split
      · next word taken =>
          have first := (Cursor.take?_eq_some taken).2
          have afterWord := word.shorter
          have tests := condition_blames word.next (closed.passes first)
          apply (tests.after first).bind
          intro test testReads
          obtain ⟨v, second, -⟩ := condition_reads word.next (closed.passes first) test testReads
          have afterTest := test.shorter
          have before := first.trans second
          have branch := statement_blames enclosing test.next (closed.passes before)
          apply (branch.after before).bind
          intro yes yesReads
          obtain ⟨w, third, -⟩ := statement_reads enclosing test.next (closed.passes before) yes
            yesReads
          have afterYes := yes.shorter
          have before := before.trans third
          split
          · next other taken =>
              have before := before.trans (Cursor.take?_eq_some taken).2
              have afterOther := other.shorter
              have otherwise := statement_blames enclosing other.next (closed.passes before)
              exact (otherwise.after before).bind fun _ _ => .ok _
          · exact .ok _
      · split
        · next word taken =>
            have first := (Cursor.take?_eq_some taken).2
            have afterWord := word.shorter
            have tests := condition_blames word.next (closed.passes first)
            apply (tests.after first).bind
            intro test testReads
            obtain ⟨v, second, -⟩ := condition_reads word.next (closed.passes first) test testReads
            have afterTest := test.shorter
            have before := first.trans second
            have turn := statement_blames { enclosing with loop := true } test.next
              (closed.passes before)
            exact (turn.after before).bind fun _ _ => .ok _
        · split
          · next word taken =>
              have first := (Cursor.take?_eq_some taken).2
              have afterWord := word.shorter
              have subjects := condition_blames word.next (closed.passes first)
              apply (subjects.after first).bind
              intro subject subjectReads
              obtain ⟨v, second, -⟩ := condition_reads word.next (closed.passes first) subject
                subjectReads
              have afterSubject := subject.shorter
              have before := first.trans second
              apply ((Cursor.expectMark_blames _ subject.next).after before).bind
              intro opening openingReads
              have before := before.trans (Cursor.expectMark_eq_ok openingReads).2
              have afterOpening := opening.shorter
              have inside := clauses_blames { enclosing with switch := true } false opening.next
                (closed.passes before)
              exact (inside.after before).bind fun _ _ => .ok _
          · exact simple_blames enclosing c closed
termination_by (c.remaining, 0)

theorem block_blames (enclosing : Enclosing) (c : Cursor) (closed : c.Closed) :
    Parse.Blames (block enclosing c) c := by
  rw [block]
  split
  · exact .ok _
  · split
    · exact .here _
    · apply (statement_blames enclosing c closed).bind
      intro first firstReads
      obtain ⟨w, passes, -⟩ := statement_reads enclosing c closed first firstReads
      have afterFirst := first.shorter
      have others := block_blames enclosing first.next (closed.passes passes)
      exact (others.after passes).bind fun _ _ => .ok _
termination_by (c.remaining, 1)

theorem clauses_blames (enclosing : Enclosing) (seenDefault : Bool) (c : Cursor)
    (closed : c.Closed) : Parse.Blames (clauses enclosing seenDefault c) c := by
  rw [clauses]
  split
  · exact .ok _
  · split
    · next word taken =>
        have first := (Cursor.take?_eq_some taken).2
        have afterWord := word.shorter
        have tests := expression_blames word.next (closed.passes first)
        apply (tests.after first).bind
        intro test testReads
        obtain ⟨v, second, -⟩ := expression_reads word.next (closed.passes first) test testReads
        have afterTest := test.shorter
        have before := first.trans second
        apply ((Cursor.expectMark_blames _ test.next).after before).bind
        intro colon colonReads
        have before := before.trans (Cursor.expectMark_eq_ok colonReads).2
        have afterColon := colon.shorter
        have inside := clauseBody_blames enclosing colon.next colon.shorter (closed.passes before)
        apply (inside.after before).bind
        intro body bodyReads
        obtain ⟨u, third, -⟩ := clauseBody_reads enclosing colon.next colon.shorter
          (closed.passes before) body bodyReads
        have afterBody := body.shorter
        have before := before.trans third
        have others := clauses_blames enclosing seenDefault body.next (closed.passes before)
        exact (others.after before).bind fun _ _ => .ok _
    · split
      · next word taken =>
          have first := (Cursor.take?_eq_some taken).2
          have afterWord := word.shorter
          split
          · exact .taken first _
          · apply ((Cursor.expectMark_blames _ word.next).after first).bind
            intro colon colonReads
            have before := first.trans (Cursor.expectMark_eq_ok colonReads).2
            have afterColon := colon.shorter
            have inside := clauseBody_blames enclosing colon.next colon.shorter
              (closed.passes before)
            apply (inside.after before).bind
            intro body bodyReads
            obtain ⟨u, third, -⟩ := clauseBody_reads enclosing colon.next colon.shorter
              (closed.passes before) body bodyReads
            have afterBody := body.shorter
            have before := before.trans third
            have others := clauses_blames enclosing true body.next (closed.passes before)
            exact (others.after before).bind fun _ _ => .ok _
      · exact .here _
termination_by (c.remaining, 0)

theorem clauseBody_blames (enclosing : Enclosing) (c : Cursor) {bound : Nat}
    (shorter : c.remaining < bound) (closed : c.Closed) :
    Parse.Blames (clauseBody enclosing c shorter) c := by
  rw [clauseBody]
  split
  · exact .ok _
  · apply (statement_blames enclosing c closed).bind
    intro first firstReads
    obtain ⟨w, passes, -⟩ := statement_reads enclosing c closed first firstReads
    have afterFirst := first.shorter
    have others := clauseBody_blames enclosing first.next (Nat.lt_trans first.shorter shorter)
      (closed.passes passes)
    exact (others.after passes).bind fun _ _ => .ok _
termination_by (c.remaining, 1)

end

theorem program_blames (c : Cursor) (closed : c.Closed) : Parse.Blames (program c) c := by
  rw [program]
  split
  · exact .ok _
  · apply (statement_blames _ c closed).bind
    intro first firstReads
    obtain ⟨w, passes, -⟩ := statement_reads _ c closed first firstReads
    have afterFirst := first.shorter
    have others := program_blames first.next (closed.passes passes)
    exact (others.after passes).bind fun _ _ => .ok _
termination_by c.remaining

end Grammar

theorem Cursor.ofTokens?_eq_some {tokens : List Token} {c : Cursor}
    (known : Cursor.ofTokens? tokens = some c) : c.Closed ∧ tokens = c.ahead ++ [c.stop] := by
  unfold Cursor.ofTokens? at known
  split at known
  · next stop last =>
      split at known
      · next stops =>
          cases known
          obtain ⟨before, rfl⟩ := List.getLast?_eq_some_iff.mp last
          exact ⟨stops, by simp⟩
      · cases known
  · cases known

/-- Every error is one of the tokens, or says that they have no end of input. -/
theorem Program.ofTokens_blames {tokens : List Token} {e : ParseError}
    (fails : Program.ofTokens tokens = .error (.wrong e)) : e.found ∈ tokens := by
  unfold Program.ofTokens at fails
  split at fails
  · cases fails
  · next c known =>
      obtain ⟨closed, rfl⟩ := Cursor.ofTokens?_eq_some known
      split at fails
      · cases fails
      · next e' wrong =>
          cases fails
          obtain ⟨w, d, passes, named⟩ := Grammar.program_blames c closed e wrong
          rw [named, Cursor.token, passes.ahead, passes.stop]
          cases d.ahead <;> simp

end Script
