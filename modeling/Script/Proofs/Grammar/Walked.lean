import Script.Proofs.Grammar.Passing
import Script.Proofs.Grammar.Walking

/-!
A walk comes to what is read from where it stands: the same value, with the walker where reading
goes on, or the same error. So it comes to something. The induction is the one by which reading
ends: on the tokens ahead, then on how tightly the reader binds.
-/

namespace Script.Row

variable {r : Row}

mutual

theorem chain_agrees (level : Nat) (c : Cursor) {w : Walker} (stands : r.At w c) :
    r.Agrees (r.chain level) w (Grammar.chain level c) := by
  cases level with
  | zero =>
      rw [chain, Grammar.chain]
      exact unary_agrees c stands
  | succ tighter =>
      rw [chain, Grammar.chain]
      apply Matches.bind (chain_agrees tighter c stands)
      intro left after _ there
      have shorter := left.shorter
      exact chainRest_agrees tighter left.value left.next left.shorter there
termination_by (c.remaining, level + 3)

theorem chainRest_agrees (tighter : Nat) (left : Expr) (c : Cursor) {bound : Nat}
    (shorter : c.remaining < bound) {w : Walker} (stands : r.At w c) :
    r.Agrees (r.chainRest tighter left) w (Grammar.chainRest tighter left c shorter) := by
  rw [chainRest, chainTurn, Grammar.chainRest, bind_assoc]
  split
  · next untaken =>
      apply Ends.untaken stands untaken rfl
      exact .pure (.ok stands)
  · next connective taken =>
      apply Ends.taken stands taken
      intro after _ there
      dsimp only
      rw [bind_assoc]
      have afterConnective := connective.shorter
      apply Matches.bind (chain_agrees tighter connective.next there)
      intro right after _ there
      have afterRight := right.shorter
      rw [pure_bind]
      exact chainRest_agrees tighter _ right.next _ there
termination_by (c.remaining, 0)

theorem unary_agrees (c : Cursor) {w : Walker} (stands : r.At w c) :
    r.Agrees r.unary w (Grammar.unary c) := by
  rw [unary, Grammar.unary]
  split
  · next op taken =>
      apply Ends.taken stands taken
      intro after _ there
      have shorter := op.shorter
      apply Matches.bind (unary_agrees op.next there)
      intro operand after _ there
      exact .pure (.ok there)
  · next untaken =>
      apply Ends.untaken stands untaken rfl
      apply Matches.bind (primary_agrees c stands)
      intro object after _ there
      have shorter := object.shorter
      exact postfixRest_agrees object.value object.next object.shorter there
termination_by (c.remaining, 2)

theorem postfixRest_agrees (object : Expr) (c : Cursor) {bound : Nat}
    (shorter : c.remaining < bound) {w : Walker} (stands : r.At w c) :
    r.Agrees (r.postfixRest object) w (Grammar.postfixRest object c shorter) := by
  rw [postfixRest, postfixTurn, Grammar.postfixRest, bind_assoc]
  split
  · next dot taken =>
      apply Ends.took stands taken
      intro after _ there
      dsimp only
      rw [bind_assoc]
      apply Matches.bind (expectAs_agrees there rfl _)
      intro name after _ there
      have afterDot := dot.shorter
      have afterName := name.shorter
      rw [pure_bind]
      exact postfixRest_agrees _ name.next _ there
  · next untaken =>
      apply Ends.left stands untaken (by simp)
      dsimp only
      rw [bind_assoc]
      split
      · next opening taken =>
          apply Ends.took stands taken
          intro after _ there
          dsimp only
          rw [bind_assoc]
          have afterOpening := opening.shorter
          apply Matches.bind (chain_agrees _ opening.next there)
          intro position after _ there
          rw [bind_assoc]
          apply Matches.bind (expectMark_agrees there _)
          intro closing after _ there
          have afterPosition := position.shorter
          have afterClosing := closing.shorter
          rw [pure_bind]
          exact postfixRest_agrees _ closing.next _ there
      · next untaken =>
          apply Ends.left stands untaken (by simp)
          dsimp only
          rw [bind_assoc]
          split
          · next opening taken =>
              apply Ends.took stands taken
              intro after _ there
              dsimp only
              rw [bind_assoc]
              have afterOpening := opening.shorter
              apply Matches.bind (items_agrees _ opening.next there)
              intro arguments after _ there
              have afterArguments := arguments.shorter
              rw [pure_bind]
              exact postfixRest_agrees _ arguments.next _ there
          · next untaken =>
              apply Ends.left stands untaken (by simp)
              exact .pure (.ok stands)
termination_by (c.remaining, 0)

theorem items_agrees (closing : Punct) (c : Cursor) {w : Walker} (stands : r.At w c) :
    r.Agrees (r.items closing) w (Grammar.items closing c) := by
  rw [items, itemsTurn, Grammar.items, bind_assoc]
  split
  · next close taken =>
      have here : c.token.kind = .punct closing := Cursor.kind_of_take? taken
      apply Ends.token stands
      rw [if_pos here, pure_bind]
      exact .marked stands taken fun _ _ there => .pure (.ok there)
  · next untaken =>
      have inside : c.token.kind ≠ .punct closing :=
        Cursor.take?_eq_none untaken stands.closed (by simp)
      apply Ends.token stands
      rw [if_neg inside, bind_assoc]
      apply Matches.bind (chain_agrees _ c stands)
      intro item after _ there
      have afterItem := item.shorter
      rw [bind_assoc]
      split
      · next comma taken =>
          apply Ends.took there taken
          intro after _ there
          have afterComma := comma.shorter
          dsimp only
          rw [pure_bind]
          apply Matches.bind (items_agrees closing comma.next there)
          intro more after _ there
          exact .pure (.ok there)
      · next untaken =>
          apply Ends.left there untaken (by simp)
          dsimp only
          rw [bind_assoc]
          split
          · next close taken =>
              have here : item.next.token.kind = .punct closing := Cursor.kind_of_take? taken
              apply Ends.token there
              rw [if_pos here, pure_bind]
              -- The walk takes one more turn to find the end of the list.
              have none := items_agrees closing item.next there
              rw [Grammar.items, taken] at none
              apply Ends.bind none
              · rintro _ after _ ⟨there⟩
                exact .pure (.ok there)
              · rintro _ _ ⟨⟩
          · next untaken =>
              have inside : item.next.token.kind ≠ .punct closing :=
                Cursor.take?_eq_none untaken there.closed (by simp)
              apply Ends.token there
              rw [if_neg inside, fail_bind]
              exact .fail there (.error _ _)
termination_by (c.remaining, Connective.loosest + 4)

theorem primary_agrees (c : Cursor) {w : Walker} (stands : r.At w c) :
    r.Agrees r.primary w (Grammar.primary c) := by
  rw [primary, Grammar.primary]
  apply Ends.token stands
  split
  · next atom taken =>
      apply Ends.taken stands taken
      intro after _ there
      exact .pure (.ok there)
  · next untaken =>
      apply Ends.untaken stands untaken rfl
      dsimp only
      split
      · next opening taken =>
          apply Ends.took stands taken
          intro after _ there
          have afterOpening := opening.shorter
          apply Matches.bind (items_agrees _ opening.next there)
          intro elements after _ there
          exact .pure (.ok there)
      · next untaken =>
          apply Ends.left stands untaken (by simp)
          dsimp only
          split
          · next opening taken =>
              apply Ends.took stands taken
              intro after _ there
              have afterOpening := opening.shorter
              apply Matches.bind (chain_agrees _ opening.next there)
              intro inner after _ there
              apply Matches.bind (expectMark_agrees there _)
              intro closing after _ there
              exact .pure (.ok there)
          · next untaken =>
              apply Ends.left stands untaken (by simp)
              exact .fail stands (.error _ _)
termination_by (c.remaining, 1)

end

theorem expression_agrees (c : Cursor) {w : Walker} (stands : r.At w c) :
    r.Agrees r.expression w (Grammar.expression c) :=
  chain_agrees Connective.loosest c stands

theorem condition_agrees (c : Cursor) {w : Walker} (stands : r.At w c) :
    r.Agrees r.condition w (Grammar.condition c) := by
  apply Matches.bind (expectMark_agrees stands _)
  intro opening after _ there
  apply Matches.bind (expression_agrees opening.next there)
  intro test after _ there
  apply Matches.bind (expectMark_agrees there _)
  intro closing after _ there
  exact .pure (.ok there)

theorem declaration_agrees (kind : DeclKind) (pos : Pos) (c : Cursor) {w : Walker}
    (stands : r.At w c) : r.Agrees (r.declaration kind pos) w (Grammar.declaration kind pos c) := by
  apply Matches.bind (expectAs_agrees stands rfl _)
  intro name after _ there
  cases taken : name.next.take? (.operator .assign) with
  | some equals =>
      apply Ends.took there taken
      intro after _ there
      apply Matches.bind (expression_agrees equals.next there)
      intro value after _ there
      exact .pure (.ok there)
  | none =>
      apply Ends.left there taken (by simp)
      dsimp only
      split
      · exact .fail there (.error _ _)
      · exact .pure (.ok there)

theorem expressionOrAssignment_agrees (c : Cursor) {w : Walker} (stands : r.At w c) :
    r.Agrees r.expressionOrAssignment w (Grammar.expressionOrAssignment c) := by
  apply Ends.token stands
  apply Matches.bind (expression_agrees c stands)
  intro left after _ there
  cases taken : left.next.take? (.operator .assign) with
  | some equals =>
      apply Ends.took there taken
      intro after _ there
      dsimp only
      cases Target.ofExpr? left.value with
      | some target =>
          apply Matches.bind (expression_agrees equals.next there)
          intro value after _ there
          exact .pure (.ok there)
      | none => exact .throw (.error _ _)
  | none =>
      apply Ends.left there taken (by simp)
      exact .pure (.ok there)

theorem ended_agrees {bound : Nat} (s : Step Stmt bound) {w : Walker} (stands : r.At w s.next)
    (moved : 0 < w.index) : r.Agrees (r.ended s.value) w (Grammar.ended s) := by
  rw [ended, Grammar.ended]
  split
  · next mark taken =>
      apply Ends.took stands taken
      intro after _ there
      exact .pure (.ok there)
  · next untaken =>
      apply Ends.left stands untaken (by simp)
      apply Ends.token stands
      obtain ⟨last, found⟩ : ∃ last, r.tokens[w.index - 1]? = some last := by
        have length := stands.length
        exact ⟨_, List.getElem?_eq_getElem (by omega)⟩
      apply Ends.step (result_before found) (.refl w)
      rw [stands.line last moved found, Cursor.kind]
      split
      · exact .pure (.ok stands)
      · exact .fail stands (.error _ _)

theorem simple_agrees {enclosing : Enclosing} (c : Cursor) {w : Walker} (stands : r.At w c)
    (around : w.enclosing = enclosing) : r.Agrees r.simple w (Grammar.simple enclosing c) := by
  have moved {after : Walker} {d : Cursor} (there : r.At after d)
      (shorter : d.remaining < c.remaining) : 0 < after.index :=
    Nat.zero_lt_of_lt (stands.lt there shorter)
  rw [simple, Grammar.simple]
  split
  · next word taken =>
      apply Ends.taken stands taken
      intro after first there
      apply Matches.bind (declaration_agrees _ _ word.next there)
      intro s after second there
      have shorter := Nat.lt_trans s.shorter word.shorter
      exact ended_agrees (word.andThen s) there (moved there shorter)
  · next untaken =>
      apply Ends.untaken stands untaken rfl
      dsimp only
      split
      · next word taken =>
          apply Ends.took stands taken
          intro after leads there
          apply Ends.get
          rw [← around, ← leads.enclosing]
          split
          · next outside =>
              rw [if_neg fun inside => after.enclosing_breakable.mp inside outside]
              exact .throw (.error _ _)
          · next inside =>
              rw [if_pos (after.enclosing_breakable.mpr inside)]
              exact ended_agrees (word.map (.break ·.pos)) there (moved there word.shorter)
      · next untaken =>
          apply Ends.left stands untaken (by simp)
          dsimp only
          split
          · next word taken =>
              apply Ends.took stands taken
              intro after leads there
              apply Ends.get
              rw [← around, ← leads.enclosing]
              split
              · next outside =>
                  rw [if_neg fun inside => after.enclosing_repeatable.mp inside outside]
                  exact .throw (.error _ _)
              · next inside =>
                  rw [if_pos (after.enclosing_repeatable.mpr inside)]
                  exact ended_agrees (word.map (.continue ·.pos)) there
                    (moved there word.shorter)
          · next untaken =>
              apply Ends.left stands untaken (by simp)
              apply Matches.bind (expressionOrAssignment_agrees c stands)
              intro s after leads there
              exact ended_agrees s there (moved there s.shorter)

mutual

theorem statement_agrees {enclosing : Enclosing} (c : Cursor) {w : Walker} (stands : r.At w c)
    (around : w.enclosing = enclosing) :
    r.Agrees r.statement w (Grammar.statement enclosing c) := by
  rw [statement, Grammar.statement]
  split
  · next mark taken =>
      apply Ends.took stands taken
      intro after _ there
      exact .pure (.ok there)
  · next untaken =>
      apply Ends.left stands untaken (by simp)
      dsimp only
      split
      · next opening taken =>
          apply Ends.took stands taken
          intro after leads there
          have afterOpening := opening.shorter
          apply Matches.bind (block_agrees opening.next there (leads.enclosing.trans around))
          intro body after _ there
          exact .pure (.ok there)
      · next untaken =>
          apply Ends.left stands untaken (by simp)
          dsimp only
          split
          · next word taken =>
              apply Ends.took stands taken
              intro after leads there
              have around := leads.enclosing.trans around
              apply Matches.bind (condition_agrees word.next there)
              intro test after leads there
              have around := leads.enclosing.trans around
              have afterWord := word.shorter
              have afterTest := test.shorter
              apply Matches.bind (statement_agrees test.next there around)
              intro yes after leads there
              have around := leads.enclosing.trans around
              have afterYes := yes.shorter
              cases taken : yes.next.take? (.keyword .else) with
              | some other =>
                  apply Ends.took there taken
                  intro after leads there
                  have around := leads.enclosing.trans around
                  have afterOther := other.shorter
                  apply Matches.bind (statement_agrees other.next there around)
                  intro no after _ there
                  exact .pure (.ok there)
              | none =>
                  apply Ends.left there taken (by simp)
                  exact .pure (.ok there)
          · next untaken =>
              apply Ends.left stands untaken (by simp)
              dsimp only
              split
              · next word taken =>
                  apply Ends.took stands taken
                  intro after leads there
                  have around := leads.enclosing.trans around
                  apply Matches.bind (condition_agrees word.next there)
                  intro test after leads there
                  have around := leads.enclosing.trans around
                  have afterWord := word.shorter
                  have afterTest := test.shorter
                  have inside : after.enterLoop.enclosing = { enclosing with loop := true } := by
                    rw [Walker.enclosing_enterLoop, around]
                  have entered : r.At after.enterLoop test.next := there.counted rfl
                  apply Matches.bind (Matches.looping (statement_agrees test.next entered inside))
                  intro body after _ there
                  exact .pure (.ok there)
              · next untaken =>
                  apply Ends.left stands untaken (by simp)
                  dsimp only
                  split
                  · next word taken =>
                      apply Ends.took stands taken
                      intro after leads there
                      have around := leads.enclosing.trans around
                      apply Matches.bind (condition_agrees word.next there)
                      intro subject after leads there
                      have around := leads.enclosing.trans around
                      apply Matches.bind (expectMark_agrees there _)
                      intro opening after leads there
                      have around := leads.enclosing.trans around
                      have afterWord := word.shorter
                      have afterSubject := subject.shorter
                      have afterOpening := opening.shorter
                      have inside : after.enterSwitch.enclosing =
                          { enclosing with switch := true } := by
                        rw [Walker.enclosing_enterSwitch, around]
                      have entered : r.At after.enterSwitch opening.next := there.counted rfl
                      apply Matches.bind
                        (Matches.switching (clauses_agrees false opening.next entered inside))
                      -- The brace is passed only when the count is down again.
                      rintro cases' after _ ⟨d, closing, there, taken, same⟩
                      apply Ends.marked there taken
                      intro after _ there
                      rw [same] at there
                      exact .pure (.ok there)
                  · next untaken =>
                      apply Ends.left stands untaken (by simp)
                      exact simple_agrees c stands around
termination_by (c.remaining, 0)

theorem block_agrees {enclosing : Enclosing} (c : Cursor) {w : Walker} (stands : r.At w c)
    (around : w.enclosing = enclosing) : r.Agrees r.block w (Grammar.block enclosing c) := by
  rw [block, blockTurn, Grammar.block, Cursor.kind, bind_assoc]
  split
  · next closing taken =>
      have here : c.token.kind = .punct .closeBrace := Cursor.kind_of_take? taken
      apply Ends.token stands
      rw [if_pos here, pure_bind]
      exact .marked stands taken fun _ _ there => .pure (.ok there)
  · next untaken =>
      have inside : c.token.kind ≠ .punct .closeBrace :=
        Cursor.take?_eq_none untaken stands.closed (by simp)
      apply Ends.token stands
      rw [if_neg inside]
      split
      · rw [fail_bind]
        exact .fail stands (.error _ _)
      · rw [bind_assoc]
        apply Matches.bind (statement_agrees c stands around)
        intro first after leads there
        have shorter := first.shorter
        rw [pure_bind]
        apply Matches.bind (block_agrees first.next there (leads.enclosing.trans around))
        intro more after _ there
        exact .pure (.ok there)
termination_by (c.remaining, 1)

theorem clauses_agrees {enclosing : Enclosing} (seenDefault : Bool) (c : Cursor) {w : Walker}
    (stands : r.At w c) (around : w.enclosing = enclosing) :
    r.Matches (r.clauses seenDefault) w r.Closing (Grammar.clauses enclosing seenDefault c) := by
  rw [clauses, clauseTurn, Grammar.clauses, bind_assoc]
  apply Ends.token stands
  cases taken : c.takeMark? .closeBrace with
  | some closing =>
      have here : c.token.kind = .punct .closeBrace := Cursor.kind_of_take? taken
      rw [if_pos here, pure_bind]
      exact .pure (.ok ⟨c, closing, stands, taken, rfl⟩)
  | none =>
      have inside : c.token.kind ≠ .punct .closeBrace :=
        Cursor.take?_eq_none taken stands.closed (by simp)
      rw [if_neg inside, bind_assoc]
      cases taken : c.take? (.keyword .case) with
      | some word =>
          apply Ends.took stands taken
          intro after leads there
          have around := leads.enclosing.trans around
          dsimp only
          rw [bind_assoc]
          apply Matches.bind (expression_agrees word.next there)
          intro test after leads there
          have around := leads.enclosing.trans around
          rw [bind_assoc]
          apply Matches.bind (expectMark_agrees there _)
          intro colon after leads there
          have around := leads.enclosing.trans around
          have afterWord := word.shorter
          have afterTest := test.shorter
          have afterColon := colon.shorter
          rw [bind_assoc]
          apply Matches.bind (clauseBody_agrees colon.next colon.shorter there around)
          intro body after leads there
          have around := leads.enclosing.trans around
          have afterBody := body.shorter
          rw [pure_bind]
          apply Matches.bind (clauses_agrees seenDefault body.next there around)
          intro more after _ there
          exact .pure (.ok there)
      | none =>
          apply Ends.left stands taken (by simp)
          dsimp only
          cases taken : c.take? (.keyword .default) with
          | some word =>
              have here : c.token.kind = .keyword .default := Cursor.kind_of_take? taken
              rw [if_pos here]
              split
              · rw [Walk.throw_bind, (Cursor.take?_eq_some taken).2.token]
                exact .throw (.error _ _)
              · rw [bind_assoc]
                apply Ends.advance stands taken
                intro after leads there
                have around := leads.enclosing.trans around
                rw [bind_assoc]
                apply Matches.bind (expectMark_agrees there _)
                intro colon after leads there
                have around := leads.enclosing.trans around
                have afterWord := word.shorter
                have afterColon := colon.shorter
                rw [bind_assoc]
                apply Matches.bind (clauseBody_agrees colon.next colon.shorter there around)
                intro body after leads there
                have around := leads.enclosing.trans around
                have afterBody := body.shorter
                rw [pure_bind]
                apply Matches.bind (clauses_agrees true body.next there around)
                intro more after _ there
                exact .pure (.ok there)
          | none =>
              have inside : c.token.kind ≠ .keyword .default :=
                Cursor.take?_eq_none taken stands.closed (by simp)
              rw [if_neg inside, fail_bind]
              exact .fail stands (.error _ _)
termination_by (c.remaining, 0)

theorem clauseBody_agrees {enclosing : Enclosing} (c : Cursor) {bound : Nat}
    (shorter : c.remaining < bound) {w : Walker} (stands : r.At w c)
    (around : w.enclosing = enclosing) :
    r.Agrees r.clauseBody w (Grammar.clauseBody enclosing c shorter) := by
  rw [clauseBody, bodyTurn, Grammar.clauseBody, Cursor.kind, bind_assoc]
  apply Ends.token stands
  split
  · exact .pure (.ok stands)
  · rw [bind_assoc]
    apply Matches.bind (statement_agrees c stands around)
    intro first after leads there
    have afterFirst := first.shorter
    rw [pure_bind]
    apply Matches.bind (clauseBody_agrees first.next _ there (leads.enclosing.trans around))
    intro more after _ there
    exact .pure (.ok there)
termination_by (c.remaining, 1)

end

theorem program_agrees (c : Cursor) {w : Walker} (stands : r.At w c)
    (around : w.enclosing = ⟨false, false⟩) :
    r.Ends r.program w fun result _ => result = Grammar.program c := by
  rw [program, programTurn, bind_assoc, Grammar.program, Cursor.kind]
  apply Ends.token stands
  split
  · exact .pure rfl
  · rw [bind_assoc]
    have first := statement_agrees c stands around
    cases reads : Grammar.statement ⟨false, false⟩ c with
    | error e =>
        rw [reads] at first
        apply Ends.bind first
        · rintro _ _ _ ⟨⟩
        · rintro _ _ ⟨⟩
          rfl
    | ok step =>
        rw [reads] at first
        apply Ends.bind first
        · rintro _ after leads ⟨there⟩
          have shorter := step.shorter
          have others := program_agrees step.next there (leads.enclosing.trans around)
          rw [pure_bind]
          apply Ends.bind others
          · intro more after _ known
            apply Ends.pure
            show _ = (Grammar.program step.next >>= fun more => pure (step.value :: more))
            rw [← known]
            rfl
          · intro e after known
            show _ = (Grammar.program step.next >>= fun more => pure (step.value :: more))
            rw [← known]
            rfl
        · rintro _ _ ⟨⟩
termination_by c.remaining

end Script.Row
