import Script.Proofs.Grammar.Soundness
import Script.Proofs.Grammar.Viable

/-!
Where expressions go wrong. What was read of one before the wrong token can be gone on with to an
expression: open brackets are closed, and an operand that is missing is a name.
-/

namespace Script

namespace Grammar

section Postfix

def SomePostfix (v : List Token) : Prop := ∀ w a, Postfixed w a → ∃ b, Postfixed (w ++ v) b

def PostfixPinpoints (object : Expr) (c : Cursor) : Prop :=
  ∀ ⦃e : ParseError⦄ ⦃bound : Nat⦄ (shorter : c.remaining < bound),
    postfixRest object c shorter = .error e → c.GoesWrong e
      (fun c' => ∀ {bound : Nat} (shorter : c'.remaining < bound),
        postfixRest object c' shorter = .error e) SomePostfix

variable {object : Expr} {c : Cursor} {mark : Step Token c.remaining}

theorem postfixRest_wrong_member (closed : c.Closed)
    (taken : c.take? (.punct .dot) = some mark)
    (rest : ∀ (object : Expr) (m : Cursor), m.remaining < c.remaining → m.Closed →
      PostfixPinpoints object m) : PostfixPinpoints object c := by
  intro e bound shorter fails
  rw [postfixRest_member taken] at fails
  obtain ⟨pointed, first⟩ := Cursor.take?_eq_some taken
  rcases Parse.bind_eq_error fails with nameFails | ⟨name, nameReads, restFails⟩
  · refine (Cursor.expectName_wrong (closed.passes first) nameFails).through first ?_ ?_
    · rintro v ⟨t, text, rfl, named⟩ w a before
      exact ⟨_, .member before pointed named⟩
    · intro c' m' _ passes' _ fails bound shorter
      obtain ⟨_, taken⟩ := Cursor.take?_one passes' pointed
      rw [postfixRest_member taken, fails]
      rfl
  · obtain ⟨known, second⟩ := Cursor.expectAs_eq_ok nameReads
    have passes := first.trans second
    have afterName := Nat.lt_trans name.shorter mark.shorter
    refine (rest _ name.next afterName (closed.passes passes) _ restFails).through passes ?_ ?_
    · intro v whole w a before
      obtain ⟨b, whole⟩ := whole _ _ (.member before pointed (Kind.name?_eq_some_iff.mp known))
      exact ⟨b, by simpa using whole⟩
    · intro c' m' _ passes' _ fails bound shorter
      obtain ⟨k, passes', last⟩ := passes'.split
      obtain ⟨_, taken⟩ := Cursor.take?_one passes' pointed
      obtain ⟨_, named⟩ := Cursor.expectAs_one last known .propertyName
      rw [postfixRest_member taken, named]
      exact fails _

theorem postfixRest_wrong_index (closed : c.Closed)
    (taken : c.take? (.punct .openBracket) = some mark)
    (positions : ∀ m : Cursor, m.remaining < c.remaining → m.Closed →
      Parse.Pinpoints (chain Connective.loosest) (fun v => ∃ a, Expression v a) m)
    (rest : ∀ (object : Expr) (m : Cursor), m.remaining < c.remaining → m.Closed →
      PostfixPinpoints object m) : PostfixPinpoints object c := by
  intro e bound shorter fails
  rw [postfixRest_index taken] at fails
  obtain ⟨opens, first⟩ := Cursor.take?_eq_some taken
  have inside := closed.passes first
  rcases Parse.bind_eq_error fails with positionFails | ⟨position, positionReads, fails⟩
  · refine (positions mark.next mark.shorter inside positionFails).after first
      [.mark .closeBracket] ?_ ?_
    · rintro v line ⟨position, derived⟩ w a before
      exact ⟨_, by simpa using Postfixed.index before opens derived rfl⟩
    · intro c' m' _ passes' _ fails bound shorter
      obtain ⟨_, taken⟩ := Cursor.take?_one passes' opens
      rw [postfixRest_index taken, fails]
      rfl
  · obtain ⟨u, passes, derived, apart⟩ := chain_reads _ mark.next inside position positionReads
    have before := first.trans passes
    rcases Parse.bind_eq_error fails with closingFails | ⟨closing, closingReads, restFails⟩
    · refine (Cursor.expectMark_wrong (inside.passes passes) closingFails).through before ?_ ?_
      · rintro v ⟨t, rfl, closes⟩ w a before
        exact ⟨_, by simpa using Postfixed.index before opens derived closes⟩
      · intro c' m' _ passes' next fails bound shorter
        obtain ⟨k, passes', last⟩ := passes'.split
        obtain ⟨_, taken⟩ := Cursor.take?_one passes' opens
        obtain ⟨_, reads⟩ := derived.gives.whole last (Cursor.kind_of_token next ▸ apart)
        rw [postfixRest_index taken]
        simp only [bind, Except.bind, reads, fails]
    · obtain ⟨closes, last⟩ := Cursor.expectMark_eq_ok closingReads
      have passes := before.trans last
      have afterClosing := Nat.lt_trans closing.shorter (Nat.lt_trans position.shorter mark.shorter)
      refine (rest _ closing.next afterClosing (closed.passes passes) _ restFails).through passes
        ?_ ?_
      · intro v whole w a before
        obtain ⟨b, whole⟩ := whole _ _ (.index before opens derived closes)
        exact ⟨b, by simpa using whole⟩
      · intro c' m' _ passes' _ fails bound shorter
        obtain ⟨k, passes', closing'⟩ := passes'.split
        obtain ⟨k', passes', last'⟩ := passes'.split
        have between : k.kind = position.next.kind := closing'.kind.trans last.kind.symm
        obtain ⟨_, taken⟩ := Cursor.take?_one passes' opens
        obtain ⟨_, reads⟩ := derived.gives.whole last' (between ▸ apart)
        obtain ⟨_, closingReads⟩ := Cursor.expectMark_one closing' closes
        rw [postfixRest_index taken]
        simp only [bind, Except.bind, reads, closingReads]
        exact fails _

theorem postfixRest_wrong_call (closed : c.Closed)
    (taken : c.take? (.punct .openParen) = some mark)
    (rows : ∀ m : Cursor, m.remaining < c.remaining → m.Closed →
      Parse.Pinpoints (items .closeParen) (fun v => ∃ es, Items .closeParen v es) m)
    (rest : ∀ (object : Expr) (m : Cursor), m.remaining < c.remaining → m.Closed →
      PostfixPinpoints object m) : PostfixPinpoints object c := by
  intro e bound shorter fails
  rw [postfixRest_call taken] at fails
  obtain ⟨opens, first⟩ := Cursor.take?_eq_some taken
  have inside := closed.passes first
  rcases Parse.bind_eq_error fails with itemsFail | ⟨arguments, argumentsRead, restFails⟩
  · refine (rows mark.next mark.shorter inside itemsFail).through first ?_ ?_
    · rintro v ⟨arguments, derived⟩ w a before
      exact ⟨_, .call before opens derived⟩
    · intro c' m' _ passes' _ fails bound shorter
      obtain ⟨_, taken⟩ := Cursor.take?_one passes' opens
      rw [postfixRest_call taken, fails]
      rfl
  · obtain ⟨u, passes, derived⟩ := items_reads _ mark.next inside arguments argumentsRead
    have passes := first.trans passes
    have afterArguments := Nat.lt_trans arguments.shorter mark.shorter
    refine (rest _ arguments.next afterArguments (closed.passes passes) _ restFails).through passes
      ?_ ?_
    · intro v whole w a before
      obtain ⟨b, whole⟩ := whole _ _ (.call before opens derived)
      exact ⟨b, by simpa using whole⟩
    · intro c' m' _ passes' _ fails bound shorter
      obtain ⟨k, passes', last⟩ := passes'.split
      obtain ⟨_, taken⟩ := Cursor.take?_one passes' opens
      obtain ⟨_, reads⟩ := derived.gives (.inl rfl) last
      rw [postfixRest_call taken, reads]
      exact fails _

end Postfix

section Primary

variable {c : Cursor} {mark : Step Token c.remaining}

theorem primary_wrong_array (closed : c.Closed)
    (taken : c.take? (.punct .openBracket) = some mark)
    (rows : ∀ m : Cursor, m.remaining < c.remaining → m.Closed →
      Parse.Pinpoints (items .closeBracket) (fun v => ∃ es, Items .closeBracket v es) m) :
    Parse.Pinpoints primary (fun v => ∃ a, Primary v a) c := by
  intro e fails
  rw [primary_array taken] at fails
  obtain ⟨opens, first⟩ := Cursor.take?_eq_some taken
  rcases Parse.bind_eq_error fails with itemsFail | ⟨elements, -, same⟩
  · refine (rows mark.next mark.shorter (closed.passes first) itemsFail).through first ?_ ?_
    · rintro v ⟨elements, derived⟩
      exact ⟨_, .array opens derived⟩
    · intro c' m' _ passes' _ fails
      obtain ⟨_, taken⟩ := Cursor.take?_one passes' opens
      rw [primary_array taken, fails]
      rfl
  · cases same

theorem primary_wrong_group (closed : c.Closed)
    (taken : c.take? (.punct .openParen) = some mark)
    (inners : ∀ m : Cursor, m.remaining < c.remaining → m.Closed →
      Parse.Pinpoints (chain Connective.loosest) (fun v => ∃ a, Expression v a) m) :
    Parse.Pinpoints primary (fun v => ∃ a, Primary v a) c := by
  intro e fails
  rw [primary_group taken] at fails
  obtain ⟨opens, first⟩ := Cursor.take?_eq_some taken
  have inside := closed.passes first
  rcases Parse.bind_eq_error fails with innerFails | ⟨inner, innerReads, fails⟩
  · refine (inners mark.next mark.shorter inside innerFails).after first [.mark .closeParen] ?_ ?_
    · rintro v line ⟨a, derived⟩
      exact ⟨a, .group opens derived rfl⟩
    · intro c' m' _ passes' _ fails
      obtain ⟨_, taken⟩ := Cursor.take?_one passes' opens
      rw [primary_group taken, fails]
      rfl
  · obtain ⟨u, passes, derived, apart⟩ := chain_reads _ mark.next inside inner innerReads
    rcases Parse.bind_eq_error fails with closingFails | ⟨closing, -, same⟩
    · refine (Cursor.expectMark_wrong (inside.passes passes) closingFails).through
        (first.trans passes) ?_ ?_
      · rintro v ⟨t, rfl, closes⟩
        exact ⟨_, .group opens derived closes⟩
      · intro c' m' _ passes' next fails
        obtain ⟨k, passes', last⟩ := passes'.split
        obtain ⟨_, taken⟩ := Cursor.take?_one passes' opens
        obtain ⟨_, reads⟩ := derived.gives.whole last (Cursor.kind_of_token next ▸ apart)
        rw [primary_group taken]
        simp only [bind, Except.bind, reads, fails]
    · cases same

theorem primary_wrong_other (closed : c.Closed)
    (noAtom : c.takeAs (Kind.atom? c.token.pos) = none) (noBracket : c.kind ≠ .punct .openBracket)
    (noParen : c.kind ≠ .punct .openParen) :
    Parse.Pinpoints primary (fun v => ∃ a, Primary v a) c := by
  refine .refused closed .expression [.name] (fun _ => ⟨_, .name rfl⟩) ?_
  intro c' _ same
  have unread : c'.takeAs (Kind.atom? c'.token.pos) = none := by
    rw [same]
    exact Cursor.takeAs_again noAtom closed rfl same
  rw [← Cursor.kind_of_token same] at noBracket noParen
  rw [primary, unread]
  simp only [Cursor.takeMark?, Cursor.take?_of_ne noBracket, Cursor.take?_of_ne noParen,
    Cursor.fail, same]

end Primary

mutual

theorem chain_wrong (level : Nat) (c : Cursor) (closed : c.Closed) :
    Parse.Pinpoints (chain level) (fun v => ∃ a, Chained level v a) c := by
  intro e fails
  cases level with
  | zero =>
      rw [chain] at fails
      refine (unary_wrong c closed fails).imp (fun _ whole => whole) fun _ fails => ?_
      rw [chain]
      exact fails
  | succ tighter =>
      rw [chain] at fails
      rcases Parse.bind_eq_error fails with leftFails | ⟨left, leftReads, restFails⟩
      · refine (chain_wrong tighter c closed leftFails).imp ?_ fun {c'} _ fails => ?_
        · rintro v ⟨a, derived⟩
          exact ⟨a, .tighter derived⟩
        · rw [chain, fails]
          rfl
      · obtain ⟨w, passes, derived, apart⟩ := chain_reads tighter c closed left leftReads
        have shorter := left.shorter
        refine (chainRest_wrong tighter left.value left.next left.shorter (closed.passes passes)
          restFails).through passes (fun v whole => whole w left.value (.tighter derived)) ?_
        intro c' m' _ passes' next fails
        obtain ⟨shorter, reads⟩ := derived.gives.whole passes' (Cursor.kind_of_token next ▸ apart)
        rw [chain, reads]
        exact fails shorter
termination_by (c.remaining, level + 3)

theorem chainRest_wrong (tighter : Nat) (left : Expr) (c : Cursor) {bound : Nat}
    (shorter : c.remaining < bound) (closed : c.Closed) {e : ParseError}
    (fails : chainRest tighter left c shorter = .error e) :
    c.GoesWrong e
      (fun c' => ∀ {bound : Nat} (shorter : c'.remaining < bound),
        chainRest tighter left c' shorter = .error e)
      fun v => ∀ w a, Chained (tighter + 1) w a → ∃ b, Chained (tighter + 1) (w ++ v) b := by
  rw [chainRest] at fails
  split at fails
  · cases fails
  · next connective taken =>
      obtain ⟨known, first⟩ := Cursor.takeAs_eq_some taken
      obtain ⟨op, operator, binds⟩ := Connective.atLevel?_eq_some_iff.mp known
      have afterConnective := connective.shorter
      have closed := closed.passes first
      rcases Parse.bind_eq_error fails with rightFails | ⟨right, rightReads, restFails⟩
      · refine (chain_wrong tighter connective.next closed rightFails).through first ?_ ?_
        · rintro v ⟨right, derived⟩ w a before
          exact ⟨_, .connective before operator binds derived⟩
        · intro c' m' _ passes' next fails bound shorter
          obtain ⟨_, taken⟩ := Cursor.takeAs_one passes' known
          rw [chainRest, taken]
          simp only [fails]
          rfl
      · obtain ⟨u, passes, derived, apart⟩ := chain_reads tighter connective.next closed right
          rightReads
        have afterRight := right.shorter
        refine (chainRest_wrong tighter _ right.next _ (closed.passes passes) restFails).through
          (first.trans passes) ?_ ?_
        · intro v whole w a before
          obtain ⟨b, whole⟩ := whole _ _ (.connective before operator binds derived)
          exact ⟨b, by simpa using whole⟩
        · intro c' m' _ passes' next fails bound shorter
          obtain ⟨k, passes', last⟩ := passes'.split
          obtain ⟨_, taken⟩ := Cursor.takeAs_one passes' known
          obtain ⟨_, reads⟩ := derived.gives.whole last (Cursor.kind_of_token next ▸ apart)
          rw [chainRest, taken]
          simp only [reads]
          exact fails _
termination_by (c.remaining, 0)

theorem unary_wrong (c : Cursor) (closed : c.Closed) :
    Parse.Pinpoints unary (fun v => ∃ a, Chained 0 v a) c := by
  intro e fails
  rw [unary] at fails
  split at fails
  · next op taken =>
      obtain ⟨known, first⟩ := Cursor.takeAs_eq_some taken
      have shorter := op.shorter
      rcases Parse.bind_eq_error fails with operandFails | ⟨operand, -, same⟩
      · refine (unary_wrong op.next (closed.passes first) operandFails).through first ?_ ?_
        · rintro v ⟨a, derived⟩
          exact ⟨_, .unary (UnaryOp.ofKind?_eq_some_iff.mp known) derived⟩
        · intro c' m' _ passes' next fails
          obtain ⟨_, taken⟩ := Cursor.takeAs_one passes' known
          rw [unary, taken]
          simp only [fails]
          rfl
      · cases same
  · next unled =>
      rcases Parse.bind_eq_error fails with objectFails | ⟨object, objectReads, restFails⟩
      · refine (primary_wrong c closed objectFails).imp ?_ fun {c'} same fails => ?_
        · rintro v ⟨a, derived⟩
          exact ⟨a, .postfixed (.primary derived)⟩
        · rw [unary, Cursor.takeAs_again unled closed rfl same]
          simp only [fails]
          rfl
      · obtain ⟨w, passes, derived⟩ := primary_reads c closed object objectReads
        have shorter := object.shorter
        refine (postfixRest_wrong object.value object.next (closed.passes passes) object.shorter
          restFails).through passes ?_ ?_
        · intro v whole
          obtain ⟨a, whole⟩ := whole w object.value (.primary derived)
          exact ⟨a, .postfixed whole⟩
        · intro c' m' same passes' next fails
          obtain ⟨_, reads⟩ := derived.gives passes'
          rw [unary, Cursor.takeAs_again unled closed rfl same]
          simp only [reads]
          exact fails _
termination_by (c.remaining, 2)

theorem postfixRest_wrong (object : Expr) (c : Cursor) (closed : c.Closed) :
    PostfixPinpoints object c := by
  by_cases pointed : c.kind = .punct .dot
  · obtain ⟨m, shorter, taken⟩ := Cursor.take?_of_closed closed pointed
    exact postfixRest_wrong_member closed taken fun object m _ => postfixRest_wrong object m
  · by_cases opens : c.kind = .punct .openBracket
    · obtain ⟨m, shorter, taken⟩ := Cursor.take?_of_closed closed opens
      exact postfixRest_wrong_index closed taken (fun m _ => chain_wrong _ m)
        fun object m _ => postfixRest_wrong object m
    · by_cases calls : c.kind = .punct .openParen
      · obtain ⟨m, shorter, taken⟩ := Cursor.take?_of_closed closed calls
        exact postfixRest_wrong_call closed taken (fun m _ => items_wrong _ m)
          fun object m _ => postfixRest_wrong object m
      · intro e bound shorter fails
        rw [postfixRest] at fails
        simp only [Cursor.takeMark?, Cursor.take?_of_ne pointed, Cursor.take?_of_ne opens,
          Cursor.take?_of_ne calls] at fails
        cases fails
termination_by (c.remaining, 0)

theorem items_wrong (closing : Punct) (c : Cursor) (closed : c.Closed) :
    Parse.Pinpoints (items closing) (fun v => ∃ es, Items closing v es) c := by
  intro e fails
  rw [items] at fails
  split at fails
  · cases fails
  · next unclosed =>
      rcases Parse.bind_eq_error fails with itemFails | ⟨item, itemReads, fails⟩
      · refine (chain_wrong _ c closed itemFails).first [.mark closing] ?_ fun {c'} same fails => ?_
        · rintro v line ⟨a, derived⟩
          exact ⟨[a], .last derived rfl⟩
        · rw [items]
          simp only [Cursor.takeMark?, Cursor.take?_again unclosed closed same, fails]
          rfl
      · obtain ⟨w, passes, derived, apart⟩ := chain_reads _ c closed item itemReads
        have afterItem := item.shorter
        split at fails
        · next comma taken =>
            obtain ⟨separates, second⟩ := Cursor.take?_eq_some taken
            have afterComma := comma.shorter
            have before := passes.trans second
            rcases Parse.bind_eq_error fails with othersFail | ⟨others, -, same⟩
            · refine (items_wrong closing comma.next (closed.passes before) othersFail).through
                before ?_ ?_
              · rintro v ⟨es, others⟩
                exact ⟨_, by simpa using Items.more derived separates others⟩
              · intro c' m' same passes' next fails
                obtain ⟨k, passes', last⟩ := passes'.split
                have between : k.kind = item.next.kind := last.kind.trans second.kind.symm
                obtain ⟨_, reads⟩ := derived.gives.whole passes' (between ▸ apart)
                obtain ⟨_, taken⟩ := Cursor.take?_one last separates
                rw [items]
                simp only [Cursor.takeMark?, Cursor.take?_again unclosed closed same, reads,
                  bind, Except.bind, taken, fails]
            · cases same
        · next noComma =>
            split at fails
            · cases fails
            · next unclosed' =>
                cases fails
                have last := closed.passes passes
                refine (Cursor.GoesWrong.missing rfl [.mark closing]).through passes ?_ ?_
                · rintro v ⟨line, rfl⟩
                  exact ⟨_, .last derived rfl⟩
                · intro c' m' same passes' next _
                  obtain ⟨_, reads⟩ := derived.gives.whole passes'
                    (Cursor.kind_of_token next ▸ apart)
                  rw [items]
                  simp only [Cursor.takeMark?, Cursor.take?_again unclosed closed same, reads,
                    bind, Except.bind, Cursor.take?_again noComma last next,
                    Cursor.take?_again unclosed' last next, Cursor.fail, next]
termination_by (c.remaining, Connective.loosest + 4)

theorem primary_wrong (c : Cursor) (closed : c.Closed) :
    Parse.Pinpoints primary (fun v => ∃ a, Primary v a) c := by
  cases atom : c.takeAs (Kind.atom? c.token.pos) with
  | some literal =>
      intro e fails
      rw [primary, atom] at fails
      cases fails
  | none =>
      by_cases opens : c.kind = .punct .openBracket
      · obtain ⟨m, shorter, taken⟩ := Cursor.take?_of_closed closed opens
        exact primary_wrong_array closed taken fun m _ => items_wrong _ m
      · by_cases groups : c.kind = .punct .openParen
        · obtain ⟨m, shorter, taken⟩ := Cursor.take?_of_closed closed groups
          exact primary_wrong_group closed taken fun m _ => chain_wrong _ m
        · exact primary_wrong_other closed atom opens groups
termination_by (c.remaining, 1)

end

end Grammar

end Script
