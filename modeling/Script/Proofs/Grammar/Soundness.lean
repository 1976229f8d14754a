import Script.Proofs.Grammar.Beginning
import Script.Proofs.Grammar.Passing
import Script.Proofs.Grammar.Tables

/-!
Whatever is read is derived. A reader passes tokens that derive the value it gives, and an
expression is read as far as it goes: the token after it does not go on with it.
-/

namespace Script

/-- Whenever `p` reads, it passes tokens from `c` on that `derived` holds of, with the value and the
token after them. -/
def Parse.Reads {α : Type} {bound : Nat} (p : Parse α bound) (c : Cursor)
    (derived : List Token → α → Token → Prop) : Prop :=
  ∀ step, p = .ok step → ∃ w, c.Passes w step.next ∧ derived w step.value step.next.token

namespace Grammar

theorem not_extends_zero {kind : Kind} (dot : kind ≠ .punct .dot)
    (bracket : kind ≠ .punct .openBracket) (paren : kind ≠ .punct .openParen) :
    ¬ Extends 0 kind := by
  intro extend
  cases extend with
  | member => exact dot rfl
  | index => exact bracket rfl
  | call => exact paren rfl
  | connective binds within => cases binds <;> omega

theorem not_extends_succ {level : Nat} {kind : Kind} (tighter : ¬ Extends level kind)
    (other : Connective.atLevel? (level + 1) kind = none) : ¬ Extends (level + 1) kind := by
  intro extend
  cases extend with
  | member => exact tighter .member
  | index => exact tighter .index
  | call => exact tighter .call
  | @connective op tightness connective binds within =>
      by_cases same : tightness = level + 1
      · rw [Connective.atLevel?_eq_some_iff.mpr ⟨op, rfl, same ▸ binds⟩] at other
        cases other
      · exact tighter (.connective binds (by omega))

mutual

theorem chain_reads (level : Nat) (c : Cursor) (closed : c.Closed) :
    (chain level c).Reads c fun w e next => Chained level w e ∧ ¬ Extends level next.kind := by
  intro step reads
  cases level with
  | zero =>
      rw [chain] at reads
      exact unary_reads c closed step reads
  | succ tighter =>
      rw [chain] at reads
      obtain ⟨left, leftReads, restReads⟩ := Parse.bind_eq_ok reads
      obtain ⟨w, passes, derived, apart⟩ := chain_reads tighter c closed left leftReads
      have shorter := left.shorter
      obtain ⟨v, more, whole, after⟩ := chainRest_reads tighter left.value left.next left.shorter
        (closed.passes passes) (.tighter derived) apart step restReads
      exact ⟨w ++ v, passes.trans more, whole, after⟩
termination_by (c.remaining, level + 3)

theorem chainRest_reads (tighter : Nat) (left : Expr) (c : Cursor) {bound : Nat}
    (shorter : c.remaining < bound) (closed : c.Closed) {w : List Token}
    (before : Chained (tighter + 1) w left) (apart : ¬ Extends tighter c.kind) :
    (chainRest tighter left c shorter).Reads c fun v e next =>
      Chained (tighter + 1) (w ++ v) e ∧ ¬ Extends (tighter + 1) next.kind := by
  intro step reads
  rw [chainRest] at reads
  split at reads
  · next untaken =>
      cases reads
      have unread := Cursor.takeAs_eq_none untaken closed rfl
      exact ⟨[], .refl c, (List.append_nil w).symm ▸ before, not_extends_succ apart unread⟩
  · next connective taken =>
      obtain ⟨known, first⟩ := Cursor.takeAs_eq_some taken
      obtain ⟨op, operator, binds⟩ := Connective.atLevel?_eq_some_iff.mp known
      obtain ⟨right, rightReads, restReads⟩ := Parse.bind_eq_ok reads
      have afterConnective := connective.shorter
      have afterRight := right.shorter
      obtain ⟨v, passes, derived, apart⟩ := chain_reads tighter connective.next
        (closed.passes first) right rightReads
      obtain ⟨u, more, whole, after⟩ := chainRest_reads tighter _ right.next _
        ((closed.passes first).passes passes) (.connective before operator binds derived) apart step
        restReads
      refine ⟨connective.value.1 :: v ++ u, (first.trans passes).trans more, ?_, after⟩
      simpa using whole
termination_by (c.remaining, 0)

theorem unary_reads (c : Cursor) (closed : c.Closed) :
    (unary c).Reads c fun w e next => Chained 0 w e ∧ ¬ Extends 0 next.kind := by
  intro step reads
  rw [unary] at reads
  split at reads
  · next op taken =>
      obtain ⟨known, first⟩ := Cursor.takeAs_eq_some taken
      obtain ⟨operand, operandReads, same⟩ := Parse.bind_eq_ok reads
      cases same
      have shorter := op.shorter
      obtain ⟨w, passes, derived, apart⟩ := unary_reads op.next (closed.passes first) operand
        operandReads
      exact ⟨op.value.1 :: w, first.trans passes,
        .unary (UnaryOp.ofKind?_eq_some_iff.mp known) derived, apart⟩
  · obtain ⟨object, objectReads, restReads⟩ := Parse.bind_eq_ok reads
    obtain ⟨w, passes, derived⟩ := primary_reads c closed object objectReads
    have shorter := object.shorter
    obtain ⟨v, more, whole, after⟩ := postfixRest_reads object.value object.next object.shorter
      (closed.passes passes) (.primary derived) step restReads
    exact ⟨w ++ v, passes.trans more, .postfixed whole, after⟩
termination_by (c.remaining, 2)

theorem postfixRest_reads (object : Expr) (c : Cursor) {bound : Nat} (shorter : c.remaining < bound)
    (closed : c.Closed) {w : List Token} (before : Postfixed w object) :
    (postfixRest object c shorter).Reads c fun v e next =>
      Postfixed (w ++ v) e ∧ ¬ Extends 0 next.kind := by
  intro step reads
  rw [postfixRest] at reads
  split at reads
  · next dot taken =>
      obtain ⟨pointed, first⟩ := Cursor.take?_eq_some taken
      obtain ⟨name, nameReads, restReads⟩ := Parse.bind_eq_ok reads
      obtain ⟨known, second⟩ := Cursor.expectAs_eq_ok nameReads
      have afterDot := dot.shorter
      have afterName := name.shorter
      have passes := first.trans second
      obtain ⟨u, more, whole, after⟩ := postfixRest_reads _ name.next _ (closed.passes passes)
        (.member before pointed (Kind.name?_eq_some_iff.mp known)) step restReads
      refine ⟨[dot.value, name.value.1] ++ u, passes.trans more, ?_, after⟩
      simpa using whole
  · next noDot =>
      split at reads
      · next opening taken =>
          obtain ⟨opens, first⟩ := Cursor.take?_eq_some taken
          obtain ⟨position, positionReads, reads⟩ := Parse.bind_eq_ok reads
          obtain ⟨closing, closingReads, restReads⟩ := Parse.bind_eq_ok reads
          obtain ⟨closes, last⟩ := Cursor.expectMark_eq_ok closingReads
          have afterOpening := opening.shorter
          have afterPosition := position.shorter
          have afterClosing := closing.shorter
          obtain ⟨v, passes, derived, -⟩ := chain_reads _ opening.next (closed.passes first)
            position positionReads
          have inside := (first.trans passes).trans last
          obtain ⟨u, more, whole, after⟩ := postfixRest_reads _ closing.next _
            (closed.passes inside) (.index before opens derived closes) step restReads
          refine ⟨opening.value :: v ++ [closing.value] ++ u, inside.trans more, ?_, after⟩
          simpa using whole
      · next noBracket =>
          split at reads
          · next opening taken =>
              obtain ⟨opens, first⟩ := Cursor.take?_eq_some taken
              obtain ⟨arguments, argumentsRead, restReads⟩ := Parse.bind_eq_ok reads
              have afterOpening := opening.shorter
              have afterArguments := arguments.shorter
              obtain ⟨v, passes, derived⟩ := items_reads _ opening.next (closed.passes first)
                arguments argumentsRead
              have inside := first.trans passes
              obtain ⟨u, more, whole, after⟩ := postfixRest_reads _ arguments.next _
                (closed.passes inside) (.call before opens derived) step restReads
              refine ⟨opening.value :: v ++ u, inside.trans more, ?_, after⟩
              simpa using whole
          · next noParen =>
              cases reads
              refine ⟨[], .refl c, (List.append_nil w).symm ▸ before, ?_⟩
              exact not_extends_zero (Cursor.take?_eq_none noDot closed nofun)
                (Cursor.take?_eq_none noBracket closed nofun)
                (Cursor.take?_eq_none noParen closed nofun)
termination_by (c.remaining, 0)

theorem items_reads (closing : Punct) (c : Cursor) (closed : c.Closed) :
    (items closing c).Reads c fun w es _ => Items closing w es := by
  intro step reads
  rw [items] at reads
  split at reads
  · next close taken =>
      cases reads
      obtain ⟨closes, passes⟩ := Cursor.take?_eq_some taken
      exact ⟨[close.value], passes, .none closes⟩
  · obtain ⟨item, itemReads, reads⟩ := Parse.bind_eq_ok reads
    obtain ⟨w, passes, derived, -⟩ := chain_reads _ c closed item itemReads
    have afterItem := item.shorter
    split at reads
    · next comma taken =>
        obtain ⟨separates, second⟩ := Cursor.take?_eq_some taken
        obtain ⟨more, moreReads, same⟩ := Parse.bind_eq_ok reads
        cases same
        have afterComma := comma.shorter
        have inside := passes.trans second
        obtain ⟨v, others, derivedMore⟩ := items_reads closing comma.next (closed.passes inside)
          more moreReads
        refine ⟨w ++ [comma.value] ++ v, inside.trans others, ?_⟩
        rw [List.append_assoc]
        exact .more derived separates derivedMore
    · split at reads
      · next close taken =>
          cases reads
          obtain ⟨closes, last⟩ := Cursor.take?_eq_some taken
          exact ⟨w ++ [close.value], passes.trans last, .last derived closes⟩
      · cases reads
termination_by (c.remaining, Connective.loosest + 4)

theorem primary_reads (c : Cursor) (closed : c.Closed) :
    (primary c).Reads c fun w e _ => Primary w e := by
  intro step reads
  rw [primary] at reads
  split at reads
  · next atom taken =>
      cases reads
      obtain ⟨known, passes⟩ := Cursor.takeAs_eq_some taken
      have here : c.token = atom.value.1 := passes.token
      rw [here] at known
      refine ⟨[atom.value.1], passes, ?_⟩
      change Primary [atom.value.1] atom.value.2
      rcases Kind.atom?_eq_some_iff.mp known with ⟨value, denotes, same⟩ | ⟨text, identifier, same⟩
      · rw [same]
        exact .literal denotes
      · rw [same]
        exact .name identifier
  · split at reads
    · next opening taken =>
        obtain ⟨opens, first⟩ := Cursor.take?_eq_some taken
        obtain ⟨elements, elementsRead, same⟩ := Parse.bind_eq_ok reads
        cases same
        have afterOpening := opening.shorter
        obtain ⟨v, passes, derived⟩ := items_reads _ opening.next (closed.passes first) elements
          elementsRead
        exact ⟨opening.value :: v, first.trans passes, .array opens derived⟩
    · split at reads
      · next opening taken =>
          obtain ⟨opens, first⟩ := Cursor.take?_eq_some taken
          obtain ⟨inner, innerReads, reads⟩ := Parse.bind_eq_ok reads
          obtain ⟨closing, closingReads, same⟩ := Parse.bind_eq_ok reads
          cases same
          obtain ⟨closes, last⟩ := Cursor.expectMark_eq_ok closingReads
          have afterOpening := opening.shorter
          obtain ⟨v, passes, derived, -⟩ := chain_reads _ opening.next (closed.passes first) inner
            innerReads
          exact ⟨opening.value :: v ++ [closing.value], (first.trans passes).trans last,
            .group opens derived closes⟩
      · cases reads
termination_by (c.remaining, 1)

end

theorem expression_reads (c : Cursor) (closed : c.Closed) :
    (expression c).Reads c fun w e next =>
      Expression w e ∧ ¬ Extends Connective.loosest next.kind :=
  chain_reads Connective.loosest c closed

theorem condition_reads (c : Cursor) (closed : c.Closed) :
    (condition c).Reads c fun w e _ => Condition w e := by
  intro step reads
  obtain ⟨opening, openingReads, reads⟩ := Parse.bind_eq_ok reads
  obtain ⟨test, testReads, reads⟩ := Parse.bind_eq_ok reads
  obtain ⟨closing, closingReads, same⟩ := Parse.bind_eq_ok reads
  cases same
  obtain ⟨opens, first⟩ := Cursor.expectMark_eq_ok openingReads
  obtain ⟨w, passes, derived, -⟩ := expression_reads opening.next (closed.passes first)
    test testReads
  obtain ⟨closes, last⟩ := Cursor.expectMark_eq_ok closingReads
  exact ⟨opening.value :: w ++ [closing.value], (first.trans passes).trans last,
    .mk opens derived closes⟩

section Simple

variable (enclosing : Enclosing)

theorem declaration_reads {word : Token} {kind : DeclKind} (declares : Declares word.kind kind)
    (c : Cursor) (closed : c.Closed) :
    (declaration kind word.pos c).Reads c fun w s next =>
      Simple enclosing (word :: w) s ∧ ¬ Continues s next.kind := by
  intro step reads
  obtain ⟨name, nameReads, reads⟩ := Parse.bind_eq_ok reads
  obtain ⟨known, first⟩ := Cursor.expectAs_eq_ok nameReads
  have named := Kind.name?_eq_some_iff.mp known
  split at reads
  · next equals taken =>
      obtain ⟨assigns, second⟩ := Cursor.take?_eq_some taken
      obtain ⟨value, valueReads, same⟩ := Parse.bind_eq_ok reads
      cases same
      have before := first.trans second
      obtain ⟨w, passes, derived, apart⟩ := expression_reads equals.next (closed.passes before)
        value valueReads
      exact ⟨[name.value.1, equals.value] ++ w, before.trans passes,
        .define declares named assigns derived, apart⟩
  · next unassigned =>
      split at reads
      · cases reads
      · next changeable =>
          cases reads
          exact ⟨[name.value.1], first, .declare declares named changeable,
            Cursor.take?_eq_none unassigned (closed.passes first) nofun⟩

theorem expressionOrAssignment_reads (c : Cursor) (closed : c.Closed) :
    (expressionOrAssignment c).Reads c fun w s next =>
      Simple enclosing w s ∧ ¬ Continues s next.kind := by
  intro step reads
  obtain ⟨left, leftReads, reads⟩ := Parse.bind_eq_ok reads
  obtain ⟨w, passes, derived, apart⟩ := expression_reads c closed left leftReads
  obtain ⟨first, v, rfl, -⟩ := derived.begins
  have here : c.token = first := passes.token
  split at reads
  · next equals taken =>
      obtain ⟨assigns, second⟩ := Cursor.take?_eq_some taken
      split at reads
      · next target known =>
          obtain ⟨value, valueReads, same⟩ := Parse.bind_eq_ok reads
          cases same
          have before := passes.trans second
          obtain ⟨u, more, derivedValue, apart⟩ := expression_reads equals.next
            (closed.passes before) value valueReads
          have assignable := Target.ofExpr?_eq_some_iff.mp known
          have whole : Simple enclosing _ (.assign first.pos target value.value) :=
            .assign derived assignable assigns derivedValue
          refine ⟨first :: v ++ [equals.value] ++ u, before.trans more, ?_, apart⟩
          rw [List.append_assoc, here]
          exact whole
      · cases reads
  · next unassigned =>
      cases reads
      refine ⟨first :: v, passes, ?_, ?_⟩
      · rw [here]
        exact .expr derived
      · intro continues
        rcases continues with goes | assigns
        · exact apart goes
        · exact Cursor.take?_eq_none unassigned (closed.passes passes) (by simp) assigns

theorem ended_reads {bound : Nat} {statement : Step Stmt bound} {c : Cursor} {w : List Token}
    (passes : c.Passes w statement.next) (closed : c.Closed)
    (whole : Simple enclosing w statement.value)
    (apart : ¬ Continues statement.value statement.next.kind) :
    (ended statement).Reads c fun w s next => Statement enclosing w next s := by
  intro step reads
  unfold ended at reads
  dsimp only at reads
  split at reads
  · next mark taken =>
      cases reads
      obtain ⟨marked, last⟩ := Cursor.take?_eq_some taken
      exact ⟨w ++ [mark.value], passes.trans last, .terminated whole marked⟩
  · next untaken =>
      split at reads
      · next ends =>
          cases reads
          refine ⟨w, passes, .unterminated whole ?_⟩
          rcases ends with closes | stops | later
          · exact .brace closes
          · exact .stop stops
          · have lastOf := List.getLast?_eq_some_getLast whole.ne_nil
            rw [passes.line, Cursor.lineAfter_of_getLast? lastOf] at later
            exact .line lastOf later apart
              (Cursor.take?_eq_none untaken (closed.passes passes) (by simp))
      · cases reads

theorem simple_reads (c : Cursor) (closed : c.Closed) :
    (simple enclosing c).Reads c fun w s next => Statement enclosing w next s := by
  intro step reads
  unfold simple at reads
  split at reads
  · next word taken =>
      obtain ⟨known, first⟩ := Cursor.takeAs_eq_some taken
      have declares := declKind?_eq_some_iff.mp known
      obtain ⟨statement, statementReads, endReads⟩ := Parse.bind_eq_ok reads
      obtain ⟨w, passes, whole, apart⟩ := declaration_reads enclosing declares word.next
        (closed.passes first) statement statementReads
      have before : c.Passes (word.value.1 :: w) (word.andThen statement).next := first.trans passes
      exact ended_reads enclosing before closed whole apart step endReads
  · split at reads
    · next word taken =>
        obtain ⟨is, first⟩ := Cursor.take?_eq_some taken
        split at reads
        · next placed =>
            have before : c.Passes [word.value] (word.map (Stmt.break ·.pos)).next := first
            exact ended_reads enclosing before closed (.break is (by simpa using placed)) id step
              reads
        · cases reads
    · split at reads
      · next word taken =>
          obtain ⟨is, first⟩ := Cursor.take?_eq_some taken
          split at reads
          · next placed =>
              have before : c.Passes [word.value] (word.map (Stmt.continue ·.pos)).next := first
              exact ended_reads enclosing before closed (.continue is placed) id step reads
          · cases reads
      · obtain ⟨statement, statementReads, endReads⟩ := Parse.bind_eq_ok reads
        obtain ⟨w, passes, whole, apart⟩ := expressionOrAssignment_reads enclosing c closed
          statement statementReads
        exact ended_reads enclosing passes closed whole apart step endReads

end Simple

mutual

theorem statement_reads (enclosing : Enclosing) (c : Cursor) (closed : c.Closed) :
    (statement enclosing c).Reads c fun w s next => Statement enclosing w next s := by
  intro step reads
  rw [statement] at reads
  split at reads
  · next mark taken =>
      cases reads
      obtain ⟨marked, passes⟩ := Cursor.take?_eq_some taken
      exact ⟨[mark.value], passes, .empty marked⟩
  · split at reads
    · next opening taken =>
        obtain ⟨opens, first⟩ := Cursor.take?_eq_some taken
        obtain ⟨body, bodyReads, same⟩ := Parse.bind_eq_ok reads
        cases same
        have afterOpening := opening.shorter
        obtain ⟨_, passes, w, close, rfl, closes, inside⟩ := block_reads enclosing opening.next
          (closed.passes first) body bodyReads
        exact ⟨opening.value :: (w ++ [close]), first.trans passes, .block opens inside closes⟩
    · split at reads
      · next word taken =>
          obtain ⟨is, first⟩ := Cursor.take?_eq_some taken
          obtain ⟨test, testReads, reads⟩ := Parse.bind_eq_ok reads
          obtain ⟨v, tests, condition⟩ := condition_reads word.next (closed.passes first) test
            testReads
          obtain ⟨yes, yesReads, reads⟩ := Parse.bind_eq_ok reads
          have afterWord := word.shorter
          have afterTest := test.shorter
          have afterYes := yes.shorter
          have before := first.trans tests
          obtain ⟨w, branches, branch⟩ := statement_reads enclosing test.next (closed.passes before)
            yes yesReads
          have through := before.trans branches
          split at reads
          · next other taken =>
              obtain ⟨otherwise, second⟩ := Cursor.take?_eq_some taken
              obtain ⟨no, noReads, same⟩ := Parse.bind_eq_ok reads
              cases same
              have afterOther := other.shorter
              have inside := through.trans second
              obtain ⟨u, rests, rest⟩ := statement_reads enclosing other.next (closed.passes inside)
                no noReads
              have here : yes.next.token = other.value := second.token
              rw [here] at branch
              refine ⟨word.value :: v ++ w ++ [other.value] ++ u, inside.trans rests, ?_⟩
              rw [List.append_assoc]
              exact .ifElse is condition branch otherwise rest
          · next untaken =>
              cases reads
              exact ⟨word.value :: v ++ w, through, .if is condition branch
                (Cursor.take?_eq_none untaken (closed.passes through) nofun)⟩
      · split at reads
        · next word taken =>
            obtain ⟨is, first⟩ := Cursor.take?_eq_some taken
            obtain ⟨test, testReads, reads⟩ := Parse.bind_eq_ok reads
            obtain ⟨v, tests, condition⟩ := condition_reads word.next (closed.passes first) test
              testReads
            obtain ⟨body, bodyReads, same⟩ := Parse.bind_eq_ok reads
            cases same
            have afterWord := word.shorter
            have afterTest := test.shorter
            have before := first.trans tests
            obtain ⟨w, turns, turn⟩ := statement_reads { enclosing with loop := true } test.next
              (closed.passes before) body bodyReads
            exact ⟨word.value :: v ++ w, before.trans turns, .while is condition turn⟩
        · split at reads
          · next word taken =>
              obtain ⟨is, first⟩ := Cursor.take?_eq_some taken
              obtain ⟨subject, subjectReads, reads⟩ := Parse.bind_eq_ok reads
              obtain ⟨v, subjects, condition⟩ := condition_reads word.next (closed.passes first)
                subject subjectReads
              obtain ⟨opening, openingReads, reads⟩ := Parse.bind_eq_ok reads
              obtain ⟨opens, second⟩ := Cursor.expectMark_eq_ok openingReads
              obtain ⟨cases', casesRead, same⟩ := Parse.bind_eq_ok reads
              cases same
              have afterWord := word.shorter
              have afterSubject := subject.shorter
              have afterOpening := opening.shorter
              have before := (first.trans subjects).trans second
              obtain ⟨_, passes, w, close, rfl, closes, inside, single⟩ := clauses_reads
                { enclosing with switch := true } false opening.next (closed.passes before) cases'
                casesRead
              refine ⟨word.value :: v ++ [opening.value] ++ (w ++ [close]), before.trans passes, ?_⟩
              rw [List.append_assoc]
              have same : word.value :: v ++ ([opening.value] ++ (w ++ [close])) =
                  word.value :: v ++ opening.value :: w ++ [close] := by simp
              rw [same]
              exact .switch is condition opens inside closes single
          · exact simple_reads enclosing c closed step reads
termination_by (c.remaining, 0)

theorem block_reads (enclosing : Enclosing) (c : Cursor) (closed : c.Closed) :
    (block enclosing c).Reads c fun w body _ => ∃ v close, w = v ++ [close] ∧
      close.kind = .punct .closeBrace ∧ Statements enclosing v close body := by
  intro step reads
  rw [block] at reads
  split at reads
  · next closing taken =>
      cases reads
      obtain ⟨closes, passes⟩ := Cursor.take?_eq_some taken
      exact ⟨[closing.value], passes, [], closing.value, rfl, closes, .nil⟩
  · split at reads
    · cases reads
    · obtain ⟨first, firstReads, reads⟩ := Parse.bind_eq_ok reads
      obtain ⟨more, moreReads, same⟩ := Parse.bind_eq_ok reads
      cases same
      have afterFirst := first.shorter
      obtain ⟨w, passes, derived⟩ := statement_reads enclosing c closed first firstReads
      obtain ⟨_, others, v, close, rfl, closes, inside⟩ := block_reads enclosing first.next
        (closed.passes passes) more moreReads
      rw [others.token, Cursor.headD_concat] at derived
      exact ⟨w ++ (v ++ [close]), passes.trans others, w ++ v, close,
        (List.append_assoc ..).symm, closes, .cons derived inside⟩
termination_by (c.remaining, 1)

theorem clauses_reads (enclosing : Enclosing) (seenDefault : Bool) (c : Cursor)
    (closed : c.Closed) :
    (clauses enclosing seenDefault c).Reads c fun w cases _ => ∃ v close, w = v ++ [close] ∧
      close.kind = .punct .closeBrace ∧ Clauses enclosing v close cases ∧
        defaults cases ≤ if seenDefault then 0 else 1 := by
  intro step reads
  rw [clauses] at reads
  split at reads
  · next closing taken =>
      cases reads
      obtain ⟨closes, passes⟩ := Cursor.take?_eq_some taken
      exact ⟨[closing.value], passes, [], closing.value, rfl, closes, .nil, Nat.zero_le _⟩
  · split at reads
    · next word taken =>
        obtain ⟨is, first⟩ := Cursor.take?_eq_some taken
        obtain ⟨test, testReads, reads⟩ := Parse.bind_eq_ok reads
        obtain ⟨w, tests, tested, -⟩ := expression_reads word.next (closed.passes first) test
          testReads
        obtain ⟨colon, colonReads, reads⟩ := Parse.bind_eq_ok reads
        obtain ⟨divides, second⟩ := Cursor.expectMark_eq_ok colonReads
        obtain ⟨body, bodyReads, reads⟩ := Parse.bind_eq_ok reads
        obtain ⟨more, moreReads, same⟩ := Parse.bind_eq_ok reads
        cases same
        have afterWord := word.shorter
        have afterTest := test.shorter
        have afterColon := colon.shorter
        have afterBody := body.shorter
        have before := (first.trans tests).trans second
        obtain ⟨v, bodies, inside⟩ := clauseBody_reads enclosing colon.next colon.shorter
          (closed.passes before) body bodyReads
        have through := before.trans bodies
        obtain ⟨_, others, u, close, rfl, closes, rest, single⟩ := clauses_reads enclosing
          seenDefault body.next (closed.passes through) more moreReads
        rw [others.token, Cursor.headD_concat] at inside
        have whole := Clauses.case is tested divides inside rest
        refine ⟨_, through.trans others, _, close, ?_, closes, whole, ?_⟩
        · simp
        · exact Nat.le_trans (Nat.le_of_eq (defaults_case ..)) single
    · split at reads
      · next word taken =>
          split at reads
          · cases reads
          · next unseen =>
              obtain ⟨is, first⟩ := Cursor.take?_eq_some taken
              obtain ⟨colon, colonReads, reads⟩ := Parse.bind_eq_ok reads
              obtain ⟨divides, second⟩ := Cursor.expectMark_eq_ok colonReads
              obtain ⟨body, bodyReads, reads⟩ := Parse.bind_eq_ok reads
              obtain ⟨more, moreReads, same⟩ := Parse.bind_eq_ok reads
              cases same
              have afterWord := word.shorter
              have afterColon := colon.shorter
              have afterBody := body.shorter
              have before := first.trans second
              obtain ⟨v, bodies, inside⟩ := clauseBody_reads enclosing colon.next colon.shorter
                (closed.passes before) body bodyReads
              have through := before.trans bodies
              obtain ⟨_, others, u, close, rfl, closes, rest, single⟩ := clauses_reads enclosing
                true body.next (closed.passes through) more moreReads
              rw [others.token, Cursor.headD_concat] at inside
              have whole := Clauses.default is divides inside rest
              refine ⟨_, through.trans others, _, close, ?_, closes, whole, ?_⟩
              · simp
              · have one : defaults more.value + 1 ≤ 1 := Nat.succ_le_succ single
                rw [if_neg unseen]
                exact Nat.le_trans (Nat.le_of_eq (defaults_default ..)) one
      · cases reads
termination_by (c.remaining, 0)

theorem clauseBody_reads (enclosing : Enclosing) (c : Cursor) {bound : Nat}
    (shorter : c.remaining < bound) (closed : c.Closed) :
    (clauseBody enclosing c shorter).Reads c fun w body next =>
      Statements enclosing w next body := by
  intro step reads
  rw [clauseBody] at reads
  split at reads
  · cases reads
    exact ⟨[], .refl c, .nil⟩
  · obtain ⟨first, firstReads, reads⟩ := Parse.bind_eq_ok reads
    obtain ⟨more, moreReads, same⟩ := Parse.bind_eq_ok reads
    cases same
    have afterFirst := first.shorter
    obtain ⟨w, passes, derived⟩ := statement_reads enclosing c closed first firstReads
    obtain ⟨v, others, inside⟩ := clauseBody_reads enclosing first.next _ (closed.passes passes)
      more moreReads
    rw [others.token] at derived
    exact ⟨w ++ v, passes.trans others, .cons derived inside⟩
termination_by (c.remaining, 1)

end

end Grammar

end Script
