import Script.Proofs.Grammar.Acceptance
import Script.Proofs.Grammar.Walked

/-!
Reading goes forward. From anywhere in tokens that end, a walk comes to something without looking
past them, what it reads begins before an end of input, and every turn of a loop passes a token.
-/

namespace Script

namespace Cursor

variable {α : Type} {read : Kind → Option α} {kind : Kind} {c : Cursor}

theorem inside_of_takeAs {step : Step (Token × α) c.remaining} (taken : c.takeAs read = some step)
    (refused : read .endOfInput = none) : c.kind ≠ .endOfInput := by
  obtain ⟨known, passes⟩ := takeAs_eq_some taken
  intro stops
  rw [← passes.kind, stops, refused] at known
  cases known

theorem inside_of_take? {step : Step Token c.remaining} (taken : c.take? kind = some step)
    (inside : kind ≠ .endOfInput) : c.kind ≠ .endOfInput := by
  rw [kind_of_take? taken]
  exact inside

theorem inside_of_not_endsClause (goes : Grammar.endsClause c.kind = false) :
    c.kind ≠ .endOfInput := by
  intro stops
  rw [stops] at goes
  exact absurd goes (by decide)

end Cursor

namespace Grammar

variable {c : Cursor}

theorem expression_inside (closed : c.Closed) {step : Step Expr c.remaining}
    (reads : expression c = .ok step) : c.kind ≠ .endOfInput := by
  obtain ⟨_, passes, derived, -⟩ := expression_reads c closed step reads
  exact Cursor.inside_of_not_endsClause ((Chained.begins derived).kind passes).plain.2

theorem primary_inside (closed : c.Closed) {step : Step Expr c.remaining}
    (reads : primary c = .ok step) : c.kind ≠ .endOfInput := by
  obtain ⟨_, passes, derived⟩ := primary_reads c closed step reads
  exact Cursor.inside_of_not_endsClause (Begins.operand (derived.begins.kind passes)).plain.2

theorem statement_inside {enclosing : Enclosing} (closed : c.Closed)
    {step : Step Stmt c.remaining} (reads : statement enclosing c = .ok step) :
    c.kind ≠ .endOfInput := by
  obtain ⟨_, passes, derived⟩ := statement_reads enclosing c closed step reads
  exact Cursor.inside_of_not_endsClause (derived.begins.kind passes)

end Grammar

namespace Row

/-- If the result is a value of which `full` holds, the walker has passed a token since `origin`. -/
def Passed {α : Type} (r : Row) (origin : Walker) (full : α → Prop) (result : Except ParseError α)
    (after : Walker) : Prop :=
  ∀ a, result = .ok a → full a → r.Past origin after

section Passed

variable {r : Row} {α β : Type} {origin w : Walker} {c : Cursor} {walk : Walk α}

theorem passed_error {full : α → Prop} (e : ParseError) :
    r.Passed origin full (.error e) w := by
  rintro _ ⟨⟩

theorem passed_none : r.Passed origin (·.isSome) (.ok (none : Option α)) w := by
  rintro _ ⟨⟩ ⟨⟩

theorem Ends.then {post : Except ParseError α → Walker → Prop} {more : α → Walk β}
    {full : β → Prop} (ends : r.Ends walk w post)
    (goes : ∀ a after, r.Leads w after → post (.ok a) after →
      r.Ends (more a) after (r.Passed origin full)) :
    r.Ends (walk >>= more) w (r.Passed origin full) :=
  .bind ends goes fun e _ _ => passed_error e

theorem Ends.beyond {post : Except ParseError α → Walker → Prop} {more : α → Walk β}
    {full : β → Prop} (past : r.Past origin w) (stands : r.At w c) (ends : r.Ends walk w post)
    (goes : ∀ a after d, r.Past origin after → r.At after d →
      r.Ends (more a) after (r.Passed origin full)) :
    r.Ends (walk >>= more) w (r.Passed origin full) := by
  apply ends.then
  intro a after leads _
  obtain ⟨d, there⟩ := stands.leads leads
  exact goes a after d (past.leads leads) there

theorem Matches.passes {read : Parse α c.remaining} (agrees : r.Agrees walk w read)
    (stands : r.At w c) (inside : ∀ step, read = .ok step → c.kind ≠ .endOfInput) :
    r.Ends walk w (r.Passed w fun _ => True) := by
  apply agrees.imp
  rintro _ after leads meets a rfl -
  cases reads : read with
  | error e =>
      rw [reads] at meets
      cases meets
  | ok step =>
      rw [reads] at meets
      obtain ⟨there⟩ := meets
      exact stands.past there step.shorter (inside step reads)

theorem expression_passes (stands : r.At w c) :
    r.Ends r.expression w (r.Passed w fun _ => True) :=
  Matches.passes (expression_agrees c stands) stands fun _ =>
    Grammar.expression_inside stands.closed

theorem primary_passes (stands : r.At w c) : r.Ends r.primary w (r.Passed w fun _ => True) :=
  Matches.passes (primary_agrees c stands) stands fun _ => Grammar.primary_inside stands.closed

theorem statement_passes (stands : r.At w c) : r.Ends r.statement w (r.Passed w fun _ => True) :=
  Matches.passes (statement_agrees c stands rfl) stands fun _ =>
    Grammar.statement_inside stands.closed

end Passed

section Turns

variable {r : Row} {w : Walker} {c : Cursor}

theorem chainTurn_passes (tighter : Nat) (left : Expr) (stands : r.At w c) :
    r.Ends (r.chainTurn tighter left) w (r.Passed w (·.isSome)) := by
  rw [chainTurn]
  cases taken : c.takeAs (Connective.atLevel? (tighter + 1)) with
  | none => exact .untaken stands taken rfl (.pure passed_none)
  | some connective =>
      apply Ends.taken stands taken
      intro after leads there
      have past := stands.past there connective.shorter (Cursor.inside_of_takeAs taken rfl)
      apply Ends.beyond past there (chain_agrees tighter connective.next there)
      intro right after d past _
      exact .pure fun _ _ _ => past

theorem postfixTurn_passes (object : Expr) (stands : r.At w c) :
    r.Ends (r.postfixTurn object) w (r.Passed w (·.isSome)) := by
  rw [postfixTurn]
  cases taken : c.take? (.punct .dot) with
  | some dot =>
      apply Ends.took stands taken
      intro after leads there
      have past := stands.past there dot.shorter (Cursor.inside_of_take? taken (by simp))
      apply Ends.beyond past there (expectAs_agrees there rfl _)
      intro name after d past _
      exact .pure fun _ _ _ => past
  | none =>
      apply Ends.left stands taken (by simp)
      dsimp only
      cases taken : c.take? (.punct .openBracket) with
      | some opening =>
          apply Ends.took stands taken
          intro after leads there
          have past := stands.past there opening.shorter (Cursor.inside_of_take? taken (by simp))
          apply Ends.beyond past there (chain_agrees _ opening.next there)
          intro position after d past there
          apply Ends.beyond past there (expectMark_agrees there _)
          intro closing after d past _
          exact .pure fun _ _ _ => past
      | none =>
          apply Ends.left stands taken (by simp)
          dsimp only
          cases taken : c.take? (.punct .openParen) with
          | some opening =>
              apply Ends.took stands taken
              intro after leads there
              have past := stands.past there opening.shorter
                (Cursor.inside_of_take? taken (by simp))
              apply Ends.beyond past there (items_agrees _ opening.next there)
              intro arguments after d past _
              exact .pure fun _ _ _ => past
          | none =>
              apply Ends.left stands taken (by simp)
              exact .pure passed_none

theorem itemsTurn_passes (closing : Punct) (stands : r.At w c) :
    r.Ends (r.itemsTurn closing) w (r.Passed w (·.isSome)) := by
  rw [itemsTurn]
  apply Ends.token stands
  split
  · exact .pure passed_none
  · apply Ends.then (expression_passes stands)
    intro item after leads passed
    have past := passed item rfl trivial
    obtain ⟨d, there⟩ := stands.leads leads
    cases taken : d.take? (.punct .comma) with
    | some comma =>
        apply Ends.took there taken
        intro after leads _
        exact .pure fun _ _ _ => past.leads leads
    | none =>
        apply Ends.left there taken (by simp)
        apply Ends.token there
        split
        · exact .pure fun _ _ _ => past
        · exact .fail there (passed_error _)

theorem oneStatement_passes (stands : r.At w c) :
    r.Ends (do let s ← r.statement; return some s) w (r.Passed w (·.isSome)) := by
  apply Ends.then (statement_passes stands)
  intro s after _ passed
  exact .pure fun _ _ _ => passed s rfl trivial

theorem blockTurn_passes (stands : r.At w c) : r.Ends r.blockTurn w (r.Passed w (·.isSome)) := by
  rw [blockTurn]
  apply Ends.token stands
  split
  · exact .pure passed_none
  · split
    · exact .fail stands (passed_error _)
    · exact oneStatement_passes stands

theorem clauseTurn_passes (seenDefault : Bool) (stands : r.At w c) :
    r.Ends (r.clauseTurn seenDefault) w (r.Passed w (·.isSome)) := by
  rw [clauseTurn]
  apply Ends.token stands
  split
  · exact .pure passed_none
  · cases taken : c.take? (.keyword .case) with
    | some word =>
        apply Ends.took stands taken
        intro after leads there
        have past := stands.past there word.shorter (Cursor.inside_of_take? taken (by simp))
        apply Ends.beyond past there (expression_agrees word.next there)
        intro test after d past there
        apply Ends.beyond past there (expectMark_agrees there _)
        intro colon after d past there
        apply Ends.beyond past there (clauseBody_agrees d (Nat.lt_succ_self _) there rfl)
        intro body after d past _
        exact .pure fun _ _ _ => past
    | none =>
        apply Ends.left stands taken (by simp)
        dsimp only
        cases taken : c.take? (.keyword .default) with
        | some word =>
            have here : c.token.kind = .keyword .default := Cursor.kind_of_take? taken
            rw [if_pos here]
            split
            · exact .throw (passed_error _)
            · apply Ends.advance stands taken
              intro after leads there
              have past := stands.past there word.shorter
                (Cursor.inside_of_take? taken (by simp))
              apply Ends.beyond past there (expectMark_agrees there _)
              intro colon after d past there
              apply Ends.beyond past there (clauseBody_agrees d (Nat.lt_succ_self _) there rfl)
              intro body after d past _
              exact .pure fun _ _ _ => past
        | none =>
            have other : c.token.kind ≠ .keyword .default :=
              Cursor.take?_eq_none taken stands.closed (by simp)
            rw [if_neg other]
            exact .fail stands (passed_error _)

theorem bodyTurn_passes (stands : r.At w c) : r.Ends r.bodyTurn w (r.Passed w (·.isSome)) := by
  rw [bodyTurn]
  apply Ends.token stands
  split
  · exact .pure passed_none
  · exact oneStatement_passes stands

theorem programTurn_passes (stands : r.At w c) :
    r.Ends r.programTurn w (r.Passed w (·.isSome)) := by
  rw [programTurn]
  apply Ends.token stands
  split
  · exact .pure passed_none
  · exact oneStatement_passes stands

end Turns

/-- From any token of the row, whatever the counts, the walk comes to something, has gone only
forward and leaves the counts as they were; a value of which `full` holds is given past a token. -/
def Proceeds {α : Type} (r : Row) (walk : Walk α) (full : α → Prop) : Prop :=
  ∀ w : Walker, w.index < r.tokens.length → r.Ends walk w (r.Passed w full)

structure Progresses (r : Row) : Prop where
  program : ∃ result after, r.program.result .start = some (result, after) ∧
    Program.ofTokens r.tokens = result.mapError .wrong ∧ r.Leads .start after ∧ r.Sound after
  statement : r.Proceeds r.statement fun _ => True
  expression : r.Proceeds r.expression fun _ => True
  primary : r.Proceeds r.primary fun _ => True
  programTurn : r.Proceeds r.programTurn (·.isSome)
  blockTurn : r.Proceeds r.blockTurn (·.isSome)
  clauseTurn : ∀ seenDefault, r.Proceeds (r.clauseTurn seenDefault) (·.isSome)
  bodyTurn : r.Proceeds r.bodyTurn (·.isSome)
  itemsTurn : ∀ closing, r.Proceeds (r.itemsTurn closing) (·.isSome)
  chainTurn : ∀ tighter left, r.Proceeds (r.chainTurn tighter left) (·.isSome)
  postfixTurn : ∀ object, r.Proceeds (r.postfixTurn object) (·.isSome)

/-- A row whose last token is an end of input is walked to a program or an error, and the walk goes
forward with every statement, expression and turn of a loop. -/
theorem progresses {r : Row} {stop : Token} (last : r.tokens.getLast? = some stop)
    (stops : stop.kind = .endOfInput) : r.Progresses := by
  have proceeds {α : Type} {walk : Walk α} {full : α → Prop}
      (passes : ∀ w c, r.At w c → r.Ends walk w (r.Passed w full)) : r.Proceeds walk full := by
    intro w there
    obtain ⟨c, stands⟩ := exists_at there last stops
    exact passes w c stands
  constructor
  · obtain ⟨body, known⟩ := List.getLast?_eq_some_iff.mp last
    obtain ⟨result, after, comes, leads, read⟩ := program_agrees _ (at_start known stops) rfl
    refine ⟨result, after, comes, ?_, leads, leads.sound (sound_start (by simp [known]))⟩
    rw [Program.ofTokens, known, Cursor.ofTokens?_concat stops, read]
    dsimp only
    cases Grammar.program ⟨body, stop, 0⟩ <;> rfl
  · exact proceeds fun _ _ => statement_passes
  · exact proceeds fun _ _ => expression_passes
  · exact proceeds fun _ _ => primary_passes
  · exact proceeds fun _ _ => programTurn_passes
  · exact proceeds fun _ _ => blockTurn_passes
  · exact fun seenDefault => proceeds fun _ _ => clauseTurn_passes seenDefault
  · exact proceeds fun _ _ => bodyTurn_passes
  · exact fun closing => proceeds fun _ _ => itemsTurn_passes closing
  · exact fun tighter left => proceeds fun _ _ => chainTurn_passes tighter left
  · exact fun object => proceeds fun _ _ => postfixTurn_passes object

def endsTwice : Row :=
  ⟨[⟨.identifier "x", "x", ⟨1, 1⟩⟩, ⟨.endOfInput, "", ⟨1, 2⟩⟩, ⟨.keyword .else, "else", ⟨2, 1⟩⟩,
    ⟨.endOfInput, "", ⟨2, 5⟩⟩]⟩

theorem progresses_endsTwice : endsTwice.tokens.getLast? = some ⟨.endOfInput, "", ⟨2, 5⟩⟩ ∧
    endsTwice.Progresses :=
  ⟨rfl, progresses rfl rfl⟩

end Row

end Script
