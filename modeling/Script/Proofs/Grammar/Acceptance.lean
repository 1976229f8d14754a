import Script.Proofs.Grammar.Completeness
import Script.Proofs.Grammar.Soundness

/-!
Tokens are read as a program exactly if they derive it.
-/

namespace Script

namespace Grammar

theorem ahead_eq_nil {c : Cursor} (inside : ∀ t ∈ c.ahead, t.kind ≠ .endOfInput)
    (stops : c.kind = .endOfInput) : c.ahead = [] := by
  obtain ⟨ahead, stop, line⟩ := c
  cases ahead with
  | nil => rfl
  | cons t rest => exact absurd stops (inside t List.mem_cons_self)

theorem program_reads (c : Cursor) (closed : c.Closed)
    (inside : ∀ t ∈ c.ahead, t.kind ≠ .endOfInput) {p : Program} (reads : program c = .ok p) :
    Statements ⟨false, false⟩ c.ahead c.stop p := by
  rw [program] at reads
  split at reads
  · next stops =>
      cases reads
      rw [ahead_eq_nil inside stops]
      exact .nil
  · obtain ⟨first, firstReads, reads⟩ := Parse.bind_eq_ok reads
    obtain ⟨more, moreReads, same⟩ := Parse.bind_eq_ok reads
    cases same
    have shorter := first.shorter
    obtain ⟨w, passes, derived⟩ := statement_reads _ c closed first firstReads
    have others := program_reads first.next (closed.passes passes)
      (fun t member => inside t (passes.ahead ▸ List.mem_append_right w member)) moreReads
    rw [passes.stop] at others
    have here : first.next.token = first.next.ahead.headD c.stop := by
      rw [Cursor.token, passes.stop]
    rw [here] at derived
    rw [passes.ahead]
    exact .cons derived others
termination_by c.remaining

theorem Statements.program : ∀ {w : List Token} {stop : Token} {p : Program},
    Statements ⟨false, false⟩ w stop p → ∀ {c d : Cursor}, c.Passes w d → d.token = stop →
      stop.kind = .endOfInput → Grammar.program c = .ok p
  | _, _, _, .nil, c, _, passes, here, stops => by
      cases passes.unique (.refl c)
      have ends : c.kind = .endOfInput := by rw [Cursor.kind, here, stops]
      rw [Grammar.program, if_pos ends]
  | _, _, _, .cons first others, c, _, passes, here, stops => by
      have begins := (first.begins.append _).kind passes
      have inside : c.kind ≠ .endOfInput := by
        intro same
        rw [same] at begins
        cases begins
      obtain ⟨m, passes, last⟩ := passes.split
      have between := last.token
      rw [here] at between
      obtain ⟨shorter, firstReads⟩ := first.gives passes between
      have othersRead := others.program last here stops
      rw [Grammar.program, if_neg inside]
      simp only [firstReads, othersRead, bind, Except.bind]
      rfl

end Grammar

theorem Cursor.ofTokens?_concat {body : List Token} {stop : Token}
    (stops : stop.kind = .endOfInput) :
    Cursor.ofTokens? (body ++ [stop]) = some ⟨body, stop, 0⟩ := by
  simp [Cursor.ofTokens?, stops]

theorem Program.Derived.of_reads {tokens : List Token} (once : Token.EndOnce tokens) {p : Program}
    (reads : Program.ofTokens tokens = .ok p) : Program.Derived tokens p := by
  obtain ⟨body, stop, rfl, stops, inside⟩ := once
  simp only [Program.ofTokens, Cursor.ofTokens?_concat stops] at reads
  split at reads
  · next p' reads' =>
      cases reads
      exact .mk stops (Grammar.program_reads ⟨body, stop, 0⟩ stops inside reads')
  · cases reads

theorem Program.Derived.reads {tokens : List Token} {p : Program}
    (derived : Program.Derived tokens p) : Program.ofTokens tokens = .ok p := by
  obtain @⟨body, stop, _, stops, whole⟩ := derived
  have passes : Cursor.Passes ⟨body, stop, 0⟩ body ⟨[], stop, Cursor.lineAfter 0 body⟩ :=
    ⟨(List.append_nil body).symm, rfl, rfl⟩
  have reads := whole.program passes rfl stops
  simp only [Program.ofTokens, Cursor.ofTokens?_concat stops, reads]

/-- Tokens that end once are read as `p` exactly if they derive it, places included. -/
theorem Program.ofTokens_eq_ok_iff {tokens : List Token} (once : Token.EndOnce tokens)
    (p : Program) : Program.ofTokens tokens = .ok p ↔ Program.Derived tokens p :=
  ⟨Program.Derived.of_reads once, Program.Derived.reads⟩

theorem Grammar.Expression.name (text : String) (pos : Pos) :
    Expression [⟨.identifier text, text, pos⟩] (.name pos text) :=
  .tighter (.tighter (.tighter (.tighter (.tighter (.tighter
    (.postfixed (.primary (.name rfl))))))))

theorem Grammar.Condition.name (text : String) (opening pos closing : Pos) :
    Condition [⟨.punct .openParen, "(", opening⟩, ⟨.identifier text, text, pos⟩,
      ⟨.punct .closeParen, ")", closing⟩] (.name pos text) :=
  .mk rfl (Expression.name text pos) rfl

/-- `if (a) if (b) x` and, on the next line, `else y`. -/
def danglingElse : List Token :=
  [⟨.keyword .if, "if", ⟨1, 1⟩⟩, ⟨.punct .openParen, "(", ⟨1, 4⟩⟩, ⟨.identifier "a", "a", ⟨1, 5⟩⟩,
    ⟨.punct .closeParen, ")", ⟨1, 6⟩⟩, ⟨.keyword .if, "if", ⟨1, 8⟩⟩,
    ⟨.punct .openParen, "(", ⟨1, 11⟩⟩, ⟨.identifier "b", "b", ⟨1, 12⟩⟩,
    ⟨.punct .closeParen, ")", ⟨1, 13⟩⟩, ⟨.identifier "x", "x", ⟨1, 15⟩⟩,
    ⟨.keyword .else, "else", ⟨2, 1⟩⟩, ⟨.identifier "y", "y", ⟨2, 6⟩⟩, ⟨.endOfInput, "", ⟨2, 7⟩⟩]

open Grammar in
theorem ofTokens_danglingElse :
    Token.EndOnce danglingElse ∧ Program.ofTokens danglingElse =
      .ok [.if ⟨1, 1⟩ (.name ⟨1, 5⟩ "a") (.if ⟨1, 8⟩ (.name ⟨1, 12⟩ "b")
        (.expr ⟨1, 15⟩ (.name ⟨1, 15⟩ "x")) (some (.expr ⟨2, 6⟩ (.name ⟨2, 6⟩ "y")))) none] := by
  have once : Token.EndOnce danglingElse :=
    ⟨danglingElse.dropLast, ⟨.endOfInput, "", ⟨2, 7⟩⟩, rfl, rfl, by simp [danglingElse]⟩
  refine ⟨once, (Program.ofTokens_eq_ok_iff once _).mpr ?_⟩
  have x : Statement ⟨false, false⟩ [⟨.identifier "x", "x", ⟨1, 15⟩⟩]
      ⟨.keyword .else, "else", ⟨2, 1⟩⟩ (.expr ⟨1, 15⟩ (.name ⟨1, 15⟩ "x")) := by
    have apart : ¬ Continues (.expr ⟨1, 15⟩ (.name ⟨1, 15⟩ "x")) (.keyword .else) :=
      not_continues _ nofun nofun
    exact .unterminated (.expr (Expression.name "x" _)) (.line rfl (by decide) apart nofun)
  have y : Statement ⟨false, false⟩ [⟨.identifier "y", "y", ⟨2, 6⟩⟩]
      ⟨.endOfInput, "", ⟨2, 7⟩⟩ (.expr ⟨2, 6⟩ (.name ⟨2, 6⟩ "y")) :=
    .unterminated (.expr (Expression.name "y" _)) (.stop rfl)
  have inner : Statement ⟨false, false⟩ (danglingElse.drop 4).dropLast ⟨.endOfInput, "", ⟨2, 7⟩⟩
      (.if ⟨1, 8⟩ (.name ⟨1, 12⟩ "b") (.expr ⟨1, 15⟩ (.name ⟨1, 15⟩ "x"))
        (some (.expr ⟨2, 6⟩ (.name ⟨2, 6⟩ "y")))) :=
    @Statement.ifElse _ _ _ _ _ ⟨.keyword .if, "if", ⟨1, 8⟩⟩ _ _ _ _ rfl
      (.name "b" ⟨1, 11⟩ ⟨1, 12⟩ ⟨1, 13⟩) x rfl y
  have outer : Statement ⟨false, false⟩ danglingElse.dropLast ⟨.endOfInput, "", ⟨2, 7⟩⟩ _ :=
    @Statement.if _ _ _ _ ⟨.keyword .if, "if", ⟨1, 1⟩⟩ _ _ rfl
      (.name "a" ⟨1, 4⟩ ⟨1, 5⟩ ⟨1, 6⟩) inner nofun
  exact .mk rfl (.cons outer .nil)

end Script
