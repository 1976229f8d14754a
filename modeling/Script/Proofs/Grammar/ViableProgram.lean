import Mathlib
import Script.Proofs.Grammar.ViableStatement

/-!
The first wrong token of a program. The tokens before it can be completed to a program, those up to
it cannot.
-/

namespace Script

namespace Grammar

def SomeProgram (v : List Token) : Prop :=
  ∀ stop : Token, stop.kind = .endOfInput → ∃ p, Statements ⟨false, false⟩ v stop p

theorem SomeProgram.cons {w v : List Token} {t : Token} {s : Stmt}
    (first : Statement ⟨false, false⟩ w t s) (others : SomeProgram (t :: v)) :
    SomeProgram (w ++ t :: v) := by
  intro stop stops
  obtain ⟨p, inside⟩ := others stop stops
  exact ⟨_, .cons first inside⟩

theorem program_wrong (c : Cursor) (closed : c.Closed) {e : ParseError}
    (fails : program c = .error e) :
    c.GoesWrong e (fun c' => program c' = .error e) SomeProgram := by
  rw [program] at fails
  split at fails
  · cases fails
  · next inside =>
      have inside {c' : Cursor} (same : c'.token = c.token) : c'.kind ≠ .endOfInput :=
        Cursor.kind_of_token same ▸ inside
      rcases Parse.bind_eq_error fails with firstFails | ⟨first, firstReads, fails⟩
      · refine (statement_wrong _ c closed firstFails).imp ?_ ?_
        · intro v whole stop stops
          obtain ⟨s, derived⟩ := whole stop (by simp [stops])
          exact ⟨_, .one derived⟩
        · intro c' same fails
          rw [program, if_neg (inside same), fails]
          rfl
      · obtain ⟨w, passes, derived⟩ := statement_reads _ c closed first firstReads
        have shorter := first.shorter
        rcases Parse.bind_eq_error fails with othersFail | ⟨_, -, same⟩
        · refine (program_wrong first.next (closed.passes passes) othersFail).afterStatements
            passes [] ?_ (fun v others => .cons derived others) ?_
          · intro line stop stops
            rw [List.map_nil, List.append_nil]
            exact ⟨_, .one (derived.stopped (.inr stops))⟩
          · intro c' m' same passes' next fails
            obtain ⟨_, firstReads⟩ := derived.gives passes' next
            rw [program, if_neg (inside same)]
            simp only [bind, Except.bind, firstReads, fails]
        · cases same
termination_by c.remaining

end Grammar

theorem Cursor.passes_of_isPrefix {w body : List Token} {t stop : Token} (line : Nat)
    (begins : w ++ [t] <+: body ++ [stop]) :
    ∃ d, Passes ⟨body, stop, line⟩ w d ∧ d.token = t := by
  obtain ⟨others, same⟩ := begins
  rcases List.eq_nil_or_concat others with rfl | ⟨others, last, rfl⟩
  · rw [List.append_nil] at same
    obtain ⟨rfl, ends⟩ := List.append_inj' same rfl
    cases ends
    exact ⟨⟨[], t, lineAfter line w⟩, ⟨(List.append_nil w).symm, rfl, rfl⟩, rfl⟩
  · rw [List.concat_eq_append, ← List.append_assoc] at same
    obtain ⟨rfl, ends⟩ := List.append_inj' same rfl
    cases ends
    exact ⟨⟨t :: others, stop, lineAfter line w⟩, ⟨by simp, rfl, rfl⟩, rfl⟩

theorem Program.ofTokens_concat {body : List Token} {stop : Token}
    (stops : stop.kind = .endOfInput) {e : ParseError} :
    Program.ofTokens (body ++ [stop]) = .error (.wrong e) ↔
      Grammar.program ⟨body, stop, 0⟩ = .error e := by
  simp only [Program.ofTokens, Cursor.ofTokens?_concat stops]
  split <;> simp_all

/-- Tokens that can be gone on with, on the line of the last of them, to a program. -/
def Token.Viable (kept : List Token) : Prop :=
  ∃ more : List Token,
    (∀ t ∈ more, ∃ last, kept.getLast? = some last ∧ t.pos.line = last.pos.line) ∧
      ∀ stop : Token, stop.kind = .endOfInput → Token.EndOnce (kept ++ more ++ [stop]) ∧
        ∃ p, Program.ofTokens (kept ++ more ++ [stop]) = .ok p

theorem Grammar.SomeProgram.viable {kept more : List Token}
    (whole : SomeProgram (kept ++ more)) (inside : ∀ t ∈ kept, t.kind ≠ .endOfInput)
    (beside : OnLine (Cursor.lineAfter 0 kept) more) : Token.Viable kept := by
  cases last : kept.getLast? with
  | none =>
      cases List.getLast?_eq_none_iff.mp last
      refine ⟨[], nofun, fun stop stops => ⟨⟨[], stop, rfl, stops, nofun⟩, [], ?_⟩⟩
      exact (Program.Derived.mk stops .nil).reads
  | some t =>
      have line := Cursor.lineAfter_of_getLast? last 0
      refine ⟨more, fun u member => ⟨t, last, line ▸ (beside u member).1⟩, fun stop stops => ?_⟩
      obtain ⟨p, derived⟩ := whole stop stops
      refine ⟨⟨kept ++ more, stop, rfl, stops, ?_⟩, p, (Program.Derived.mk stops derived).reads⟩
      intro u member
      rcases List.mem_append.mp member with before | after
      · exact inside u before
      · exact (beside u after).2

/-- An error names the first wrong token: the tokens before it can be gone on with to a program, and
tokens that begin as far as that one are wrong in the same way, whatever comes after it. -/
theorem Program.ofTokens_wrong {tokens : List Token} (once : Token.EndOnce tokens) {e : ParseError}
    (fails : Program.ofTokens tokens = .error (.wrong e)) :
    ∃ kept rest, tokens = kept ++ e.found :: rest ∧ Token.Viable kept ∧
      ∀ tokens', kept ++ [e.found] <+: tokens' → Program.ofTokens tokens' = .error
        (if tokens'.getLast?.map (·.kind) = some .endOfInput then .wrong e else .noEnd) := by
  obtain ⟨body, stop, rfl, stops, inside⟩ := once
  rw [Program.ofTokens_concat stops] at fails
  obtain @⟨kept, more, d, passes, found, beside, mends, again⟩ :=
    Grammar.program_wrong ⟨body, stop, 0⟩ stops fails
  have ahead : body = kept ++ d.ahead := passes.ahead
  refine ⟨kept, (d.ahead ++ [stop]).tail, ?_, ?_, ?_⟩
  · rw [ahead, ← found, Cursor.token, passes.stop, List.append_assoc]
    cases d.ahead <;> rfl
  · refine mends.viable (fun t member => inside t ?_) beside
    rw [ahead]
    exact List.mem_append_left _ member
  · intro tokens' begins
    obtain ⟨body', stop', rfl⟩ : ∃ body' stop', tokens' = body' ++ [stop'] := by
      have some : tokens' ≠ [] := fun none => by simp [none] at begins
      exact ⟨_, _, (List.dropLast_concat_getLast some).symm⟩
    rw [List.getLast?_concat, Option.map_some]
    split
    · next stops' =>
        obtain ⟨d', passes', named⟩ := Cursor.passes_of_isPrefix 0 begins
        have stops' := Option.some.inj stops'
        exact (Program.ofTokens_concat stops').mpr (again stops' rfl passes' named)
    · next other =>
        have other : stop'.kind ≠ .endOfInput := fun same => other (congrArg some same)
        simp [Program.ofTokens, Cursor.ofTokens?, other]

/-- `switch (x) { default: a` and, on the next line, `default: }`. -/
def twoDefaults : List Token :=
  [⟨.keyword .switch, "switch", ⟨1, 1⟩⟩, ⟨.punct .openParen, "(", ⟨1, 8⟩⟩,
    ⟨.identifier "x", "x", ⟨1, 9⟩⟩, ⟨.punct .closeParen, ")", ⟨1, 10⟩⟩,
    ⟨.punct .openBrace, "\x7b", ⟨1, 12⟩⟩, ⟨.keyword .default, "default", ⟨1, 14⟩⟩,
    ⟨.punct .colon, ":", ⟨1, 21⟩⟩, ⟨.identifier "a", "a", ⟨1, 23⟩⟩,
    ⟨.keyword .default, "default", ⟨2, 1⟩⟩, ⟨.punct .colon, ":", ⟨2, 8⟩⟩,
    ⟨.punct .closeBrace, "\x7d", ⟨2, 10⟩⟩, ⟨.endOfInput, "", ⟨2, 11⟩⟩]

theorem ofTokens_twoDefaults :
    Token.EndOnce twoDefaults ∧
    Program.ofTokens twoDefaults =
      .error (.wrong ⟨.singleDefault, ⟨.keyword .default, "default", ⟨2, 1⟩⟩⟩) ∧
    ∃ kept rest, twoDefaults = kept ++ ⟨.keyword .default, "default", ⟨2, 1⟩⟩ :: rest ∧
      Token.Viable kept ∧
      ∀ tokens', kept ++ [⟨.keyword .default, "default", ⟨2, 1⟩⟩] <+: tokens' →
        Program.ofTokens tokens' = .error
          (if tokens'.getLast?.map (·.kind) = some .endOfInput then
            .wrong ⟨.singleDefault, ⟨.keyword .default, "default", ⟨2, 1⟩⟩⟩
          else .noEnd) := by
  have once : Token.EndOnce twoDefaults :=
    ⟨twoDefaults.dropLast, ⟨.endOfInput, "", ⟨2, 11⟩⟩, rfl, rfl, by simp [twoDefaults]⟩
  have fails : Program.ofTokens twoDefaults =
      .error (.wrong ⟨.singleDefault, ⟨.keyword .default, "default", ⟨2, 1⟩⟩⟩) := by
    unfold twoDefaults
    cbv
  exact ⟨once, fails, Program.ofTokens_wrong once fails⟩

end Script
