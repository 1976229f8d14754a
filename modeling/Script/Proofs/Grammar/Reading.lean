import Script.Proofs.Grammar.Acceptance
import Script.Proofs.Grammar.Joining
import Script.Proofs.Token.Seams
import Script.Session

/-!
Texts read as programs. Two texts with a newline between them are read as their two programs, if the
first of them closes its last statement.
-/

namespace Script

theorem Scanned.toExcept_eq_ok_iff {s : Scanned} {tokens : List Token} :
    s.toExcept = .ok tokens ↔ s.error = none ∧ s.tokens = tokens := by
  unfold toExcept
  cases s.error <;> simp

/-- The text has no token, or its last one closes a statement. -/
def Token.Closed (source : String) : Prop :=
  ∀ t, (scan source).tokens.dropLast.getLast? = some t → Grammar.Closes t.kind

namespace Program

theorem read_cases (source : String) :
    (∃ e, (Token.scan source).toExcept = .error e ∧ Program.read source = .error (.lex e)) ∨
      ∃ tokens, (Token.scan source).toExcept = .ok tokens ∧
        ((∃ e, Program.ofTokens tokens = .error e ∧ Program.read source = .error (.parse e)) ∨
          ∃ p, Program.ofTokens tokens = .ok p ∧ Program.read source = .ok p) := by
  unfold Program.read reading
  cases scanned : (Token.scan source).toExcept with
  | error e => exact .inl ⟨e, rfl, rfl⟩
  | ok tokens =>
      refine .inr ⟨tokens, rfl, ?_⟩
      cases parsed : Program.ofTokens tokens with
      | error e =>
          refine .inl ⟨e, rfl, ?_⟩
          simp only [parsed]
      | ok p =>
          refine .inr ⟨p, rfl, ?_⟩
          simp only [parsed]

theorem read_eq_ok_iff {source : String} {p : Program} :
    Program.read source = .ok p ↔
      (Token.scan source).error = none ∧ Derived (Token.scan source).tokens p := by
  constructor
  · intro reads
    rcases read_cases source with
      ⟨e, -, fails⟩ | ⟨tokens, scanned, ⟨e, -, fails⟩ | ⟨q, parsed, read⟩⟩
    · rw [fails] at reads
      cases reads
    · rw [fails] at reads
      cases reads
    · rw [read] at reads
      cases reads
      obtain ⟨ends, rfl⟩ := Scanned.toExcept_eq_ok_iff.mp scanned
      exact ⟨ends, .of_reads (Token.scan_endOnce scanned) parsed⟩
  · rintro ⟨ends, derived⟩
    have scanned := Scanned.toExcept_eq_ok_iff.mpr ⟨ends, rfl⟩
    rcases read_cases source with ⟨e, fails, -⟩ | ⟨tokens, known, parsed⟩
    · rw [scanned] at fails
      cases fails
    · rw [scanned] at known
      cases known
      rcases parsed with ⟨e, fails, -⟩ | ⟨q, parsed, read⟩
      · rw [derived.reads] at fails
        cases fails
      · rw [derived.reads] at parsed
        cases parsed
        exact read

theorem keepsLines_down (n : Nat) : Grammar.KeepsLines (Pos.down n) :=
  fun _ _ later => Nat.add_lt_add_right later n

theorem read_join {first second : String} {p q : Program} (reads : Program.read first = .ok p)
    (closed : Token.Closed first) (readsNext : Program.read second = .ok q) :
    Program.read (first ++ "\n" ++ second) =
      .ok (p ++ q.moved (.down ((first ++ "\n").toList.count '\n'))) := by
  obtain ⟨ends, derived⟩ := read_eq_ok_iff.mp reads
  obtain ⟨endsNext, derivedNext⟩ := read_eq_ok_iff.mp readsNext
  have text : (first ++ "\n" ++ second).toList = first.toList ++ '\n' :: second.toList := by simp
  have count : (first ++ "\n").toList = first.toList ++ ['\n'] := by simp
  have scanned := Token.scanFrom_append second.toList .start first.toList ends
  rw [← text, Pos.start_after_newline, ← count, Token.scanFrom_down] at scanned
  rw [read_eq_ok_iff]
  show (Token.scanFrom .start _).error = none ∧ Derived (Token.scanFrom .start _).tokens _
  rw [scanned]
  generalize (first ++ "\n").toList.count '\n' = n
  refine ⟨congrArg (Option.map (LexError.moved (.down n))) endsNext, ?_⟩
  show Derived ((Token.scan first).tokens.dropLast ++
    (Token.scan second).tokens.map (Token.moved (.down n))) _
  unfold Token.Closed at closed
  generalize (Token.scan first).tokens = tokens at derived closed
  generalize (Token.scan second).tokens = more at derivedNext
  obtain @⟨body, stop, _, stops, whole⟩ := derived
  obtain @⟨bodyNext, stopNext, _, stopsNext, wholeNext⟩ := derivedNext
  rw [List.dropLast_concat] at closed ⊢
  rw [List.map_append, ← List.append_assoc]
  have later := wholeNext.moved (keepsLines_down n)
  refine @Derived.mk _ (stopNext.moved (.down n)) _ stopsNext (later.append ?_ whole ?_)
  · exact later.headD_ne_else (by simp [Token.moved, stopsNext])
  · intro nonempty
    obtain ⟨before, last, rfl⟩ : ∃ before last, body = before ++ [last] :=
      ⟨_, _, (List.dropLast_concat_getLast nonempty).symm⟩
    exact ⟨before, last, rfl, closed last (by simp)⟩

end Program

end Script
