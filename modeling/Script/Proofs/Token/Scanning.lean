import Script.Proofs.Grammar.Derivation
import Script.Token.Scan

/-!
How reading tokens ends: with the end of input after all other tokens, or with an error at a place
in the text or at its end.
-/

namespace Script.Token

/-- The place that is come to by reading a first part of the text. -/
def Within (cs : List Char) (start pos : Pos) : Prop := ∃ read, read <+: cs ∧ pos = start.after read

theorem Within.append {cs : List Char} {start pos : Pos} {taken rest : List Char}
    (joined : taken ++ rest = cs) (within : Within rest (start.after taken) pos) :
    Within cs start pos := by
  obtain ⟨read, before, rfl⟩ := within
  refine ⟨taken ++ read, ?_, (Pos.after_append start taken read).symm⟩
  rw [← joined]
  exact (List.prefix_append_right_inj taken).mpr before

theorem scanFrom_error (pos : Pos) (cs : List Char) {e : LexError}
    (fails : (scanFrom pos cs).error = some e) : Within cs pos e.pos := by
  rw [scanFrom] at fails
  have joined := (filler cs).joined
  split at fails
  · cases fails
  · next c rest known =>
      rw [known] at joined
      split at fails
      · next cause refused =>
          cases fails
          exact .append joined ⟨[], List.nil_prefix, rfl⟩
      · next found read =>
          have shorter : found.rest.length < cs.length := by
            have least := found.rest_lt found.taken_ne_nil
            have within := (filler cs).rest_le
            rw [known] at within
            exact Nat.lt_of_lt_of_le least within
          have later := scanFrom_error _ found.rest fails
          exact .append joined (.append found.joined later)
termination_by cs.length

theorem scan_error {source : String} {e : LexError}
    (fails : (scan source).toExcept = .error e) : Within source.toList .start e.pos := by
  unfold Scanned.toExcept at fails
  split at fails
  · next known =>
      cases fails
      exact scanFrom_error .start source.toList known
  · cases fails

theorem read_kind {c : Char} {rest : List Char} {found : Lexeme (c :: rest)}
    (read : Lexeme.read c rest = .ok found) : found.kind ≠ .endOfInput := by
  have word (text : String) : Lexeme.wordKind text ≠ .endOfInput := by
    unfold Lexeme.wordKind
    split <;> simp
  have operator {cs : List Char} {found : Lexeme cs} (read : Lexeme.operator? cs = some found) :
      found.kind ≠ .endOfInput := by
    unfold Lexeme.operator? at read
    split at read
    · cases read
      simp
    · cases read
  unfold Lexeme.read at read
  split at read
  · cases read
    simp
  · split at read
    · split at read
      · cases read
        simp
      · cases read
    · split at read
      · cases read
        exact word _
      · unfold Lexeme.symbol at read
        split at read
        · cases read
        · split at read
          · next known =>
              cases read
              exact operator known
          · split at read
            · next known =>
                cases read
                simp only [Lexeme.punct?, Option.map_eq_some_iff] at known
                obtain ⟨mark, _, rfl⟩ := known
                simp
            · cases read

theorem scanFrom_endOnce (pos : Pos) (cs : List Char) :
    (scanFrom pos cs).error = none → EndOnce (scanFrom pos cs).tokens := by
  rw [scanFrom]
  split
  · intro _
    exact ⟨[], _, rfl, rfl, by simp⟩
  · next c rest known =>
      split
      · intro ends
        cases ends
      · next found read =>
          intro ends
          have shorter : found.rest.length < cs.length := by
            have least := found.rest_lt found.taken_ne_nil
            have within := (filler cs).rest_le
            rw [known] at within
            exact Nat.lt_of_lt_of_le least within
          obtain ⟨body, stop, same, stops, inside⟩ := scanFrom_endOnce _ found.rest ends
          refine ⟨_ :: body, stop, congrArg (List.cons _) same, stops, ?_⟩
          intro t member
          rcases List.mem_cons.mp member with rfl | later
          · exact read_kind read
          · exact inside t later
termination_by cs.length

theorem scan_endOnce {source : String} {tokens : List Token}
    (scanned : (scan source).toExcept = .ok tokens) : EndOnce tokens := by
  unfold Scanned.toExcept at scanned
  split at scanned
  · cases scanned
  · next ends =>
      cases scanned
      exact scanFrom_endOnce .start source.toList ends

end Script.Token
