import Script.Token.Scan

/-!
Tokens at other places. A text that begins some lines further down gives the same tokens, all of
them that many lines further down.
-/

namespace Script

namespace Pos

def down (n : Nat) (p : Pos) : Pos := ⟨p.line + n, p.column⟩

theorem next_down (n : Nat) (p : Pos) (c : Char) : (p.down n).next c = (p.next c).down n := by
  unfold next
  split
  · simp only [down, Nat.add_right_comm]
  · rfl

theorem after_down (n : Nat) (p : Pos) (cs : List Char) :
    (p.down n).after cs = (p.after cs).down n := by
  induction cs generalizing p with
  | nil => rfl
  | cons c rest again =>
      show ((p.down n).next c).after rest = _
      rw [next_down, again]
      rfl

theorem line_after (p : Pos) (cs : List Char) : (p.after cs).line = p.line + cs.count '\n' := by
  induction cs generalizing p with
  | nil => rfl
  | cons c rest again =>
      show ((p.next c).after rest).line = _
      rw [again, List.count_cons, next]
      by_cases newline : c = '\n'
      · simp only [newline, if_true, beq_self_eq_true]
        omega
      · simp [newline]

theorem start_after_newline (cs : List Char) :
    start.after (cs ++ ['\n']) = start.down ((cs ++ ['\n']).count '\n') := by
  have line := line_after start (cs ++ ['\n'])
  have column : (start.after (cs ++ ['\n'])).column = 1 := by
    rw [after_append]
    rfl
  calc start.after (cs ++ ['\n'])
      = ⟨(start.after (cs ++ ['\n'])).line, (start.after (cs ++ ['\n'])).column⟩ := rfl
    _ = start.down ((cs ++ ['\n']).count '\n') := by rw [line, column]; rfl

end Pos

def Token.moved (f : Pos → Pos) (t : Token) : Token := { t with pos := f t.pos }

def LexError.moved (f : Pos → Pos) (e : LexError) : LexError := { e with pos := f e.pos }

def Scanned.moved (f : Pos → Pos) (s : Scanned) : Scanned :=
  ⟨s.tokens.map (Token.moved f), s.error.map (LexError.moved f)⟩

theorem Token.scanFrom_down (n : Nat) (pos : Pos) (cs : List Char) :
    scanFrom (pos.down n) cs = (scanFrom pos cs).moved (Pos.down n) := by
  rw [scanFrom, scanFrom]
  simp only [Pos.after_down]
  split
  · rfl
  · next c rest known =>
      split
      · rfl
      · next found read =>
          have shorter : found.rest.length < cs.length := by
            have least := found.rest_lt found.taken_ne_nil
            have within := (filler cs).rest_le
            rw [known] at within
            exact Nat.lt_of_lt_of_le least within
          rw [scanFrom_down n _ found.rest]
          rfl
termination_by cs.length

end Script
