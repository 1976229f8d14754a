import Mathlib.Data.List.Induction
import Script.Proofs.Token.Form
import Script.Proofs.Token.Moved

/-!
Where the tokens of a text lie. Each is the part of the text between two offsets and stands at the
place of the first; between them there are gaps only. What is read before an error does not depend
on what follows its place.
-/

namespace Script

def slice (cs : List Char) (a b : Nat) : List Char := (cs.take b).drop a

def Pos.at (cs : List Char) (a : Nat) : Pos :=
  ⟨1 + (cs.take a).count '\n', 1 + ((cs.take a).reverse.takeWhile (· ≠ '\n')).length⟩

namespace Token

/-- The token is the part of the text between the offsets. -/
structure Lies (cs : List Char) (t : Token) (a b : Nat) : Prop where
  long : a < b
  within : b ≤ cs.length
  lexeme : slice cs a b = t.lexeme.toList
  place : t.pos = Pos.at cs a

/-- From the offset `n` on the tokens lie one after another, with gaps before them. -/
inductive Spans (cs : List Char) : Nat → List Token → Nat → Prop
  | nil {n : Nat} : Spans cs n [] n
  | cons {n a b last : Nat} {t : Token} {more : List Token} (after : n ≤ a)
      (gap : Gap false (slice cs n a)) (lies : Lies cs t a b) (inside : t.kind ≠ .endOfInput)
      (rest : Spans cs b more last) : Spans cs n (t :: more) last

def endAt (cs : List Char) (a : Nat) : Token := ⟨.endOfInput, "", Pos.at cs a⟩

end Token

section Slices

variable {cs word rest : List Char} {n a b : Nat}

theorem slice_append (first : n ≤ a) (second : a ≤ b) :
    slice cs n a ++ slice cs a b = slice cs n b := by
  have inner : (cs.take b).take a = cs.take a := by rw [List.take_take, Nat.min_eq_left second]
  calc slice cs n a ++ slice cs a b
      = ((cs.take b).take a).drop n ++ ((cs.take b).drop n).drop (a - n) := by
        rw [inner, List.drop_drop, Nat.add_sub_cancel' first, slice, slice]
    _ = ((cs.take b).drop n).take (a - n) ++ ((cs.take b).drop n).drop (a - n) := by
        rw [List.drop_take]
    _ = slice cs n b := List.take_append_drop _ _

theorem slice_drop (first : a ≤ b) (within : b ≤ cs.length) :
    slice cs a b ++ cs.drop b = cs.drop a := by
  have length : a ≤ (cs.take b).length := by rwa [List.length_take_of_le within]
  rw [slice, ← List.drop_append_of_le_length length, List.take_append_drop]

theorem slice_of_drop (within : n ≤ cs.length) (same : word ++ rest = cs.drop n) :
    slice cs n (n + word.length) = word ∧ cs.drop (n + word.length) = rest ∧
      n + word.length ≤ cs.length := by
  refine ⟨?_, ?_, ?_⟩
  · rw [slice, List.drop_take, ← same]
    simp
  · rw [← List.drop_drop, ← same]
    simp
  · have length := congrArg List.length same
    simp only [List.length_append, List.length_drop] at length
    omega

theorem Pos.at_eq (cs : List Char) (a : Nat) : Pos.at cs a = Pos.start.after (cs.take a) := by
  have column (cs : List Char) :
      (start.after cs).column = 1 + (cs.reverse.takeWhile (· ≠ '\n')).length := by
    induction cs using List.reverseRecOn with
    | nil => rfl
    | append_singleton cs c again =>
        rw [after_append, List.reverse_append]
        show ((start.after cs).next c).column = _
        rw [next]
        by_cases newline : c = '\n'
        · simp [newline]
        · simp [newline, again]
          omega
  rw [Pos.at, ← column, ← show start.line = 1 from rfl, ← line_after]

theorem Pos.at_after (first : a ≤ b) : (Pos.at cs a).after (slice cs a b) = Pos.at cs b := by
  have joined : cs.take a ++ slice cs a b = cs.take b := slice_append (Nat.zero_le a) first
  rw [Pos.at_eq, Pos.at_eq, ← Pos.after_append, joined]

end Slices

namespace Token

/-- What reading a text from the offset `n` on gives: tokens up to the end of the text, or up to an
offset where it cannot be read. -/
inductive Accounted (cs : List Char) (n : Nat) : Scanned → Prop
  | ended {body : List Token} {last : Nat} (spans : Spans cs n body last)
      (within : last ≤ cs.length) (gap : Gap true (cs.drop last)) :
      Accounted cs n ⟨body ++ [endAt cs cs.length], none⟩
  | stuck {body : List Token} {last p : Nat} {cause : LexCause} (spans : Spans cs n body last)
      (before : last ≤ p) (within : p < cs.length) (gap : Gap false (slice cs last p))
      (stuck : Lexeme.Stuck cause (cs.drop p))
      (again : scanFrom (Pos.at cs n) (slice cs n p) = ⟨body ++ [endAt cs p], none⟩) :
      Accounted cs n ⟨body, some ⟨cause, Pos.at cs p⟩⟩

section Accounted

variable {cs word rest : List Char} {kind : Kind} {n a : Nat}

theorem Spans.le {body : List Token} {last : Nat} (spans : Spans cs n body last) : n ≤ last := by
  induction spans with
  | nil => exact Nat.le_refl _
  | cons after _ lies _ _ again =>
      exact Nat.le_trans after (Nat.le_trans (Nat.le_of_lt lies.long) again)

theorem reads_kind (reads : Lexeme.Reads word kind rest cs) : kind ≠ .endOfInput := by
  cases cs with
  | nil => exact reads.elim
  | cons c cs =>
      have result : (Lexeme.read c cs).map Lexeme.parts = .ok (word, kind, rest) := reads
      cases known : Lexeme.read c cs with
      | error cause =>
          rw [known] at result
          cases result
      | ok found =>
          rw [known] at result
          cases result
          exact read_kind known

theorem scanFrom_gap (gap : Gap false (slice cs n a)) (after : n ≤ a) :
    scanFrom (Pos.at cs n) (slice cs n a) = ⟨[endAt cs a], none⟩ := by
  obtain ⟨taken, left⟩ := gap.skipped .nil
  rw [List.append_nil] at taken left
  rw [scanFrom_nil _ left, taken, Pos.at_after after]
  rfl

theorem Accounted.cons {b : Nat} (after : n ≤ a) (gap : Gap false (slice cs n a))
    (solid : Solid (cs.drop a))
    (reads : Lexeme.Reads (slice cs a b) kind (cs.drop b) (cs.drop a)) (long : a < b)
    (within : b ≤ cs.length) (inside : kind ≠ .endOfInput) {later : Scanned}
    (accounted : Accounted cs b later) :
    Accounted cs n (later.cons ⟨kind, String.ofList (slice cs a b), Pos.at cs a⟩) := by
  have span {more : List Token} {last : Nat} (rest : Spans cs b more last) :
      Spans cs n (⟨kind, String.ofList (slice cs a b), Pos.at cs a⟩ :: more) last :=
    .cons after gap ⟨long, within, String.toList_ofList.symm, rfl⟩ inside rest
  cases accounted with
  | ended spans within gap => exact .ended (span spans) within gap
  | @stuck body last p cause spans before within gap' stuck again =>
      refine .stuck (span spans) before within gap' stuck ?_
      have first := Nat.le_of_lt long
      have second := Nat.le_trans spans.le before
      have third := Nat.le_of_lt within
      have whole : slice cs n p = slice cs n a ++ (slice cs a b ++ slice cs b p) := by
        rw [slice_append first second, slice_append after (Nat.le_trans first second)]
      have longer : slice cs a b ++ slice cs b p ++ cs.drop p = cs.drop a := by
        rw [slice_append first second, slice_drop (Nat.le_trans first second) third]
      rw [← slice_drop second third] at reads
      rw [← longer] at solid
      obtain ⟨taken, left⟩ := gap.skipped solid.shortened
      rw [whole, scanFrom_reads _ (left.symm ▸ reads.shortened), taken, Pos.at_after after,
        Pos.at_after first, again]
      rfl

theorem scanFrom_accounted (cs : List Char) (n : Nat) (start : n ≤ cs.length) :
    Accounted cs n (scanFrom (Pos.at cs n) (cs.drop n)) := by
  -- what is left is a gap, and then nothing, a lexeme or what cannot be read
  obtain ⟨gap, solid⟩ := filler_gap (cs.drop n)
  obtain ⟨taken, dropped, within⟩ := slice_of_drop start (filler (cs.drop n)).joined
  have after : n ≤ n + (filler (cs.drop n)).taken.length := Nat.le_add_right ..
  generalize n + (filler (cs.drop n)).taken.length = a at taken dropped within after
  rw [← taken, ← dropped] at gap
  rw [← dropped] at solid
  rcases Lexeme.reads_cases (cs.drop a) with ends | ⟨c, rest, cause, known, refused⟩ |
    ⟨word, kind, rest, reads⟩
  · obtain rfl : a = cs.length := Nat.le_antisymm within (List.drop_eq_nil_iff.mp ends)
    rw [scanFrom_nil _ (dropped.symm.trans ends), ← taken, Pos.at_after after]
    refine .ended .nil start ?_
    rw [← slice_drop after within, ends, List.append_nil]
    rwa [ends] at gap
  · rw [scanFrom_error_of _ (dropped.symm.trans known) refused, ← taken, Pos.at_after after]
    rw [known] at gap solid
    have stuck := Lexeme.stuck_of_error refused solid
    rw [← known] at stuck
    have inside : a < cs.length := by
      rw [← Nat.not_le, ← List.drop_eq_nil_iff, known]
      nofun
    exact .stuck .nil after inside gap stuck (scanFrom_gap gap after)
  · have visible : Solid (cs.drop a) := solid.resolve_right fun ⟨more, opens, _⟩ =>
      reads.unopened more opens
    obtain ⟨part, dropped', within'⟩ := slice_of_drop within reads.joined
    have long : a < a + word.length := by
      have shorter := reads.length_lt
      rw [← dropped', List.length_drop, List.length_drop] at shorter
      omega
    rw [scanFrom_reads _ (dropped ▸ reads), ← taken, Pos.at_after after]
    generalize a + word.length = b at part dropped' within' long
    subst part dropped'
    rw [List.isEmpty_eq_false_iff.mpr reads.ne_nil] at gap
    rw [Pos.at_after (Nat.le_of_lt long)]
    exact (scanFrom_accounted cs b within').cons after gap visible reads long within'
      (reads_kind reads)
termination_by cs.length - n

end Accounted

/-- What a text is read as accounts for all of it. -/
theorem scan_accounts (source : String) :
    ∃ body last, Spans source.toList 0 body last ∧ last ≤ source.toList.length ∧
      ((scan source = ⟨body ++ [endAt source.toList source.toList.length], none⟩ ∧
          Gap true (source.toList.drop last)) ∨
        ∃ cause p, scan source = ⟨body, some ⟨cause, Pos.at source.toList p⟩⟩ ∧
          last ≤ p ∧ p < source.toList.length ∧ Gap false (slice source.toList last p) ∧
          Lexeme.Stuck cause (source.toList.drop p) ∧
          scan (String.ofList (source.toList.take p)) =
            ⟨body ++ [endAt source.toList p], none⟩) := by
  have accounted := scanFrom_accounted source.toList 0 (Nat.zero_le _)
  have whole : scan source = scanFrom (Pos.at source.toList 0) (source.toList.drop 0) := rfl
  rw [← whole] at accounted
  generalize scan source = scanned at accounted
  cases accounted with
  | @ended body last spans within gap => exact ⟨body, last, spans, within, .inl ⟨rfl, gap⟩⟩
  | @stuck body last p cause spans before within gap stuck again =>
      refine ⟨body, last, spans, Nat.le_of_lt (Nat.lt_of_le_of_lt before within),
        .inr ⟨cause, p, rfl, before, within, gap, stuck, ?_⟩⟩
      rw [scan, String.toList_ofList]
      exact again

end Token

end Script
