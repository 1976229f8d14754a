import Mathlib
import Script.Proofs.Grammar.Blame
import Script.Proofs.Grammar.Reading
import Script.Proofs.Token.Spans

/-!
Where a statement ends without `;`. Lines are compared by where tokens begin, so a statement ends
before a token that a newline stands before, or after a string literal that runs over a line break.
-/

namespace Script

namespace Lexeme

variable {c : Char} {cs word rest : List Char} {kind : Kind}

theorem symbol_oneLine (reads : (symbol c cs).map parts = .ok (word, kind, rest)) :
    '\n' ∉ word := by
  unfold symbol at reads
  split at reads
  · cases reads
  · have known := operator?_parts (c :: cs)
    cases operator : operator? (c :: cs) with
    | some found =>
        rw [operator] at known reads
        obtain ⟨op, -, spelt⟩ := Option.map_eq_some_iff.mp known.symm
        obtain rfl : op.spelling.toList = word :=
          congrArg (·.1) (spelt.trans (Except.ok.inj reads))
        cases op <;> decide
    | none =>
        rw [operator] at reads
        simp only [punct?] at reads
        cases marks : Punct.all.find? (·.spelling = c) with
        | none =>
            rw [marks] at reads
            cases reads
        | some mark =>
            rw [marks] at reads
            have same : mark.spelling = c := by simpa using List.find?_some marks
            obtain rfl : [c] = word := congrArg (·.1) (Except.ok.inj reads)
            rw [← same]
            cases mark <;> decide

theorem Numeral.oneLine (numeral : Numeral word) : '\n' ∉ word := by
  have digit {ds : List Char} (digits : ∀ d ∈ ds, d.isDigit) : '\n' ∉ ds := fun member =>
    absurd (digits _ member) (by decide)
  cases numeral with
  | whole _ digits => exact digit digits
  | fraction _ digits _ decimals =>
      simp only [List.mem_append, List.mem_cons, not_or]
      exact ⟨digit digits, by decide, digit decimals⟩

theorem Reads.oneLine (reads : Reads word kind rest cs) (plain : ∀ text, kind ≠ .string text) :
    '\n' ∉ word := by
  cases cs with
  | nil => exact reads.elim
  | cons c cs =>
      have result : (read c cs).map parts = .ok (word, kind, rest) := reads
      unfold read at result
      split at result
      · next digit =>
          obtain rfl : (Lexeme.number c cs).taken = word := congrArg (·.1) (Except.ok.inj result)
          exact (number_numeral digit cs).oneLine
      · split at result
        · split at result
          · cases result
            exact absurd rfl (plain _)
          · cases result
        · split at result
          · next letter =>
              obtain rfl : c :: cs.takeWhile isWordPart = word :=
                congrArg (·.1) (Except.ok.inj result)
              intro member
              rcases List.mem_cons.mp member with rfl | member
              · exact absurd letter (by decide)
              · exact absurd (mem_takeWhile member) (by decide)
          · exact symbol_oneLine result

end Lexeme

namespace Token

theorem scanFrom_oneLine (pos : Pos) (cs : List Char) : ∀ t ∈ (scanFrom pos cs).tokens,
    (∀ text, t.kind ≠ .string text) → '\n' ∉ t.lexeme.toList := by
  rcases Lexeme.reads_cases (filler cs).rest with ends | ⟨c, rest, cause, known, refused⟩ | reads
  · rw [scanFrom_nil pos ends]
    intro t member _
    rw [List.mem_singleton.mp member]
    exact List.not_mem_nil
  · rw [scanFrom_error_of pos known refused]
    exact fun t member => absurd member List.not_mem_nil
  · obtain ⟨word, kind, rest, reads⟩ := reads
    have shorter : rest.length < cs.length := by
      have within := (filler cs).rest_le
      have least := reads.length_lt
      omega
    rw [scanFrom_reads pos reads]
    intro t member plain
    rcases List.mem_cons.mp member with rfl | later
    · rw [String.toList_ofList]
      exact reads.oneLine plain
    · exact scanFrom_oneLine _ rest t later plain
termination_by cs.length

variable {cs : List Char} {n last : Nat} {t u : Token} {before more : List Token}

/-- Of two tokens, one after the other, the text holds both with a gap between them. -/
structure Follows (cs : List Char) (t u : Token) (b n : Nat) : Prop where
  first : ∃ a, Lies cs t a b
  after : b ≤ n
  gap : Gap false (slice cs b n)
  second : ∃ m, Lies cs u n m

theorem Spans.follows (spans : Spans cs n (before ++ t :: u :: more) last) :
    ∃ b n, Follows cs t u b n := by
  induction before generalizing n with
  | nil =>
      obtain _ | ⟨_, _, lies, _, rest⟩ := spans
      obtain _ | ⟨after, gap, lies', _, _⟩ := rest
      exact ⟨_, _, ⟨_, lies⟩, after, gap, ⟨_, lies'⟩⟩
  | cons s before again =>
      obtain _ | ⟨_, _, _, _, rest⟩ := spans
      exact again rest

theorem Follows.breaks {b n : Nat} (follows : Follows cs t u b n)
    (later : t.pos.line < u.pos.line) :
    '\n' ∈ t.lexeme.toList ∨ '\n' ∈ slice cs b n := by
  obtain ⟨⟨a, lies⟩, after, -, ⟨m, lies'⟩⟩ := follows
  have place : (Pos.at cs a).after (slice cs a n) = Pos.at cs n :=
    Pos.at_after (Nat.le_trans (Nat.le_of_lt lies.long) after)
  have lines := Pos.line_after (Pos.at cs a) (slice cs a n)
  rw [place, ← lies.place, ← lies'.place] at lines
  rw [← List.mem_append, ← lies.lexeme, slice_append (Nat.le_of_lt lies.long) after,
    ← List.count_pos_iff]
  omega

end Token

namespace Grammar

/-- Where a simple statement ends: after its `;`, before a brace or the end of input, or before a
token of a later line. -/
inductive Ended (w : List Token) (next : Token) : Prop
  | mark {last : Token} (ends : w.getLast? = some last) (marked : last.kind = .punct .semicolon)
  | brace (closes : next.kind = .punct .closeBrace)
  | stop (stops : next.kind = .endOfInput)
  | line {last : Token} (ends : w.getLast? = some last) (later : last.pos.line < next.pos.line)

theorem ended_ends {bound : Nat} {statement : Step Stmt bound} {c : Cursor} {w : List Token}
    (passes : c.Passes w statement.next) (some : w ≠ []) :
    (ended statement).Reads c fun w _ next => Ended w next := by
  intro step reads
  unfold ended at reads
  dsimp only at reads
  split at reads
  · next mark taken =>
      cases reads
      obtain ⟨marked, last⟩ := Cursor.take?_eq_some taken
      exact ⟨w ++ [mark.value], passes.trans last, .mark (by simp) marked⟩
  · split at reads
    · next ends =>
        cases reads
        refine ⟨w, passes, ?_⟩
        rcases ends with closes | stops | later
        · exact .brace closes
        · exact .stop stops
        · have lastOf := List.getLast?_eq_some_getLast some
          rw [passes.line, Cursor.lineAfter_of_getLast? lastOf] at later
          exact .line lastOf later
    · cases reads

theorem simple_ends (enclosing : Enclosing) (c : Cursor) (closed : c.Closed) :
    (simple enclosing c).Reads c fun w _ next => Ended w next := by
  intro step reads
  unfold simple at reads
  split at reads
  · next word taken =>
      obtain ⟨known, first⟩ := Cursor.takeAs_eq_some taken
      have declares := declKind?_eq_some_iff.mp known
      obtain ⟨statement, statementReads, endReads⟩ := Parse.bind_eq_ok reads
      obtain ⟨w, passes, -⟩ := declaration_reads enclosing declares word.next
        (closed.passes first) statement statementReads
      have before : c.Passes (word.value.1 :: w) (word.andThen statement).next := first.trans passes
      exact ended_ends before (List.cons_ne_nil _ _) step endReads
  · split at reads
    · next word taken =>
        have first := (Cursor.take?_eq_some taken).2
        split at reads
        · have before : c.Passes [word.value] (word.map (Stmt.break ·.pos)).next := first
          exact ended_ends before (List.cons_ne_nil _ _) step reads
        · cases reads
    · split at reads
      · next word taken =>
          have first := (Cursor.take?_eq_some taken).2
          split at reads
          · have before : c.Passes [word.value] (word.map (Stmt.continue ·.pos)).next := first
            exact ended_ends before (List.cons_ne_nil _ _) step reads
          · cases reads
      · obtain ⟨statement, statementReads, endReads⟩ := Parse.bind_eq_ok reads
        obtain ⟨w, passes, whole, -⟩ := expressionOrAssignment_reads enclosing c closed
          statement statementReads
        exact ended_ends passes whole.ne_nil step endReads

end Grammar

section Sources

variable {source : String} {tokens before w : List Token} {start c : Cursor} {last : Token}

theorem Cursor.spans (scanned : (Token.scan source).toExcept = .ok tokens)
    (opens : Cursor.ofTokens? tokens = some start) :
    ∃ n, Token.Spans source.toList 0 start.ahead n := by
  obtain ⟨ends, same⟩ := Scanned.toExcept_eq_ok_iff.mp scanned
  obtain ⟨body, n, spans, -, ⟨known, -⟩ | ⟨cause, p, known, -⟩⟩ := Token.scan_accounts source
  · rw [known] at same
    subst same
    rw [Cursor.ofTokens?_concat rfl] at opens
    cases opens
    exact ⟨n, spans⟩
  · rw [known] at ends
    cases ends

/-- Where a simple statement of a text ends without `;` before another token than `}`, a newline
stands between its last token and that one, unless the last token is a string literal that runs over
a line break itself. -/
theorem Grammar.simple_breaks (scanned : (Token.scan source).toExcept = .ok tokens)
    (opens : Cursor.ofTokens? tokens = some start) (comes : start.Passes before c)
    {enclosing : Enclosing} {step : Step Stmt c.remaining}
    (reads : simple enclosing c = .ok step) (passes : c.Passes w step.next)
    (ends : w.getLast? = some last) (unmarked : last.kind ≠ .punct .semicolon)
    (unclosed : step.next.kind ≠ .punct .closeBrace) (more : step.next.kind ≠ .endOfInput)
    (oneLine : ∀ text, last.kind = .string text → '\n' ∉ last.lexeme.toList) :
    ∃ b n, Token.Follows source.toList last step.next.token b n ∧
      '\n' ∈ slice source.toList b n := by
  obtain ⟨closed, rfl⟩ := Cursor.ofTokens?_eq_some opens
  obtain ⟨_, spans⟩ := Cursor.spans scanned opens
  have closed := closed.passes comes
  obtain ⟨w', passes', ended⟩ := simple_ends enclosing c closed step reads
  obtain rfl : w = w' := List.append_cancel_right (passes.ahead.symm.trans passes'.ahead)
  have later : last.pos.line < step.next.token.pos.line := by
    cases ended with
    | mark ends' marked =>
        cases ends.symm.trans ends'
        exact absurd marked unmarked
    | brace closes => exact absurd closes unclosed
    | stop stops => exact absurd stops more
    | line ends' later =>
        cases ends.symm.trans ends'
        exact later
  obtain ⟨u, rest, ahead⟩ : ∃ u rest, step.next.ahead = u :: rest := by
    cases ahead : step.next.ahead with
    | nil =>
        refine absurd ?_ more
        rw [Cursor.kind, Cursor.token, ahead]
        exact closed.passes passes
    | cons u rest => exact ⟨u, rest, rfl⟩
  have next : step.next.token = u := by rw [Cursor.token, ahead, List.headD_cons]
  obtain ⟨v, rfl⟩ := List.getLast?_eq_some_iff.mp ends
  have whole : start.ahead = (before ++ v) ++ last :: u :: rest := by
    rw [comes.ahead, passes.ahead, ahead]
    simp
  have plain : '\n' ∉ last.lexeme.toList := by
    by_cases string : ∃ text, last.kind = .string text
    · obtain ⟨text, string⟩ := string
      exact oneLine text string
    · obtain ⟨-, same⟩ := Scanned.toExcept_eq_ok_iff.mp scanned
      have member : last ∈ (Token.scan source).tokens := by simp [same, whole]
      exact Token.scanFrom_oneLine .start _ last member fun text same => string ⟨text, same⟩
  rw [whole] at spans
  rw [next] at later ⊢
  obtain ⟨b, n, follows⟩ := spans.follows
  exact ⟨b, n, follows, (follows.breaks later).resolve_left plain⟩

def lines : List Token :=
  [⟨.identifier "a", "a", ⟨1, 1⟩⟩, ⟨.identifier "b", "b", ⟨2, 1⟩⟩, ⟨.endOfInput, "", ⟨2, 2⟩⟩]

theorem scan_lines : (Token.scan "a\nb").toExcept = .ok lines := by
  have first : Lexeme.Reads ['a'] (.identifier "a") ['\n', 'b'] ['a', '\n', 'b'] := rfl
  have second : Lexeme.Reads ['b'] (.identifier "b") [] ['b'] := rfl
  have gap : filler ['\n', 'b'] = ⟨['\n'], ['b'], rfl⟩ := by
    rw [filler_newline, filler_none rfl (by decide)]
    rfl
  show (Token.scanFrom .start ['a', '\n', 'b']).toExcept = _
  rw [Token.scanFrom_lexeme .start rfl (by decide) first,
    Token.scanFrom_reads _ (by rw [gap]; exact second), gap, Token.scanFrom_empty]
  rfl

open Grammar in
theorem simple_breaks_lines :
    (Token.scan "a\nb").toExcept = .ok lines ∧
    ∃ start step w last, Cursor.ofTokens? lines = some start ∧
      simple ⟨false, false⟩ start = .ok step ∧ start.Passes w step.next ∧ w.getLast? = some last ∧
      last.kind ≠ .punct .semicolon ∧ step.next.kind ≠ .punct .closeBrace ∧
      step.next.kind ≠ .endOfInput ∧
      (∀ text, last.kind = .string text → '\n' ∉ last.lexeme.toList) ∧
      ∃ b n, Token.Follows "a\nb".toList last step.next.token b n ∧
        '\n' ∈ slice "a\nb".toList b n := by
  let start : Cursor := ⟨lines.dropLast, ⟨.endOfInput, "", ⟨2, 2⟩⟩, 0⟩
  let step : Step Stmt start.remaining := ⟨.expr ⟨1, 1⟩ (.name ⟨1, 1⟩ "a"),
    ⟨lines.dropLast.tail, ⟨.endOfInput, "", ⟨2, 2⟩⟩, 1⟩, by decide⟩
  have reads : simple ⟨false, false⟩ start = .ok step := by
    unfold start step lines
    cbv
  have passes : start.Passes (lines.take 1) step.next := ⟨rfl, rfl, rfl⟩
  have unmarked : Kind.identifier "a" ≠ .punct .semicolon := by simp
  have unclosed : step.next.kind ≠ .punct .closeBrace := by decide
  have inside : step.next.kind ≠ .endOfInput := by decide
  have oneLine (text : String) (string : Kind.identifier "a" = .string text) :
      '\n' ∉ "a".toList := by simp at string
  exact ⟨scan_lines, start, step, lines.take 1, _, rfl, reads, passes, rfl, unmarked, unclosed,
    inside, oneLine, simple_breaks scan_lines rfl (.refl start) reads passes rfl unmarked unclosed
      inside oneLine⟩

/-- A string literal over two lines, and `b` after it on its second line. -/
def literal : List Token :=
  [⟨.string "a\n", "\"a\\\n\"", ⟨1, 1⟩⟩, ⟨.identifier "b", "b", ⟨2, 3⟩⟩,
    ⟨.endOfInput, "", ⟨2, 4⟩⟩]

theorem scan_literal : (Token.scan "\"a\\\n\" b").toExcept = .ok literal := by
  have first : Lexeme.Reads ['"', 'a', '\\', '\n', '"'] (.string "a\n") [' ', 'b']
    ['"', 'a', '\\', '\n', '"', ' ', 'b'] := rfl
  have second : Lexeme.Reads ['b'] (.identifier "b") [] ['b'] := rfl
  show (Token.scanFrom .start ['"', 'a', '\\', '\n', '"', ' ', 'b']).toExcept = _
  rw [Token.scanFrom_lexeme .start rfl (by decide) first, Token.scanFrom_space,
    Token.scanFrom_lexeme _ rfl (by decide) second, Token.scanFrom_empty]
  rfl

open Grammar in
theorem simple_ends_literal :
    (Token.scan "\"a\\\n\" b").toExcept = .ok literal ∧
    (∃ p, Program.ofTokens literal = .ok p) ∧
    ∃ start step w last, Cursor.ofTokens? literal = some start ∧
      simple ⟨false, false⟩ start = .ok step ∧ start.Passes w step.next ∧ w.getLast? = some last ∧
      last.kind ≠ .punct .semicolon ∧ step.next.kind ≠ .punct .closeBrace ∧
      step.next.kind ≠ .endOfInput ∧
      Token.Follows "\"a\\\n\" b".toList last step.next.token 5 6 ∧
      slice "\"a\\\n\" b".toList 5 6 = [' '] := by
  let start : Cursor := ⟨literal.dropLast, ⟨.endOfInput, "", ⟨2, 4⟩⟩, 0⟩
  let step : Step Stmt start.remaining := ⟨.expr ⟨1, 1⟩ (.literal ⟨1, 1⟩ (.string "a\n")),
    ⟨literal.dropLast.tail, ⟨.endOfInput, "", ⟨2, 4⟩⟩, 1⟩, by decide⟩
  have reads : simple ⟨false, false⟩ start = .ok step := by
    unfold start step literal
    cbv
  have parsed : Program.ofTokens literal = .ok [.expr ⟨1, 1⟩ (.literal ⟨1, 1⟩ (.string "a\n")),
      .expr ⟨2, 3⟩ (.name ⟨2, 3⟩ "b")] := by
    unfold literal
    cbv
  have follows : Token.Follows "\"a\\\n\" b".toList ⟨.string "a\n", "\"a\\\n\"", ⟨1, 1⟩⟩
      ⟨.identifier "b", "b", ⟨2, 3⟩⟩ 5 6 :=
    ⟨⟨0, by decide, by decide, rfl, rfl⟩, by decide, .space (by decide) .nil,
      ⟨7, by decide, by decide, rfl, rfl⟩⟩
  exact ⟨scan_literal, ⟨_, parsed⟩, start, step, literal.take 1, _, rfl, reads, ⟨rfl, rfl, rfl⟩,
    rfl, by simp, by decide, by decide, follows, rfl⟩

end Sources

end Script
