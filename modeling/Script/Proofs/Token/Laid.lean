import Script.Proofs.Number.Written
import Script.Proofs.Token.Form

/-!
Lexemes laid out in a row. What a lexeme means is settled by its own text, and lexemes are read back
one by one from any text that has a space behind each of them, whatever comments stand there too.
-/

namespace Script

open Nat (ofDigitChars)

namespace Lexeme

def escapes : List (Char × Char) :=
  [('n', '\n'), ('t', '\t'), ('r', '\r'), ('0', '\x00'), ('\\', '\\'), ('"', '"'), ('\'', '\'')]

/-- What stands between two quotes, and the text that it means. -/
inductive Between (quote : Char) : List Char → List Char → Prop
  | nil : Between quote [] []
  | escape {c d : Char} {body value : List Char} (known : (c, d) ∈ escapes)
      (more : Between quote body value) : Between quote ('\\' :: c :: body) (d :: value)
  | itself {c : Char} {body value : List Char} (unknown : ∀ d, (c, d) ∉ escapes)
      (more : Between quote body value) : Between quote ('\\' :: c :: body) (c :: value)
  | plain {c : Char} {body value : List Char} (slash : c ≠ '\\') (other : c ≠ quote)
      (sameLine : c ≠ '\n') (more : Between quote body value) :
      Between quote (c :: body) (c :: value)

/-- What a lexeme means. Digits are a decimal, rounded to the nearest number; a word that spells a
keyword is no name. -/
inductive Means : List Char → Kind → Prop
  | whole {ds : List Char} (some : ds ≠ []) (digits : ∀ c ∈ ds, c.isDigit) :
      Means ds (.number (Decimal.toNumber ⟨ofDigitChars 10 ds 0, 0⟩ false))
  | fraction {ds fs : List Char} (some : ds ≠ []) (digits : ∀ c ∈ ds, c.isDigit)
      (more : fs ≠ []) (decimals : ∀ c ∈ fs, c.isDigit) :
      Means (ds ++ '.' :: fs)
        (.number (Decimal.toNumber ⟨ofDigitChars 10 (ds ++ fs) 0, -fs.length⟩ false))
  | string {quote : Char} {body value : List Char} (marks : quote = '"' ∨ quote = '\'')
      (inside : Between quote body value) :
      Means (quote :: (body ++ [quote])) (.string (String.ofList value))
  | keyword (word : Keyword) : Means word.spelling.toList (.keyword word)
  | identifier {c : Char} {cs : List Char} (letter : isWordStart c)
      (inside : ∀ d ∈ cs, isWordPart d)
      (free : ∀ word : Keyword, word.spelling.toList ≠ c :: cs) :
      Means (c :: cs) (.identifier (String.ofList (c :: cs)))
  | operator (op : Operator) : Means op.spelling.toList (.operator op)
  | punct (mark : Punct) : Means [mark.spelling] (.punct mark)

section Meaning

variable {quote c : Char} {word body value : List Char} {kind : Kind}

theorem Body.between (inside : Body quote body) : ∃ value, Between quote body value := by
  induction inside with
  | nil => exact ⟨[], .nil⟩
  | escape c _ again =>
      obtain ⟨value, more⟩ := again
      by_cases known : ∃ d, (c, d) ∈ escapes
      · obtain ⟨d, known⟩ := known
        exact ⟨d :: value, .escape known more⟩
      · exact ⟨c :: value, .itself (fun d member => known ⟨d, member⟩) more⟩
  | plain slash other sameLine _ again =>
      obtain ⟨value, more⟩ := again
      exact ⟨_ :: value, .plain slash other sameLine more⟩

theorem Form.means (form : Form word) : ∃ kind, Means word kind := by
  cases form with
  | number numeral =>
      cases numeral with
      | whole some digits => exact ⟨_, .whole some digits⟩
      | fraction some digits more decimals => exact ⟨_, .fraction some digits more decimals⟩
  | string marks inside =>
      obtain ⟨value, between⟩ := inside.between
      exact ⟨_, .string marks between⟩
  | @word c cs letter inside =>
      by_cases spelt : ∃ word : Keyword, word.spelling.toList = c :: cs
      · obtain ⟨word, same⟩ := spelt
        exact ⟨.keyword word, same ▸ .keyword word⟩
      · exact ⟨_, .identifier letter inside fun word same => spelt ⟨word, same⟩⟩
  | operator op => exact ⟨_, .operator op⟩
  | punct mark => exact ⟨_, .punct mark⟩

theorem escapeValue_known {d : Char} (known : (c, d) ∈ escapes) : escapeValue c = d := by
  simp only [escapes, List.mem_cons, Prod.mk.injEq, List.not_mem_nil, or_false] at known
  rcases known with ⟨rfl, rfl⟩ | ⟨rfl, rfl⟩ | ⟨rfl, rfl⟩ | ⟨rfl, rfl⟩ | ⟨rfl, rfl⟩ | ⟨rfl, rfl⟩ |
    ⟨rfl, rfl⟩ <;> rfl

theorem escapeValue_unknown (unknown : ∀ d, (c, d) ∉ escapes) : escapeValue c = c := by
  unfold escapeValue
  split
  · exact absurd (by decide) (unknown '\n')
  · exact absurd (by decide) (unknown '\t')
  · exact absurd (by decide) (unknown '\r')
  · exact absurd (by decide) (unknown '\x00')
  · rfl

theorem Between.quotes (unescaped : quote ≠ '\\') (between : Between quote body value) :
    Quotes quote body value := by
  induction between with
  | nil => exact .nil unescaped
  | escape known _ again => exact escapeValue_known known ▸ again.escape _
  | @itself c _ _ unknown _ again =>
      have escaped := again.escape c
      rwa [escapeValue_unknown unknown] at escaped
  | plain slash other sameLine _ again => exact again.plain slash other sameLine

theorem isLetter_other (letter : Text.isLetter c) : ¬ c.isDigit := by
  intro digit
  rw [Text.isLetter_digit (Text.isSome_digitValue? digit)] at letter
  cases letter

theorem isWordStart_other (letter : isWordStart c) :
    ¬ c.isDigit ∧ ¬ (c = '"' ∨ c = '\'') := by
  simp only [isWordStart, Bool.or_eq_true, decide_eq_true_eq] at letter
  rcases letter with (letter | rfl) | rfl
  · refine ⟨isLetter_other letter, ?_⟩
    rintro (rfl | rfl) <;> revert letter <;> decide
  · decide
  · decide

theorem wordKind_free {name : String} (free : ∀ word : Keyword, word.spelling ≠ name) :
    wordKind name = .identifier name := by
  have none : Keyword.all.find? (·.spelling = name) = none :=
    List.find?_eq_none.mpr fun word _ => by simpa using free word
  rw [wordKind, none]

theorem Means.reads (means : Means word kind) : Reads word kind [] word := by
  cases means with
  | whole some digits =>
      have reads := (Numeral.whole some digits).reads
      rwa [numberValue, Decimal.read?_whole some digits] at reads
  | fraction some digits more decimals =>
      have reads := (Numeral.fraction some digits more decimals).reads
      rwa [numberValue, Decimal.read?_fraction some digits decimals] at reads
  | string marks inside =>
      have unescaped : ∀ {quote : Char}, quote = '"' ∨ quote = '\'' → quote ≠ '\\' := by
        rintro _ (rfl | rfl) <;> decide
      exact (inside.quotes (unescaped marks)).reads marks
  | keyword word => exact reads_keyword word
  | @identifier c cs letter inside free =>
      obtain ⟨noDigit, noQuote⟩ := isWordStart_other letter
      have reads := reads_word noDigit noQuote letter inside
      rwa [wordKind_free fun word same => free word (by rw [same, String.toList_ofList])] at reads
  | operator op => exact reads_operator op
  | punct mark => exact reads_punct mark

theorem Reads.kind_eq {kind' : Kind} {rest rest' : List Char} {word' cs : List Char}
    (reads : Reads word kind rest cs) (reads' : Reads word' kind' rest' cs) : kind = kind' := by
  cases cs with
  | nil => exact reads.elim
  | cons c cs =>
      have first : (read c cs).map parts = .ok (word, kind, rest) := reads
      have second : (read c cs).map parts = .ok (word', kind', rest') := reads'
      exact congrArg (·.2.1) (Except.ok.inj (first.symm.trans second))

theorem Means.iff (means : Means word kind) (kind' : Kind) : Means word kind' ↔ kind' = kind :=
  ⟨fun other => other.reads.kind_eq means.reads, fun same => same ▸ means⟩

theorem Reads.solid_append (reads : Reads word kind [] word) {more : List Char}
    (apart : Apart more) : Solid (word ++ more) := by
  cases word with
  | nil => exact reads.elim
  | cons c cs =>
      refine .cons reads.solid fun slash => ?_
      subst slash
      obtain rfl := reads.slash
      have opens (op : Operator) (d : Char) (spelt : d ∈ op.spelling.toList) :
          more.head? ≠ some d := fun first => breaks_operator (apart d first) op spelt
      exact ⟨opens .divide '/' (by decide), opens .times '*' (by decide)⟩

end Meaning

end Lexeme

/-- Lexemes, each with the gap behind it. A space begins each gap, but there may be none at the
end. -/
inductive Laid : List (List Char × List Char) → Prop
  | nil : Laid []
  | last {word : List Char} (form : Lexeme.Form word) : Laid [(word, [])]
  | cons {word gap : List Char} {c : Char} {row : List (List Char × List Char)}
      (form : Lexeme.Form word) (blank : c ∈ [' ', '\t', '\r', '\n'])
      (closed : Gap false (c :: gap)) (more : Laid row) : Laid ((word, c :: gap) :: row)

def laidText (row : List (List Char × List Char)) : List Char :=
  row.flatMap fun part => part.1 ++ part.2

/-- The token is what the lexeme means. -/
def ReadBack (part : List Char × List Char) (t : Token) : Prop :=
  t.lexeme = String.ofList part.1 ∧ ∀ kind, Lexeme.Means part.1 kind ↔ kind = t.kind

theorem blank_breaks {c : Char} (blank : c ∈ [' ', '\t', '\r', '\n']) : Lexeme.breaks c := by
  simp only [List.mem_cons, List.not_mem_nil, or_false] at blank
  rcases blank with rfl | rfl | rfl | rfl <;> decide

namespace Token

theorem scanFrom_skipped {gap rest : List Char} (pos : Pos) (closed : Gap false gap)
    (solid : Solid rest) : scanFrom pos (gap ++ rest) = scanFrom (pos.after gap) rest := by
  obtain ⟨taken, left⟩ := closed.skipped solid
  apply scanFrom_eq
  · rw [left, solid.filler]
    rfl
  · rw [taken, solid.filler]
    rfl

theorem scanFrom_part (part : List Char × List Char) (form : Lexeme.Form part.1) {more : List Char}
    (apart : Lexeme.Apart more) (pos : Pos) {gap : List Char} (closed : Gap false gap) :
    ∃ t, ReadBack part t ∧ scanFrom pos (gap ++ (part.1 ++ more)) =
      (scanFrom ((pos.after gap).after part.1) more).cons t := by
  obtain ⟨kind, means⟩ := form.means
  refine ⟨⟨kind, String.ofList part.1, pos.after gap⟩, ⟨rfl, means.iff⟩, ?_⟩
  rw [scanFrom_skipped pos closed (means.reads.solid_append apart),
    scanFrom_alone _ means.reads apart]

theorem scanFrom_laid {row : List (List Char × List Char)} (laid : Laid row) :
    ∀ (pos : Pos) {gap : List Char}, Gap false gap →
      ∃ body stop, scanFrom pos (gap ++ laidText row) =
          ⟨body ++ [⟨.endOfInput, "", stop⟩], none⟩ ∧ List.Forall₂ ReadBack row body := by
  -- on the row: a gap is skipped, and the lexeme behind it is read alone
  induction laid with
  | nil =>
      intro pos gap closed
      refine ⟨[], pos.after gap, ?_, .nil⟩
      show scanFrom pos (gap ++ []) = _
      rw [scanFrom_skipped pos closed .nil, scanFrom_empty]
      rfl
  | @last word form =>
      intro pos gap closed
      have apart : Lexeme.Apart [] := nofun
      obtain ⟨t, back, first⟩ := scanFrom_part (word, []) form apart pos closed
      refine ⟨[t], (pos.after gap).after word, ?_, .cons back .nil⟩
      show scanFrom pos (gap ++ (word ++ [] ++ [])) = _
      rw [List.append_nil, first, scanFrom_empty]
      rfl
  | @cons word behind c row form blank closed' _ again =>
      intro pos gap closed
      have apart : Lexeme.Apart (c :: behind ++ laidText row) := by
        rintro b ⟨⟩
        exact blank_breaks blank
      obtain ⟨t, back, first⟩ := scanFrom_part (word, c :: behind) form apart pos closed
      obtain ⟨body, stop, others, backs⟩ := again ((pos.after gap).after word) closed'
      refine ⟨t :: body, stop, ?_, .cons back backs⟩
      show scanFrom pos (gap ++ (word ++ (c :: behind) ++ laidText row)) = _
      rw [List.append_assoc, first, others]
      rfl

/-- A row of lexemes is read back as itself. -/
theorem scan_laid {first : List Char} {row : List (List Char × List Char)}
    (before : Gap false first) (laid : Laid row) :
    ∃ body stop, (scan (String.ofList (first ++ laidText row))).toExcept = .ok (body ++ [stop]) ∧
      stop.kind = .endOfInput ∧ stop.lexeme = "" ∧
      List.Forall₂ ReadBack row body := by
  obtain ⟨body, stop, scanned, backs⟩ := scanFrom_laid laid .start before
  refine ⟨body, ⟨.endOfInput, "", stop⟩, ?_, rfl, rfl, backs⟩
  rw [scan, String.toList_ofList, scanned]
  rfl

/-- A comment that begins like a shorter one, a name that goes on from a keyword, a string with a
quote inside, and a division before a comment. -/
theorem scan_laid_comments :
    Gap false ['/', '*', '/', '*', '/'] ∧
      Laid [(['l', 'e', 't', 's'], [' ', '/', '/', '\'', '\n']),
        (['"', '\\', '"', '\\', 'q', '"'], ['\t']), (['/'], [' ', '/', '*', '*', '/'])] ∧
      ∃ body stop, (scan "/*/*/lets //'\n\"\\\"\\q\"\t/ /**/").toExcept = .ok (body ++ [stop]) ∧
        stop.kind = .endOfInput ∧ stop.lexeme = "" ∧
        List.Forall₂ ReadBack [(['l', 'e', 't', 's'], [' ', '/', '/', '\'', '\n']),
          (['"', '\\', '"', '\\', 'q', '"'], ['\t']), (['/'], [' ', '/', '*', '*', '/'])] body := by
  have before : Gap false ['/', '*', '/', '*', '/'] :=
    .block (show ¬ ['*', '/'] <:+: ['/'] ++ ['*'] by decide) .nil
  have name : Lexeme.Form ['l', 'e', 't', 's'] := .word rfl (List.all_eq_true.mp rfl)
  have text : Lexeme.Form ['"', '\\', '"', '\\', 'q', '"'] :=
    show Lexeme.Form ('"' :: (['\\', '"', '\\', 'q'] ++ ['"'])) from
      .string (.inl rfl) (.escape '"' (.escape 'q' .nil))
  have line : Gap false [' ', '/', '/', '\'', '\n'] :=
    .space (by decide) (.line (show '\n' ∉ ['\''] by decide) (.space (by decide) .nil))
  have block : Gap false [' ', '/', '*', '*', '/'] :=
    .space (by decide) (.block (show ¬ ['*', '/'] <:+: [] ++ ['*'] by decide) .nil)
  have laid : Laid [(['l', 'e', 't', 's'], [' ', '/', '/', '\'', '\n']),
      (['"', '\\', '"', '\\', 'q', '"'], ['\t']), (['/'], [' ', '/', '*', '*', '/'])] :=
    .cons name (by decide) line (.cons text (by decide) (.space (by decide) .nil)
      (.cons (.operator .divide) (by decide) block .nil))
  have whole : "/*/*/lets //'\n\"\\\"\\q\"\t/ /**/" = String.ofList (['/', '*', '/', '*', '/'] ++
      laidText [(['l', 'e', 't', 's'], [' ', '/', '/', '\'', '\n']),
        (['"', '\\', '"', '\\', 'q', '"'], ['\t']), (['/'], [' ', '/', '*', '*', '/'])]) := by
    decide
  rw [whole]
  exact ⟨before, laid, scan_laid before laid⟩

end Token

end Script
