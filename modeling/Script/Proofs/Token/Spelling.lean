import Mathlib.Data.List.Forall2
import Script.Proofs.Token.Seams

/-!
Spellings. Every kind of token but names that are no words and numbers without a literal has a text
that is read as it, and texts with single spaces between them are read one by one. The quotes that a
value is shown in are those of a string literal.
-/

namespace Script

namespace Lexeme

/-- Digits, and a point with more digits if there is a fraction. -/
inductive Numeral : List Char → Prop
  | whole {ds : List Char} (some : ds ≠ []) (digits : ∀ c ∈ ds, c.isDigit) : Numeral ds
  | fraction {ds fs : List Char} (some : ds ≠ []) (digits : ∀ c ∈ ds, c.isDigit)
      (more : fs ≠ []) (decimals : ∀ c ∈ fs, c.isDigit) : Numeral (ds ++ '.' :: fs)

def escape (quote c : Char) : List Char :=
  if c = '\\' ∨ c = quote then ['\\', c] else if c = '\n' then ['\\', 'n'] else [c]

def escaped (quote : Char) (cs : List Char) : List Char := cs.flatMap (escape quote)

end Lexeme

/-- The texts that spell a kind of token. -/
inductive Kind.Spelt : Kind → List Char → Prop
  | number {word : List Char} (numeral : Lexeme.Numeral word) :
      Spelt (.number (Lexeme.numberValue word)) word
  | string {quote : Char} (quotes : quote = '"' ∨ quote = '\'') (s : String) :
      Spelt (.string s) (quote :: (Lexeme.escaped quote s.toList ++ [quote]))
  | identifier (name : String) : Spelt (.identifier name) name.toList
  | keyword (word : Keyword) : Spelt (.keyword word) word.spelling.toList
  | operator (op : Operator) : Spelt (.operator op) op.spelling.toList
  | punct (mark : Punct) : Spelt (.punct mark) [mark.spelling]

namespace Lexeme

section Numbers

variable {c : Char} {ds fs word rest cs : List Char} {x : Number}

theorem number_split (c : Char) (digits : ∀ d ∈ ds, d.isDigit) (fs : List Char)
    (stops : fs.takeWhile Char.isDigit = []) (left : fs.dropWhile Char.isDigit = fs) :
    (number c (ds ++ fs)).taken = c :: (ds ++ (fraction fs).taken) ∧
      (number c (ds ++ fs)).rest = (fraction fs).rest := by
  have takes : (ds ++ fs).takeWhile Char.isDigit = ds ++ fs.takeWhile Char.isDigit :=
    List.takeWhile_append_of_pos digits
  have drops : (ds ++ fs).dropWhile Char.isDigit = fs.dropWhile Char.isDigit :=
    List.dropWhile_append_of_pos digits
  rw [stops, List.append_nil] at takes
  rw [left] at drops
  show c :: ((ds ++ fs).takeWhile Char.isDigit) ++
    (fraction ((ds ++ fs).dropWhile Char.isDigit)).taken = _ ∧
      (fraction ((ds ++ fs).dropWhile Char.isDigit)).rest = _
  rw [takes, drops]
  exact ⟨rfl, rfl⟩

theorem fraction_decimals (more : fs ≠ []) (decimals : ∀ d ∈ fs, d.isDigit) :
    (fraction ('.' :: fs)).taken = '.' :: fs ∧ (fraction ('.' :: fs)).rest = [] := by
  have takes : (fs ++ []).takeWhile Char.isDigit = fs ++ [] := List.takeWhile_append_of_pos decimals
  have drops : (fs ++ []).dropWhile Char.isDigit = [] := List.dropWhile_append_of_pos decimals
  rw [List.append_nil] at takes drops
  cases fs with
  | nil => exact absurd rfl more
  | cons d fs =>
      rw [fraction, if_pos (decimals d List.mem_cons_self)]
      exact ⟨congrArg (List.cons '.') takes, drops⟩

theorem reads_number (digit : c.isDigit) (taken : (number c cs).taken = c :: cs)
    (left : (number c cs).rest = []) :
    Reads (c :: cs) (.number (numberValue (c :: cs))) [] (c :: cs) := by
  show (read c cs).map parts = _
  rw [read, if_pos digit]
  show Except.ok (_, _, _) = _
  rw [taken, left]

theorem Numeral.reads (numeral : Numeral word) :
    Reads word (.number (numberValue word)) [] word := by
  cases numeral with
  | whole some digits =>
      cases word with
      | nil => exact absurd rfl some
      | cons c ds =>
          have tail : ∀ d ∈ ds, d.isDigit := fun d member =>
            digits d (List.mem_cons_of_mem c member)
          obtain ⟨taken, left⟩ := number_split c tail [] rfl rfl
          rw [List.append_nil] at taken left
          exact reads_number (digits c List.mem_cons_self)
            (taken.trans (congrArg (List.cons c) (List.append_nil ds))) left
  | @fraction ds fs some digits more decimals =>
      cases ds with
      | nil => exact absurd rfl some
      | cons c ds =>
          have tail : ∀ d ∈ ds, d.isDigit := fun d member =>
            digits d (List.mem_cons_of_mem c member)
          obtain ⟨taken, left⟩ := number_split c tail ('.' :: fs) rfl rfl
          obtain ⟨takes, drops⟩ := fraction_decimals more decimals
          rw [takes] at taken
          exact reads_number (digits c List.mem_cons_self) taken (left.trans drops)

end Numbers

section Strings

variable {quote c : Char} {cs body value : List Char}

theorem unescape_other (plain : c ≠ '\\') : unescape (c :: cs) = c :: unescape cs := by
  rw [unescape]
  exact fun _ _ same => absurd same plain

structure Quotes (quote : Char) (body value : List Char) : Prop where
  undone : unescape body = value
  closed : ∃ cut, closeString quote (body ++ [quote]) = some cut ∧ cut.taken = body ++ [quote] ∧
    cut.rest = []

theorem Quotes.nil (unescaped : quote ≠ '\\') : Quotes quote [] [] := by
  refine ⟨rfl, ⟨[quote], [], rfl⟩, ?_, rfl, rfl⟩
  show closeString quote [quote] = _
  rw [closeString_other unescaped, if_pos rfl]

theorem Quotes.escape (quotes : Quotes quote body value) (c : Char) :
    Quotes quote ('\\' :: c :: body) (escapeValue c :: value) := by
  obtain ⟨undone, cut, closes, taken, left⟩ := quotes
  refine ⟨congrArg _ undone, (cut.cons c).cons '\\', ?_,
    congrArg (fun cs => '\\' :: c :: cs) taken, left⟩
  show (closeString quote (body ++ [quote])).map _ = _
  rw [closes]
  rfl

theorem Quotes.plain (quotes : Quotes quote body value) (slash : c ≠ '\\') (other : c ≠ quote)
    (sameLine : c ≠ '\n') : Quotes quote (c :: body) (c :: value) := by
  obtain ⟨undone, cut, closes, taken, left⟩ := quotes
  refine ⟨?_, cut.cons c, ?_, congrArg (List.cons c) taken, left⟩
  · rw [unescape_other slash, undone]
  · show closeString quote (c :: (body ++ [quote])) = _
    rw [closeString_other slash, if_neg other, if_neg (by simp [slash, sameLine]), closes]
    rfl

inductive Stands (quote c : Char) : List Char → Prop
  | escaped {d : Char} (same : escapeValue d = c) : Stands quote c ['\\', d]
  | plain (slash : c ≠ '\\') (other : c ≠ quote) (sameLine : c ≠ '\n') : Stands quote c [c]

theorem quotes_flatMap (unescaped : quote ≠ '\\') {write : Char → List Char} :
    ∀ {cs : List Char}, (∀ c ∈ cs, Stands quote c (write c)) → Quotes quote (cs.flatMap write) cs
  | [], _ => .nil unescaped
  | c :: rest, stands => by
      have again := quotes_flatMap unescaped fun d member =>
        stands d (List.mem_cons_of_mem c member)
      have first := stands c List.mem_cons_self
      rw [List.flatMap_cons]
      generalize write c = word at first
      cases first with
      | escaped same =>
          rw [← same]
          exact again.escape _
      | plain slash other sameLine => exact again.plain slash other sameLine

theorem Quotes.reads (marks : quote = '"' ∨ quote = '\'') (quotes : Quotes quote body value) :
    Reads (quote :: (body ++ [quote])) (.string (String.ofList value)) []
      (quote :: (body ++ [quote])) := by
  have noDigit : ¬ quote.isDigit := by rcases marks with rfl | rfl <;> decide
  obtain ⟨undone, cut, closes, taken, left⟩ := quotes
  show (read quote (body ++ [quote])).map parts = _
  rw [read, if_neg noDigit, if_pos marks, closes]
  show Except.ok (quote :: cut.taken, Kind.string (String.ofList (unescape cut.taken.dropLast)),
    cut.rest) = _
  rw [taken, left, List.dropLast_concat, undone]

theorem quotes_escaped (marks : quote = '"' ∨ quote = '\'') (cs : List Char) :
    Quotes quote (escaped quote cs) cs := by
  apply quotes_flatMap (by rcases marks with rfl | rfl <;> decide)
  intro c _
  rw [Lexeme.escape]
  split
  · next special =>
      refine .escaped ?_
      rcases special with rfl | rfl
      · rfl
      · rcases marks with rfl | rfl <;> rfl
  · next other =>
      rw [not_or] at other
      split
      · next newline => exact .escaped newline.symm
      · next sameLine => exact .plain other.1 other.2 sameLine

end Strings

section Words

variable {c : Char} {word rest cs : List Char} {kind : Kind} {name : String} {x : Number}

theorem reads_keyword (word : Keyword) :
    Reads word.spelling.toList (.keyword word) [] word.spelling.toList := by
  cases word <;> rfl

theorem reads_operator (op : Operator) :
    Reads op.spelling.toList (.operator op) [] op.spelling.toList := by
  cases op <;> rfl

theorem reads_punct (mark : Punct) : Reads [mark.spelling] (.punct mark) [] [mark.spelling] := by
  cases mark <;> rfl

theorem wordKind_identifier {word name : String} (known : wordKind word = .identifier name) :
    name = word := by
  unfold wordKind at known
  split at known
  · cases known
  · exact (Kind.identifier.inj known).symm

theorem symbol_kind {found : Lexeme (c :: cs)} (read : symbol c cs = .ok found) :
    (∃ op, found.kind = .operator op) ∨ ∃ mark, found.kind = .punct mark := by
  have operator {cs : List Char} {found : Lexeme cs} (read : operator? cs = some found) :
      ∃ op, found.kind = .operator op := by
    unfold operator? at read
    split at read
    · cases read
      exact ⟨_, rfl⟩
    · cases read
  unfold symbol at read
  split at read
  · cases read
  · split at read
    · next known =>
        cases read
        exact .inl (operator known)
    · split at read
      · next known =>
          cases read
          simp only [punct?, Option.map_eq_some_iff] at known
          obtain ⟨mark, _, rfl⟩ := known
          exact .inr ⟨mark, rfl⟩
      · cases read

theorem mem_takeWhile {p : Char → Bool} {d : Char} (member : d ∈ cs.takeWhile p) : p d :=
  List.all_eq_true.mp List.all_takeWhile d member

theorem reads_word (noDigit : ¬ c.isDigit) (noQuote : ¬ (c = '"' ∨ c = '\''))
    (letter : isWordStart c) (inside : ∀ d ∈ cs, isWordPart d) :
    Reads (c :: cs) (wordKind (String.ofList (c :: cs))) [] (c :: cs) := by
  have takes : (cs ++ []).takeWhile isWordPart = cs ++ [] := List.takeWhile_append_of_pos inside
  have drops : (cs ++ []).dropWhile isWordPart = [] := List.dropWhile_append_of_pos inside
  rw [List.append_nil] at takes drops
  show (read c cs).map parts = _
  rw [read, if_neg noDigit, if_neg noQuote, if_pos letter]
  show Except.ok (c :: cs.takeWhile isWordPart,
    wordKind (String.ofList (c :: cs.takeWhile isWordPart)), cs.dropWhile isWordPart) = _
  rw [takes, drops]

theorem Reads.form (reads : Reads word kind rest (c :: cs)) :
    (c.isDigit ∧ word = (Lexeme.number c cs).taken ∧ kind = .number (numberValue word)) ∨
      (∃ s, kind = .string s) ∨
      (¬ c.isDigit ∧ ¬ (c = '"' ∨ c = '\'') ∧ isWordStart c ∧
        word = c :: cs.takeWhile isWordPart ∧ kind = wordKind (String.ofList word)) ∨
      (∃ op, kind = .operator op) ∨ ∃ mark, kind = .punct mark := by
  have result : (read c cs).map parts = .ok (word, kind, rest) := reads
  unfold read at result
  split at result
  · next digit =>
      cases result
      exact .inl ⟨digit, rfl, rfl⟩
  · next noDigit =>
      split at result
      · split at result
        · cases result
          exact .inr (.inl ⟨_, rfl⟩)
        · cases result
      · next noQuote =>
          split at result
          · next letter =>
              cases result
              exact .inr (.inr (.inl ⟨noDigit, noQuote, letter, rfl, rfl⟩))
          · cases known : symbol c cs with
            | error cause =>
                rw [known] at result
                cases result
            | ok found =>
                rw [known] at result
                cases result
                exact .inr (.inr (.inr (symbol_kind known)))

theorem Reads.identifier (reads : Reads word (.identifier name) rest cs) :
    Reads name.toList (.identifier name) [] name.toList := by
  cases cs with
  | nil => exact reads.elim
  | cons c cs =>
      rcases reads.form with ⟨-, -, known⟩ | ⟨s, known⟩ |
        ⟨noDigit, noQuote, letter, rfl, known⟩ | ⟨op, known⟩ | ⟨mark, known⟩
      · cases known
      · cases known
      · obtain rfl := wordKind_identifier known.symm
        rw [String.toList_ofList, known]
        exact reads_word noDigit noQuote letter fun d member => mem_takeWhile member
      · cases known
      · cases known

theorem fraction_taken (cs : List Char) : (fraction cs).taken = [] ∨
    ∃ fs, fs ≠ [] ∧ (∀ d ∈ fs, d.isDigit) ∧ (fraction cs).taken = '.' :: fs := by
  unfold fraction
  split
  · next d rest =>
      split
      · next digit =>
          refine .inr ⟨(d :: rest).takeWhile Char.isDigit, ?_, fun d member => mem_takeWhile member,
            rfl⟩
          rw [List.takeWhile_cons, if_pos digit]
          exact List.cons_ne_nil _ _
      · exact .inl rfl
  · exact .inl rfl

theorem number_numeral (digit : c.isDigit) (cs : List Char) : Numeral (number c cs).taken := by
  have digits : ∀ d ∈ c :: cs.takeWhile Char.isDigit, d.isDigit := by
    intro d member
    rcases List.mem_cons.mp member with rfl | member
    · exact digit
    · exact mem_takeWhile member
  show Numeral (c :: cs.takeWhile Char.isDigit ++ (fraction (cs.dropWhile Char.isDigit)).taken)
  rcases fraction_taken (cs.dropWhile Char.isDigit) with none | ⟨fs, more, decimals, taken⟩
  · rw [none, List.append_nil]
    exact .whole (List.cons_ne_nil _ _) digits
  · rw [taken]
    exact .fraction (List.cons_ne_nil _ _) digits more decimals

theorem Reads.number (reads : Reads word (.number x) rest cs) :
    Numeral word ∧ numberValue word = x := by
  cases cs with
  | nil => exact reads.elim
  | cons c cs =>
      rcases reads.form with ⟨digit, rfl, known⟩ | ⟨s, known⟩ | ⟨-, -, -, -, known⟩ | ⟨op, known⟩ |
        ⟨mark, known⟩
      · exact ⟨number_numeral digit cs, (Kind.number.inj known).symm⟩
      · cases known
      · unfold wordKind at known
        split at known <;> cases known
      · cases known
      · cases known

end Words

section Gaps

variable {c : Char} {word rest cs : List Char} {kind : Kind}

theorem Reads.solid (reads : Reads word kind rest (c :: cs)) : isSpace c = false := by
  rw [← Bool.not_eq_true, isSpace, decide_eq_true_eq]
  have result : (read c cs).map parts = .ok (word, kind, rest) := reads
  rintro (rfl | rfl | rfl | rfl) <;> cases result

theorem Reads.slash (reads : Reads ('/' :: cs) kind [] ('/' :: cs)) : cs = [] := by
  have result : (read '/' cs).map parts = .ok ('/' :: cs, kind, []) := reads
  by_cases star : cs.head? = some '*'
  · obtain ⟨rest, rfl⟩ : ∃ rest, cs = '*' :: rest := by
      cases cs with
      | nil => cases star
      | cons d rest => exact ⟨rest, congrArg (· :: rest) (Option.some.inj star)⟩
    cases result
  · have first : Operator.all.find? (begins ('/' :: cs)) = some .divide := rfl
    have found := operator?_parts ('/' :: cs)
    rw [first] at found
    rw [show read '/' cs = symbol '/' cs from rfl, symbol, if_neg fun both => star both.2] at result
    cases known : operator? ('/' :: cs) with
    | none =>
        rw [known] at found
        cases found
    | some lexeme =>
        rw [known] at found result
        have same : parts lexeme = ('/' :: cs, kind, []) := Except.ok.inj result
        have taken : parts lexeme = (['/'], .operator .divide, cs) := Option.some.inj found
        exact (congrArg (·.2.2) (taken.symm.trans same))

/-- What follows goes on with no lexeme. -/
def Apart (more : List Char) : Prop := ∀ b ∈ more.head?, breaks b

theorem Reads.gapless (reads : Reads word kind [] word) {more : List Char} (apart : Apart more) :
    filler (word ++ more) = .none _ := by
  cases word with
  | nil => exact reads.elim
  | cons c cs =>
      by_cases slash : c = '/'
      · subst slash
        obtain rfl := reads.slash
        have opens (op : Operator) (d : Char) (spelt : d ∈ op.spelling.toList) :
            ∀ rest, more ≠ d :: rest := by
          rintro rest rfl
          exact breaks_operator (apart d rfl) op spelt
        show filler ('/' :: more) = _
        rw [filler_other (fun rest _ => opens .divide '/' (by decide) rest) fun rest _ =>
          opens .times '*' (by decide) rest]
        rfl
      · exact filler_none reads.solid slash

end Gaps

end Lexeme

theorem Kind.Spelt.reads {kind : Kind} {word : List Char} (spelt : kind.Spelt word)
    (known : ∀ name, kind = .identifier name →
      Lexeme.Reads name.toList (.identifier name) [] name.toList) :
    Lexeme.Reads word kind [] word := by
  cases spelt with
  | number numeral => exact numeral.reads
  | string marks s =>
      have reads := (Lexeme.quotes_escaped marks s.toList).reads marks
      rw [String.ofList_toList] at reads
      exact reads
  | identifier name => exact known name rfl
  | keyword word => exact Lexeme.reads_keyword word
  | operator op => exact Lexeme.reads_operator op
  | punct mark => exact Lexeme.reads_punct mark

namespace Token

theorem scanFrom_kind (pos : Pos) (cs : List Char) : ∀ t ∈ (scanFrom pos cs).tokens,
    t.kind = .endOfInput ∨ ∃ word rest ds, Lexeme.Reads word t.kind rest ds := by
  rcases Lexeme.reads_cases (filler cs).rest with ends | ⟨c, rest, cause, known, refused⟩ | reads
  · rw [scanFrom_nil pos ends]
    intro t member
    rw [List.mem_singleton.mp member]
    exact .inl rfl
  · rw [scanFrom_error_of pos known refused]
    exact fun t member => absurd member List.not_mem_nil
  · obtain ⟨word, kind, rest, reads⟩ := reads
    have shorter : rest.length < cs.length := by
      have within := (filler cs).rest_le
      have least := reads.length_lt
      omega
    rw [scanFrom_reads pos reads]
    intro t member
    rcases List.mem_cons.mp member with rfl | later
    · exact .inr ⟨word, rest, _, reads⟩
    · exact scanFrom_kind _ rest t later
termination_by cs.length

theorem scanFrom_space (pos : Pos) (cs : List Char) :
    scanFrom pos (' ' :: cs) = scanFrom (pos.next ' ') cs := by
  have gap : filler (' ' :: cs) = (filler cs).cons ' ' := by
    rw [filler_other (fun _ same => absurd same (by decide)) fun _ same => absurd same (by decide)]
    rfl
  exact scanFrom_eq (congrArg Cut.rest gap) (congrArg (fun cut => pos.after cut.taken) gap)

/-- A lexeme that what follows does not go on with. -/
theorem scanFrom_alone {word more : List Char} {kind : Kind} (pos : Pos)
    (reads : Lexeme.Reads word kind [] word) (apart : Lexeme.Apart more) :
    scanFrom pos (word ++ more) =
      (scanFrom (pos.after word) more).cons ⟨kind, String.ofList word, pos⟩ := by
  have longer : Lexeme.Reads word kind more (word ++ more) := by
    cases more with
    | nil =>
        rw [List.append_nil]
        exact reads
    | cons b ds => exact reads.append (apart b rfl) ds
  have gap := reads.gapless apart
  rw [scanFrom_reads pos (by rw [gap]; exact longer), gap]
  rfl

/-- Lexemes with single spaces between them are read one by one. -/
theorem scanFrom_spaced {kinds : List Kind} {words : List (List Char)}
    (reads : List.Forall₂ (fun kind word => Lexeme.Reads word kind [] word) kinds words) :
    ∀ pos, (scanFrom pos ([' '].intercalate words)).error = none ∧
      (scanFrom pos ([' '].intercalate words)).tokens.map (·.kind) = kinds ++ [.endOfInput] := by
  induction reads with
  | nil =>
      intro pos
      rw [List.intercalate_nil, scanFrom_empty]
      exact ⟨rfl, rfl⟩
  | @cons kind word kinds words first others again =>
      intro pos
      cases others with
      | nil =>
          have alone : scanFrom pos (word ++ []) = _ := scanFrom_alone pos first nofun
          rw [List.append_nil] at alone
          rw [List.intercalate_singleton, alone, scanFrom_empty]
          exact ⟨rfl, rfl⟩
      | @cons _ second _ rest _ _ =>
          have text : [' '].intercalate (word :: second :: rest) =
              word ++ ' ' :: [' '].intercalate (second :: rest) := by
            rw [List.intercalate_cons_cons, List.append_assoc]
            rfl
          have apart : Lexeme.Apart (' ' :: [' '].intercalate (second :: rest)) := by
            rintro b ⟨⟩
            decide
          rw [text, scanFrom_alone pos first apart, scanFrom_space]
          obtain ⟨ends, kinds⟩ := again ((pos.after word).next ' ')
          exact ⟨ends, congrArg (List.cons kind) kinds⟩

end Token

def Text.Shown (c : Char) : Prop := isPrintable c ∨ c = '\n' ∨ c = '\r' ∨ c = '\t'

theorem Text.reads_quoted {cs : List Char} (shown : ∀ c ∈ cs, Shown c) :
    Lexeme.Reads (quoted cs) (.string (String.ofList cs)) [] (quoted cs) := by
  have marks : quoteFor cs = '"' ∨ quoteFor cs = '\'' := by
    unfold quoteFor
    split
    · exact .inl rfl
    · exact .inr rfl
  apply Lexeme.Quotes.reads marks
  apply Lexeme.quotes_flatMap (by rcases marks with same | same <;> rw [same] <;> decide)
  intro c member
  unfold escape
  split
  · next special =>
      refine .escaped ?_
      rcases special with rfl | rfl
      · rcases marks with same | same <;> rw [same] <;> rfl
      · rfl
  · next other =>
      rw [not_or] at other
      split
      · next newline => exact .escaped newline.symm
      · next sameLine =>
          split
          · next same => exact .escaped same.symm
          · next noReturn =>
              split
              · next same => exact .escaped same.symm
              · next noTab =>
                  have printable : isPrintable c :=
                    (shown c member).resolve_right (by simp [sameLine, noReturn, noTab])
                  rw [if_pos printable]
                  exact .plain other.2 other.1 sameLine

end Script
