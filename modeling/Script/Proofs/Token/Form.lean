import Script.Proofs.Token.Gap
import Script.Proofs.Token.Spelling

/-!
The forms of lexemes. Where a text cannot be read a comment or a string begins that never ends, or no
lexeme begins; and a lexeme is read the same from any part of its text that it lies in, since no
character behind it adds to it.
-/

namespace Script

namespace Lexeme

/-- What may stand between two quotes. -/
inductive Body (quote : Char) : List Char → Prop
  | nil : Body quote []
  | escape (c : Char) {cs : List Char} (more : Body quote cs) : Body quote ('\\' :: c :: cs)
  | plain {c : Char} {cs : List Char} (slash : c ≠ '\\') (other : c ≠ quote)
      (sameLine : c ≠ '\n') (more : Body quote cs) : Body quote (c :: cs)

/-- The texts that are lexemes. -/
inductive Form : List Char → Prop
  | number {word : List Char} (numeral : Numeral word) : Form word
  | string {quote : Char} {body : List Char} (marks : quote = '"' ∨ quote = '\'')
      (inside : Body quote body) : Form (quote :: (body ++ [quote]))
  | word {c : Char} {cs : List Char} (letter : isWordStart c) (inside : ∀ d ∈ cs, isWordPart d) :
      Form (c :: cs)
  | operator (op : Operator) : Form op.spelling.toList
  | punct (mark : Punct) : Form [mark.spelling]

/-- Why no lexeme begins a text that is no gap. -/
inductive Stuck : LexCause → List Char → Prop
  | comment {more : List Char} (opens : ¬ ['*', '/'] <:+: more) :
      Stuck .openComment ('/' :: '*' :: more)
  | string {quote : Char} {more : List Char} (marks : quote = '"' ∨ quote = '\'')
      (opens : ∀ body rest, Body quote body → more ≠ body ++ quote :: rest) :
      Stuck .openString (quote :: more)
  | stray {c : Char} {more : List Char} (visible : isSpace c = false)
      (noQuote : ¬ (c = '"' ∨ c = '\'')) (none : ∀ word, Form word → ¬ word <+: c :: more) :
      Stuck (.stray c) (c :: more)

section Strings

variable {quote : Char} {cs body : List Char}

theorem Body.closed (inside : Body quote body) (unescaped : quote ≠ '\\') (rest : List Char) :
    ∃ cut, closeString quote (body ++ quote :: rest) = some cut ∧ cut.taken = body ++ [quote] ∧
      cut.rest = rest := by
  induction inside with
  | nil =>
      refine ⟨⟨[quote], rest, rfl⟩, ?_, rfl, rfl⟩
      show closeString quote (quote :: rest) = _
      rw [closeString_other unescaped, if_pos rfl]
  | @escape c cs _ again =>
      obtain ⟨cut, closes, taken, left⟩ := again
      refine ⟨(cut.cons c).cons '\\', ?_, congrArg (fun cs => '\\' :: c :: cs) taken, left⟩
      show (closeString quote (cs ++ quote :: rest)).map _ = _
      rw [closes]
      rfl
  | @plain c cs slash other sameLine _ again =>
      obtain ⟨cut, closes, taken, left⟩ := again
      refine ⟨cut.cons c, ?_, congrArg (List.cons c) taken, left⟩
      show closeString quote (c :: (cs ++ quote :: rest)) = _
      rw [closeString_other slash, if_neg other, if_neg (by simp [slash, sameLine]), closes]
      rfl

theorem closeString_eq_some (unescaped : quote ≠ '\\') (cs : List Char) :
    ∀ {cut : Cut cs}, closeString quote cs = some cut →
      ∃ body, Body quote body ∧ cut.taken = body ++ [quote] := by
  induction cs using closeString.induct quote with
  | case1 =>
      intro cut closes
      cases closes
  | case2 c rest again =>
      intro cut closes
      rw [closeString, Option.map_eq_some_iff] at closes
      obtain ⟨inner, closes, rfl⟩ := closes
      obtain ⟨body, inside, taken⟩ := again closes
      exact ⟨'\\' :: c :: body, .escape c inside, congrArg (fun cs => '\\' :: c :: cs) taken⟩
  | case3 rest _ =>
      intro cut closes
      rw [closeString_other unescaped, if_pos rfl] at closes
      cases closes
      exact ⟨[], .nil, rfl⟩
  | case4 c rest plain other stops =>
      intro cut closes
      rw [closeString, if_neg other, if_pos stops] at closes
      · cases closes
      · exact plain
  | case5 c rest _ other goes again =>
      intro cut closes
      rw [not_or] at goes
      rw [closeString_other goes.2, if_neg other, if_neg (by simp [goes]),
        Option.map_eq_some_iff] at closes
      obtain ⟨inner, closes, rfl⟩ := closes
      obtain ⟨body, inside, taken⟩ := again closes
      exact ⟨c :: body, .plain goes.2 other goes.1 inside, congrArg (List.cons c) taken⟩

end Strings

section Stuck

variable {c : Char} {cs : List Char} {cause : LexCause}

theorem operator?_eq_none : operator? cs = none ↔ ∀ op, begins cs op = false := by
  have parts := operator?_parts cs
  have known (op : Operator) : op ∈ Operator.all := by cases op <;> decide
  rw [← Option.map_eq_none_iff (f := Lexeme.parts), parts, Option.map_eq_none_iff,
    List.find?_eq_none]
  exact ⟨fun none op => by simpa using none op (known op), fun none op _ => by simp [none op]⟩

theorem punct?_eq_none : punct? c cs = none ↔ ∀ mark : Punct, mark.spelling ≠ c := by
  have known (mark : Punct) : mark ∈ Punct.all := by cases mark <;> decide
  rw [punct?, Option.map_eq_none_iff, List.find?_eq_none]
  exact ⟨fun none mark => by simpa using none mark (known mark), fun none mark _ => by
    simp [none mark]⟩

theorem symbol_error (refused : symbol c cs = .error cause) :
    (cause = .openComment ∧ c = '/' ∧ cs.head? = some '*') ∨
      (cause = .stray c ∧ (∀ op, begins (c :: cs) op = false) ∧
        ∀ mark : Punct, mark.spelling ≠ c) := by
  unfold symbol at refused
  split at refused
  · next opens =>
      cases refused
      exact .inl ⟨rfl, opens⟩
  · split at refused
    · cases refused
    · next noOperator =>
        split at refused
        · cases refused
        · next noMark =>
            cases refused
            exact .inr ⟨rfl, operator?_eq_none.mp noOperator, punct?_eq_none.mp noMark⟩

theorem Form.head {word : List Char} (form : Form word) (start : word <+: c :: cs) :
    c.isDigit ∨ (c = '"' ∨ c = '\'') ∨ isWordStart c ∨ (∃ op, begins (c :: cs) op = true) ∨
      ∃ mark : Punct, mark.spelling = c := by
  cases form with
  | number numeral =>
      have first {ds : List Char} (some : ds ≠ []) (digits : ∀ d ∈ ds, d.isDigit)
          (start : ds <+: c :: cs) : c.isDigit := by
        cases ds with
        | nil => exact absurd rfl some
        | cons d ds => exact (List.cons_prefix_cons.mp start).1 ▸ digits d List.mem_cons_self
      cases numeral with
      | whole some digits => exact .inl (first some digits start)
      | fraction some digits _ _ =>
          exact .inl (first some digits ((List.prefix_append _ _).trans start))
  | string marks _ =>
      obtain ⟨rfl, -⟩ := List.cons_prefix_cons.mp start
      exact .inr (.inl marks)
  | word letter _ =>
      obtain ⟨rfl, -⟩ := List.cons_prefix_cons.mp start
      exact .inr (.inr (.inl letter))
  | operator op => exact .inr (.inr (.inr (.inl ⟨op, List.isPrefixOf_iff_prefix.mpr start⟩)))
  | punct mark => exact .inr (.inr (.inr (.inr ⟨mark, (List.cons_prefix_cons.mp start).1⟩)))

theorem stuck_of_error (refused : read c cs = .error cause)
    (left : Solid (c :: cs) ∨ ∃ more, c :: cs = '/' :: '*' :: more ∧ ¬ ['*', '/'] <:+: more) :
    Stuck cause (c :: cs) := by
  unfold read at refused
  split at refused
  · cases refused
  · next noDigit =>
      split at refused
      · next marks =>
          split at refused
          · cases refused
          · next unclosed =>
              cases refused
              refine .string marks fun body rest inside same => ?_
              subst same
              have unescaped : c ≠ '\\' := by rcases marks with rfl | rfl <;> decide
              obtain ⟨cut, closes, -⟩ := inside.closed unescaped rest
              rw [unclosed] at closes
              cases closes
      · next noQuote =>
          split at refused
          · cases refused
          · next noLetter =>
              rcases symbol_error refused with ⟨rfl, rfl, star⟩ | ⟨rfl, noOperator, noMark⟩
              · rcases left with solid | ⟨more, same, opens⟩
                · cases solid with
                  | cons _ slash => exact absurd star (slash rfl).2
                · rw [same]
                  exact .comment opens
              · have none (word : List Char) (form : Form word) : ¬ word <+: c :: cs := by
                  intro start
                  rcases form.head start with digit | quote | letter | ⟨op, begins⟩ | ⟨mark, same⟩
                  · exact noDigit digit
                  · exact noQuote quote
                  · exact noLetter letter
                  · simp [noOperator op] at begins
                  · exact noMark mark same
                rcases left with solid | ⟨more, same, -⟩
                · cases solid with
                  | cons visible _ => exact .stray visible noQuote none
                · cases same
                  have starts : begins ('/' :: '*' :: more) .divide = true := rfl
                  rw [noOperator] at starts
                  cases starts

end Stuck

section Shortened

variable {word rest ds cs : List Char} {kind : Kind}

theorem takeWhile_shortened {p : Char → Bool}
    (takes : (word ++ (rest ++ ds)).takeWhile p = word) :
    (word ++ rest).takeWhile p = word ∧ (word ++ rest).dropWhile p = rest := by
  have inside : ∀ c ∈ word, p c := by
    rw [← takes]
    exact fun c member => mem_takeWhile member
  rw [List.takeWhile_append_of_pos inside, List.append_right_eq_self] at takes
  rw [List.takeWhile_append_of_pos inside, List.dropWhile_append_of_pos inside]
  cases rest with
  | nil => simp
  | cons c rest =>
      have stops : p c = false := by
        rw [← Bool.not_eq_true]
        intro goes
        simp [goes] at takes
      simp [stops]

theorem fraction_digits {d : Char} (digit : d.isDigit) (cs : List Char) :
    fraction ('.' :: d :: cs) = (Cut.takeWhile Char.isDigit (d :: cs)).cons '.' := by
  rw [fraction, if_pos digit]

theorem fraction_shortened (takes : (fraction (word ++ (rest ++ ds))).taken = word) :
    (fraction (word ++ rest)).taken = word ∧ (fraction (word ++ rest)).rest = rest := by
  suffices taken : (fraction (word ++ rest)).taken = word by
    have joined := (fraction (word ++ rest)).joined
    rw [taken] at joined
    exact ⟨taken, List.append_cancel_left joined⟩
  rcases fraction_taken (word ++ (rest ++ ds)) with none | ⟨fs, more, decimals, taken⟩
  · obtain rfl := takes.symm.trans none
    rcases fraction_taken rest with none | ⟨fs, more, decimals, taken⟩
    · exact none
    · have joined := (fraction rest).joined
      rw [taken] at joined
      cases fs with
      | nil => exact absurd rfl more
      | cons d fs =>
          have digit := decimals d List.mem_cons_self
          rw [← joined] at takes
          simp only [List.nil_append, List.cons_append, fraction_digits digit, Cut.cons] at takes
          cases takes
  · obtain rfl := takes.symm.trans taken
    cases fs with
    | nil => exact absurd rfl more
    | cons d fs =>
        have digit := decimals d List.mem_cons_self
        simp only [List.cons_append, fraction_digits digit, Cut.cons] at takes ⊢
        have digits : (d :: fs ++ (rest ++ ds)).takeWhile Char.isDigit = d :: fs :=
          (List.cons.inj takes).2
        exact congrArg (List.cons '.') (takeWhile_shortened digits).1

theorem number_shortened {c : Char} {tail : List Char}
    (takes : (number c (tail ++ (rest ++ ds))).taken = c :: tail) :
    (number c (tail ++ rest)).taken = c :: tail ∧ (number c (tail ++ rest)).rest = rest := by
  suffices taken : (number c (tail ++ rest)).taken = c :: tail by
    have joined := (number c (tail ++ rest)).joined
    rw [taken] at joined
    exact ⟨taken, List.append_cancel_left (List.cons.inj joined).2⟩
  have parts (cs : List Char) : (number c cs).taken = c :: (cs.takeWhile Char.isDigit ++
      (fraction (cs.dropWhile Char.isDigit)).taken) := rfl
  rw [parts, List.cons.injEq] at takes ⊢
  generalize digits : (tail ++ (rest ++ ds)).takeWhile Char.isDigit = whole at takes
  generalize left : (tail ++ (rest ++ ds)).dropWhile Char.isDigit = more at takes
  have joined : whole ++ more = tail ++ (rest ++ ds) := by
    rw [← digits, ← left]
    exact List.takeWhile_append_dropWhile
  obtain ⟨-, rfl⟩ := takes
  rw [List.append_assoc] at joined
  have same := List.append_cancel_left joined
  rw [List.append_assoc] at digits ⊢
  have takes : (whole ++ (((fraction more).taken ++ rest) ++ ds)).takeWhile Char.isDigit = whole := by
    simpa [List.append_assoc] using digits
  have fits : (fraction ((fraction more).taken ++ (rest ++ ds))).taken = (fraction more).taken :=
    congrArg (fun cs => (fraction cs).taken) same.symm
  rw [(takeWhile_shortened takes).1, (takeWhile_shortened takes).2]
  exact ⟨rfl, congrArg _ (fraction_shortened fits).1⟩

theorem operator?_shortened {op : Operator}
    (found : Operator.all.find? (begins (cs ++ ds)) = some op)
    (within : op.spelling.toList <+: cs) : Operator.all.find? (begins cs) = some op := by
  rw [List.find?_eq_some_iff_append] at found ⊢
  obtain ⟨-, before, after, all, none⟩ := found
  refine ⟨List.isPrefixOf_iff_prefix.mpr within, before, after, all, fun other member => ?_⟩
  have fails := none other member
  simp only [begins, Bool.not_eq_true', ← Bool.not_eq_true, List.isPrefixOf_iff_prefix] at fails ⊢
  exact fun start => fails (start.trans (List.prefix_append cs ds))

theorem symbol_shortened {c : Char} {tail : List Char}
    (reads : (symbol c (tail ++ (rest ++ ds))).map parts = .ok (c :: tail, kind, rest ++ ds)) :
    (symbol c (tail ++ rest)).map parts = .ok (c :: tail, kind, rest) := by
  have longer := operator?_parts (c :: (tail ++ (rest ++ ds)))
  have shorter := operator?_parts (c :: (tail ++ rest))
  unfold symbol at reads ⊢
  split at reads
  · cases reads
  · next closed =>
      have unopened : ¬ (c = '/' ∧ (tail ++ rest).head? = some '*') := by
        rintro ⟨slash, star⟩
        obtain ⟨more, same⟩ := List.head?_eq_some_iff.mp star
        refine closed ⟨slash, ?_⟩
        rw [← List.append_assoc, same]
        rfl
      rw [if_neg unopened]
      cases known : operator? (c :: (tail ++ (rest ++ ds))) with
      | some found =>
          rw [known] at longer reads
          obtain ⟨op, first, parts⟩ := Option.map_eq_some_iff.mp longer.symm
          have whole := parts.trans (Except.ok.inj reads)
          have spelt : op.spelling.toList = c :: tail := congrArg (·.1) whole
          have within : op.spelling.toList <+: c :: (tail ++ rest) :=
            spelt ▸ List.prefix_append (c :: tail) rest
          have same : c :: (tail ++ (rest ++ ds)) = c :: (tail ++ rest) ++ ds := by simp
          rw [operator?_shortened (same ▸ first) within, Option.map_some, spelt] at shorter
          obtain ⟨found', known', parts'⟩ := Option.map_eq_some_iff.mp shorter
          have isOperator : Kind.operator op = kind := congrArg (·.2.1) whole
          rw [known']
          refine congrArg Except.ok (parts'.trans ?_)
          rw [isOperator]
          simp
      | none =>
          have refused : operator? (c :: (tail ++ rest)) = none := by
            refine operator?_eq_none.mpr fun op => ?_
            have fails := operator?_eq_none.mp known op
            rw [begins, ← Bool.not_eq_true, List.isPrefixOf_iff_prefix] at fails ⊢
            refine fun start => fails (start.trans ?_)
            rw [← List.append_assoc]
            exact List.prefix_append (c :: (tail ++ rest)) ds
          rw [known] at reads
          rw [refused]
          simp only [punct?] at reads ⊢
          cases marks : Punct.all.find? (·.spelling = c) with
          | none =>
              rw [marks] at reads
              cases reads
          | some mark =>
              rw [marks] at reads
              have whole := Except.ok.inj reads
              obtain rfl : [] = tail := (List.cons.inj (congrArg (·.1) whole)).2
              have isMark : Kind.punct mark = kind := congrArg (·.2.1) whole
              exact congrArg (fun kind => Except.ok ([c], kind, rest)) isMark

theorem Reads.shortened (reads : Reads word kind (rest ++ ds) cs) :
    Reads word kind rest (word ++ rest) := by
  obtain ⟨found, taken, -, -⟩ := reads.found
  obtain ⟨c, tail, rfl⟩ := List.exists_cons_of_ne_nil (taken ▸ found.taken_ne_nil)
  obtain rfl := reads.joined
  have before : (read c (tail ++ (rest ++ ds))).map parts = .ok (c :: tail, kind, rest ++ ds) :=
    reads
  show (read c (tail ++ rest)).map parts = _
  unfold read at before ⊢
  split at before
  · next digit =>
      have whole := Except.ok.inj before
      have takes : (Lexeme.number c (tail ++ (rest ++ ds))).taken = c :: tail :=
        congrArg (·.1) whole
      have isNumber : Kind.number (numberValue (c :: tail)) = kind := by
        rw [← takes]
        exact congrArg (·.2.1) whole
      obtain ⟨taken, left⟩ := number_shortened takes
      rw [if_pos digit, ← isNumber]
      show Except.ok (_, Kind.number (numberValue _), _) = _
      rw [taken, left]
  · next noDigit =>
      rw [if_neg noDigit]
      split at before
      · next marks =>
          rw [if_pos marks]
          have unescaped : c ≠ '\\' := by rcases marks with rfl | rfl <;> decide
          split at before
          · next cut closes =>
              have whole := Except.ok.inj before
              have isString : Kind.string (String.ofList (unescape cut.taken.dropLast)) = kind :=
                congrArg (·.2.1) whole
              obtain ⟨body, inside, taken⟩ := closeString_eq_some unescaped _ closes
              have same : cut.taken = tail := (List.cons.inj (congrArg (·.1) whole)).2
              obtain rfl := same.symm.trans taken
              obtain ⟨cut', closes', taken', left⟩ := inside.closed unescaped rest
              rw [← isString, taken, List.append_assoc]
              simp only [List.singleton_append, closes', Except.map, parts, Cut.cons, taken', left]
          · cases before
      · next noQuote =>
          rw [if_neg noQuote]
          split at before
          · next letter =>
              have whole := Except.ok.inj before
              have takes : (tail ++ (rest ++ ds)).takeWhile isWordPart = tail :=
                (List.cons.inj (congrArg (·.1) whole)).2
              obtain ⟨taken, left⟩ := takeWhile_shortened takes
              have isWord : wordKind (String.ofList (c :: tail)) = kind := by
                rw [← takes]
                exact congrArg (·.2.1) whole
              rw [if_pos letter]
              simp only [Except.map, parts, Cut.cons, Cut.takeWhile, taken, left, isWord]
          · next noLetter =>
              rw [if_neg noLetter]
              exact symbol_shortened before

end Shortened

end Lexeme

end Script
