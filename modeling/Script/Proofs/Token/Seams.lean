import Script.Proofs.Token.Scanning

/-!
Texts put together. A lexeme is read the same if more text follows that begins with a character that
no lexeme goes on with, and a text that has been read to its end is read the same before a newline.
-/

namespace Script

namespace Lexeme

/-- No lexeme but a string goes on with the character. -/
def breaks (c : Char) : Bool :=
  !isWordPart c && !c.isDigit && c != '.' && Operator.all.all (!·.spelling.toList.contains c)

def parts {cs : List Char} (found : Lexeme cs) : List Char × Kind × List Char :=
  (found.taken, found.kind, found.rest)

/-- The text begins with the lexeme `word`, which is of the kind, and `rest` follows it. -/
def Reads (word : List Char) (kind : Kind) (rest : List Char) : List Char → Prop
  | [] => False
  | c :: cs => (read c cs).map parts = .ok (word, kind, rest)

section Append

variable {b : Char} {cs ds rest word : List Char} {kind : Kind}

theorem takeWhile_append {p : Char → Bool} (stops : p b = false) (cs ds : List Char) :
    (cs ++ b :: ds).takeWhile p = cs.takeWhile p := by
  induction cs with
  | nil => simp [stops]
  | cons c rest again =>
      rw [List.cons_append, List.takeWhile_cons, List.takeWhile_cons, again]

theorem dropWhile_append {p : Char → Bool} (stops : p b = false) (cs ds : List Char) :
    (cs ++ b :: ds).dropWhile p = cs.dropWhile p ++ b :: ds := by
  induction cs with
  | nil => simp [stops]
  | cons c rest again =>
      rw [List.cons_append, List.dropWhile_cons, List.dropWhile_cons]
      split
      · exact again
      · rfl

theorem breaks_digit (breaks : breaks b) : b.isDigit = false := by
  simp only [Lexeme.breaks, Bool.and_eq_true, Bool.not_eq_true'] at breaks
  exact breaks.1.1.2

theorem breaks_point (breaks : breaks b) : b ≠ '.' := by
  simp only [Lexeme.breaks, Bool.and_eq_true, bne_iff_ne] at breaks
  exact breaks.1.2

theorem breaks_word (breaks : breaks b) : isWordPart b = false := by
  simp only [Lexeme.breaks, Bool.and_eq_true, Bool.not_eq_true'] at breaks
  exact breaks.1.1.1

theorem breaks_operator (breaks : breaks b) (op : Operator) : b ∉ op.spelling.toList := by
  simp only [Lexeme.breaks, Bool.and_eq_true, List.all_eq_true] at breaks
  have known : op ∈ Operator.all := by cases op <;> decide
  simpa using breaks.2 op known

theorem fraction_other {c : Char} (other : c ≠ '.') (cs : List Char) :
    fraction (c :: cs) = .none _ := by
  rw [fraction]
  rintro d rest ⟨⟩
  exact other rfl

theorem fraction_append (breaks : breaks b) (cs ds : List Char) :
    (fraction (cs ++ b :: ds)).taken = (fraction cs).taken ∧
      (fraction (cs ++ b :: ds)).rest = (fraction cs).rest ++ b :: ds := by
  cases cs with
  | nil =>
      rw [List.nil_append, fraction_other (breaks_point breaks)]
      exact ⟨rfl, rfl⟩
  | cons c rest =>
      by_cases point : c = '.'
      · subst point
        cases rest with
        | nil =>
            simp only [List.cons_append, List.nil_append, fraction, breaks_digit breaks]
            exact ⟨rfl, rfl⟩
        | cons d rest =>
            cases digit : d.isDigit with
            | false =>
                simp only [List.cons_append, fraction, digit]
                exact ⟨rfl, rfl⟩
            | true =>
                simp only [List.cons_append, fraction, digit, if_true, Cut.cons, Cut.takeWhile]
                have takes := takeWhile_append (breaks_digit breaks) (d :: rest) ds
                have drops := dropWhile_append (breaks_digit breaks) (d :: rest) ds
                exact ⟨congrArg _ takes, drops⟩
      · rw [List.cons_append, fraction_other point, fraction_other point]
        exact ⟨rfl, rfl⟩

theorem number_append (breaks : breaks b) (c : Char) (cs ds : List Char) :
    (number c (cs ++ b :: ds)).taken = (number c cs).taken ∧
      (number c (cs ++ b :: ds)).rest = (number c cs).rest ++ b :: ds := by
  have digit := breaks_digit breaks
  obtain ⟨takes, drops⟩ := fraction_append breaks (cs.dropWhile Char.isDigit) ds
  simp only [number, Cut.append, Cut.cons, Cut.takeWhile, takeWhile_append digit]
  rw [← dropWhile_append digit] at takes drops
  exact ⟨congrArg _ takes, drops⟩

theorem closeString_other {quote c : Char} (plain : c ≠ '\\') : closeString quote (c :: cs) =
    if c = quote then some ⟨[c], cs, rfl⟩
    else if c = '\n' ∨ c = '\\' then none
    else (closeString quote cs).map (·.cons c) := by
  rw [closeString]
  exact fun _ _ same => absurd same plain

theorem closeString_append {quote : Char} (unescaped : quote ≠ '\\') (ds cs : List Char) :
    ∀ {cut : Cut cs}, closeString quote cs = some cut →
      ∃ longer, closeString quote (cs ++ ds) = some longer ∧ longer.taken = cut.taken ∧
        longer.rest = cut.rest ++ ds := by
  induction cs using closeString.induct quote with
  | case1 =>
      intro cut closes
      cases closes
  | case2 c rest again =>
      intro cut closes
      rw [closeString, Option.map_eq_some_iff] at closes
      obtain ⟨inner, closes, rfl⟩ := closes
      obtain ⟨longer, closes, taken, left⟩ := again closes
      refine ⟨(longer.cons c).cons '\\', ?_, congrArg (fun cs => '\\' :: c :: cs) taken, left⟩
      show closeString quote ('\\' :: c :: (rest ++ ds)) = _
      rw [closeString, closes]
      rfl
  | case3 rest _ =>
      intro cut closes
      rw [closeString_other unescaped, if_pos rfl] at closes
      cases closes
      refine ⟨⟨[quote], rest ++ ds, rfl⟩, ?_, rfl, rfl⟩
      show closeString quote (quote :: (rest ++ ds)) = _
      rw [closeString_other unescaped, if_pos rfl]
  | case4 c rest plain other stops =>
      intro cut closes
      rw [closeString, if_neg other, if_pos stops] at closes
      · cases closes
      · exact plain
  | case5 c rest _ other goes again =>
      intro cut closes
      have slash : c ≠ '\\' := fun same => goes (.inr same)
      rw [closeString_other slash, if_neg other, if_neg goes, Option.map_eq_some_iff] at closes
      obtain ⟨inner, closes, rfl⟩ := closes
      obtain ⟨longer, closes, taken, left⟩ := again closes
      refine ⟨longer.cons c, ?_, congrArg (List.cons c) taken, left⟩
      show closeString quote (c :: (rest ++ ds)) = _
      rw [closeString_other slash, if_neg other, if_neg goes, closes]
      rfl

theorem begins_append (breaks : breaks b) (cs ds : List Char) :
    begins (cs ++ b :: ds) = begins cs := by
  funext op
  have apart := breaks_operator breaks op
  unfold begins
  generalize op.spelling.toList = spelling at apart
  induction spelling generalizing cs with
  | nil => simp
  | cons s spelling again =>
      rw [List.mem_cons, not_or] at apart
      cases cs with
      | nil => simp [List.isPrefixOf, Ne.symm apart.1]
      | cons c cs => simp [List.isPrefixOf, again _ apart.2]

theorem operator?_parts (cs : List Char) :
    (operator? cs).map parts = (Operator.all.find? (begins cs)).map fun op =>
      (op.spelling.toList, .operator op, cs.drop op.spelling.toList.length) := by
  unfold operator?
  split
  · next op found =>
      exact (congrArg (Option.map fun op : Operator =>
        (op.spelling.toList, Kind.operator op, cs.drop op.spelling.toList.length)) found).symm
  · next found => simp [found]

theorem operator?_append (breaks : breaks b) (cs ds : List Char) :
    (operator? (cs ++ b :: ds)).map parts =
      ((operator? cs).map parts).map fun (word, kind, rest) => (word, kind, rest ++ b :: ds) := by
  rw [operator?_parts, operator?_parts, begins_append breaks]
  cases found : Operator.all.find? (begins cs) with
  | none => rfl
  | some op =>
      have start : begins cs op := List.find?_some found
      have within := (List.isPrefixOf_iff_prefix.mp start).length_le
      simp only [Option.map_some, List.drop_append_of_le_length within]

theorem symbol_append (breaks : breaks b) {c : Char} {cs : List Char} (ds : List Char)
    (reads : (symbol c cs).map parts = .ok (word, kind, rest)) :
    (symbol c (cs ++ b :: ds)).map parts = .ok (word, kind, rest ++ b :: ds) := by
  have star : '*' ≠ b := by
    rintro rfl
    exact absurd breaks (by decide)
  have head : (cs ++ b :: ds).head? = some '*' ↔ cs.head? = some '*' := by
    cases cs with
    | nil => simp [Ne.symm star]
    | cons => simp
  have operators := operator?_append breaks (c :: cs) ds
  unfold symbol at reads ⊢
  simp only [head]
  split at reads
  · cases reads
  · next closed =>
      rw [if_neg closed]
      rw [List.cons_append] at operators
      cases known : operator? (c :: cs) with
      | some found =>
          rw [known] at operators reads
          obtain ⟨longer, same, both⟩ := Option.map_eq_some_iff.mp operators
          cases reads
          simp only [same, Except.map]
          exact congrArg Except.ok both
      | none =>
          rw [known] at operators reads
          rw [Option.map_eq_none_iff.mp operators]
          simp only [punct?] at reads ⊢
          cases marks : Punct.all.find? (·.spelling = c) with
          | none =>
              rw [marks] at reads
              cases reads
          | some mark =>
              rw [marks] at reads
              cases reads
              rfl

theorem Reads.append (breaks : breaks b) (ds : List Char) (reads : Reads word kind rest cs) :
    Reads word kind (rest ++ b :: ds) (cs ++ b :: ds) := by
  cases cs with
  | nil => exact reads.elim
  | cons c cs =>
      show (read c (cs ++ b :: ds)).map parts = _
      have before : (read c cs).map parts = .ok (word, kind, rest) := reads
      unfold read at before ⊢
      split at before
      · next digit =>
          cases before
          obtain ⟨takes, drops⟩ := number_append breaks c cs ds
          rw [if_pos digit]
          show Except.ok (_, _, _) = _
          rw [takes, drops]
      · next noDigit =>
          rw [if_neg noDigit]
          split at before
          · next quotes =>
              rw [if_pos quotes]
              split at before
              · next body closes =>
                  cases before
                  have unescaped : c ≠ '\\' := by
                    rcases quotes with rfl | rfl <;> decide
                  obtain ⟨longer, closes, taken, left⟩ :=
                    closeString_append unescaped (b :: ds) cs closes
                  simp only [closes, Except.map, parts, Cut.cons, taken, left]
              · cases before
          · next noQuote =>
              rw [if_neg noQuote]
              split at before
              · next letter =>
                  cases before
                  rw [if_pos letter]
                  have stops := breaks_word breaks
                  simp only [Except.map, parts, Cut.cons, Cut.takeWhile, takeWhile_append stops,
                    dropWhile_append stops]
              · next noLetter =>
                  rw [if_neg noLetter]
                  exact symbol_append breaks ds before

end Append

section Reads

variable {cs word rest : List Char} {kind : Kind}

theorem reads_of_ok {c : Char} {found : Lexeme (c :: cs)} (read : read c cs = .ok found) :
    Reads found.taken found.kind found.rest (c :: cs) :=
  congrArg (Except.map parts) read

theorem Reads.found (reads : Reads word kind rest cs) :
    ∃ found : Lexeme cs, found.taken = word ∧ found.kind = kind ∧ found.rest = rest := by
  cases cs with
  | nil => exact reads.elim
  | cons c cs =>
      have result : (read c cs).map parts = .ok (word, kind, rest) := reads
      cases known : read c cs with
      | error cause =>
          rw [known] at result
          cases result
      | ok found =>
          rw [known] at result
          cases result
          exact ⟨found, rfl, rfl, rfl⟩

theorem Reads.joined (reads : Reads word kind rest cs) : word ++ rest = cs := by
  obtain ⟨found, rfl, rfl, rfl⟩ := reads.found
  exact found.joined

theorem Reads.length_lt (reads : Reads word kind rest cs) : rest.length < cs.length := by
  obtain ⟨found, rfl, rfl, rfl⟩ := reads.found
  exact found.rest_lt found.taken_ne_nil

theorem Reads.ne_nil (reads : Reads word kind rest cs) : cs ≠ [] := by
  rintro rfl
  exact reads

theorem Reads.unopened (reads : Reads word kind rest cs) (more : List Char) :
    cs ≠ '/' :: '*' :: more := by
  rintro rfl
  have result : (read '/' ('*' :: more)).map parts = .ok (word, kind, rest) := reads
  cases result

theorem reads_cases (cs : List Char) :
    cs = [] ∨ (∃ c rest cause, cs = c :: rest ∧ read c rest = .error cause) ∨
      ∃ word kind rest, Reads word kind rest cs := by
  cases cs with
  | nil => exact .inl rfl
  | cons c cs =>
      cases known : read c cs with
      | error cause => exact .inr (.inl ⟨c, cs, cause, rfl, known⟩)
      | ok found => exact .inr (.inr ⟨_, _, _, reads_of_ok known⟩)

end Reads

end Lexeme

section Filler

variable {c : Char} {cs rest : List Char}

theorem filler_other (noLine : ∀ more, c = '/' → rest = '/' :: more → False)
    (noBlock : ∀ more, c = '/' → rest = '*' :: more → False) :
    filler (c :: rest) = if isSpace c then (filler rest).cons c else .none _ := by
  rw [filler]
  · exact noLine
  · exact noBlock

theorem filler_line (rest : List Char) :
    filler ('/' :: '/' :: rest) =
      (((lineComment rest).append (filler (lineComment rest).rest)).cons '/').cons '/' := by
  rw [filler]

theorem filler_block {comment : Cut rest} (closes : closeComment rest = some comment) :
    filler ('/' :: '*' :: rest) = ((comment.append (filler comment.rest)).cons '*').cons '/' := by
  rw [filler, closes]

theorem filler_none (solid : isSpace c = false) (slash : c ≠ '/') :
    filler (c :: rest) = .none _ := by
  rw [filler_other (fun _ same => absurd same slash) fun _ same => absurd same slash, solid]
  rfl

theorem filler_newline (ds : List Char) : filler ('\n' :: ds) = (filler ds).cons '\n' := by
  rw [filler_other (fun _ same => absurd same (by decide)) fun _ same => absurd same (by decide)]
  rfl

theorem unopened_append {d : Char} (other : d ≠ '\n') {ds : List Char}
    (unopened : ∀ more, c = '/' → rest = d :: more → False) :
    ∀ more, c = '/' → rest ++ '\n' :: ds = d :: more → False := by
  intro more slash same
  cases rest with
  | nil =>
      cases same
      exact other rfl
  | cons e tail =>
      cases same
      exact unopened tail slash rfl

theorem closeComment_append (ds : List Char) (cs : List Char) :
    ∀ {cut : Cut cs}, closeComment cs = some cut →
      ∃ longer, closeComment (cs ++ ds) = some longer ∧ longer.taken = cut.taken ∧
        longer.rest = cut.rest ++ ds := by
  induction cs using closeComment.induct with
  | case1 =>
      intro cut closes
      cases closes
  | case2 rest =>
      intro cut closes
      cases closes
      exact ⟨⟨['*', '/'], rest ++ ds, rfl⟩, rfl, rfl, rfl⟩
  | case3 c rest goes again =>
      intro cut closes
      rw [closeComment] at closes
      · obtain ⟨inner, found, rfl⟩ := Option.map_eq_some_iff.mp closes
        obtain ⟨longer, closes, taken, left⟩ := again found
        refine ⟨longer.cons c, ?_, ?_, left⟩
        · show closeComment (c :: (rest ++ ds)) = _
          rw [closeComment, closes]
          · rfl
          · intro more star slash
            cases rest with
            | nil => cases found
            | cons d tail =>
                cases slash
                exact goes tail star rfl
        · simp only [Cut.cons, taken]
      · exact goes

theorem lineComment_append (cs ds : List Char) :
    (lineComment (cs ++ '\n' :: ds)).taken = (lineComment cs).taken ∧
      (lineComment (cs ++ '\n' :: ds)).rest = (lineComment cs).rest ++ '\n' :: ds := by
  have stops : decide ('\n' ≠ '\n') = false := by decide
  exact ⟨Lexeme.takeWhile_append stops cs ds, Lexeme.dropWhile_append stops cs ds⟩

def resumed (ds : List Char) : List Char → List Char × List Char
  | [] => ('\n' :: (filler ds).taken, (filler ds).rest)
  | left => ([], left ++ '\n' :: ds)

theorem resumed_of_ne_nil (ds : List Char) {left : List Char} (more : left ≠ []) :
    resumed ds left = ([], left ++ '\n' :: ds) := by
  cases left with
  | nil => exact absurd rfl more
  | cons => rfl

/-- Skipping goes on after a newline only where all before it was skipped. -/
theorem filler_append (ds : List Char) (cs : List Char) :
    (∀ more, (filler cs).rest ≠ '/' :: '*' :: more) →
      (filler (cs ++ '\n' :: ds)).taken =
          (filler cs).taken ++ (resumed ds (filler cs).rest).1 ∧
        (filler (cs ++ '\n' :: ds)).rest = (resumed ds (filler cs).rest).2 := by
  induction cs using filler.induct with
  | case1 =>
      intro _
      rw [List.nil_append, filler_newline, filler]
      exact ⟨rfl, rfl⟩
  | case2 rest again =>
      rw [filler_line]
      intro closed
      obtain ⟨takes, drops⟩ := lineComment_append rest ds
      obtain ⟨taken, left⟩ := again closed
      rw [← drops] at taken left
      rw [List.cons_append, List.cons_append, filler_line]
      refine ⟨?_, left⟩
      simp only [Cut.cons, Cut.append]
      rw [takes, taken, List.cons_append, List.cons_append, List.append_assoc]
  | case3 rest comment closes again =>
      rw [filler_block closes]
      intro closed
      obtain ⟨taken, left⟩ := again closed
      obtain ⟨longer, closes', takes, drops⟩ := closeComment_append ('\n' :: ds) rest closes
      rw [← drops] at taken left
      rw [List.cons_append, List.cons_append, filler_block closes']
      refine ⟨?_, left⟩
      simp only [Cut.cons, Cut.append]
      rw [takes, taken, List.cons_append, List.cons_append, List.append_assoc]
  | case4 rest opens =>
      rw [filler, opens]
      exact fun closed => absurd rfl (closed rest)
  | case5 c rest noLine noBlock space again =>
      rw [filler_other noLine noBlock, if_pos space]
      intro closed
      obtain ⟨taken, left⟩ := again closed
      rw [List.cons_append, filler_other (unopened_append (by decide) noLine)
        (unopened_append (by decide) noBlock), if_pos space]
      exact ⟨congrArg (List.cons c) taken, left⟩
  | case6 c rest noLine noBlock other =>
      rw [filler_other noLine noBlock, if_neg other]
      intro _
      rw [List.cons_append, filler_other (unopened_append (by decide) noLine)
        (unopened_append (by decide) noBlock), if_neg other]
      exact ⟨rfl, rfl⟩

end Filler

namespace Token

variable {cs rest word left : List Char} {kind : Kind}

theorem scanFrom_nil (pos : Pos) (ends : (filler cs).rest = []) :
    scanFrom pos cs = ⟨[⟨.endOfInput, "", pos.after (filler cs).taken⟩], none⟩ := by
  rw [scanFrom]
  split
  · rfl
  · next known =>
      rw [ends] at known
      cases known

theorem scanFrom_reads (pos : Pos) (reads : Lexeme.Reads word kind rest (filler cs).rest) :
    scanFrom pos cs = (scanFrom ((pos.after (filler cs).taken).after word) rest).cons
      ⟨kind, String.ofList word, pos.after (filler cs).taken⟩ := by
  rw [scanFrom]
  split
  · next known =>
      rw [known] at reads
      exact reads.elim
  · next c tail known =>
      rw [known] at reads
      have result : (Lexeme.read c tail).map Lexeme.parts = .ok (word, kind, rest) := reads
      split
      · next cause refused =>
          rw [refused] at result
          cases result
      · next found read =>
          rw [read] at result
          cases result
          rfl

theorem scanFrom_error_of (pos : Pos) {c : Char} (known : (filler cs).rest = c :: rest)
    {cause : LexCause} (refused : Lexeme.read c rest = .error cause) :
    scanFrom pos cs = ⟨[], some ⟨cause, pos.after (filler cs).taken⟩⟩ := by
  rw [scanFrom]
  split
  · next ends =>
      rw [ends] at known
      cases known
  · next c' tail known' =>
      rw [known'] at known
      cases known
      rw [refused]

theorem scanFrom_empty (pos : Pos) : scanFrom pos [] = ⟨[⟨.endOfInput, "", pos⟩], none⟩ := by
  have gap : filler [] = .none _ := by rw [filler]
  rw [scanFrom_nil pos (by rw [gap]; rfl), gap]
  rfl

theorem scanFrom_lexeme (pos : Pos) {c : Char} (solid : isSpace c = false) (slash : c ≠ '/')
    (reads : Lexeme.Reads word kind rest (c :: cs)) :
    scanFrom pos (c :: cs) = (scanFrom (pos.after word) rest).cons
      ⟨kind, String.ofList word, pos⟩ := by
  have gap : filler (c :: cs) = .none _ := filler_none solid slash
  rw [scanFrom_reads pos (by rw [gap]; exact reads), gap]
  rfl

theorem scanFrom_eq {pos pos' : Pos} {ds : List Char} (left : (filler cs).rest = (filler ds).rest)
    (place : pos.after (filler cs).taken = pos'.after (filler ds).taken) :
    scanFrom pos cs = scanFrom pos' ds := by
  rcases Lexeme.reads_cases (filler ds).rest with ends | ⟨c, rest, cause, known, refused⟩ | reads
  · rw [scanFrom_nil pos (left.trans ends), scanFrom_nil pos' ends, place]
  · rw [scanFrom_error_of pos (left.trans known) refused, scanFrom_error_of pos' known refused,
      place]
  · obtain ⟨word, kind, rest, reads⟩ := reads
    rw [scanFrom_reads pos' reads, scanFrom_reads pos (left ▸ reads), place]

end Token

def Scanned.after (ts : List Token) (s : Scanned) : Scanned := ⟨ts ++ s.tokens, s.error⟩

/-- A text that has been scanned to its end is scanned the same before a newline; what follows the
newline is scanned for itself. -/
theorem Token.scanFrom_append (ds : List Char) (pos : Pos) (cs : List Char)
    (ends : (scanFrom pos cs).error = none) :
    scanFrom pos (cs ++ '\n' :: ds) =
      (scanFrom (pos.after (cs ++ ['\n'])) ds).after (scanFrom pos cs).tokens.dropLast := by
  have joined := (filler cs).joined
  rcases Lexeme.reads_cases (filler cs).rest with all | ⟨c, rest, cause, known, refused⟩ | reads
  · obtain ⟨taken, left⟩ := filler_append ds cs (by rw [all]; nofun)
    rw [all] at joined taken left
    rw [List.append_nil] at joined
    rw [scanFrom_nil pos all]
    apply scanFrom_eq left
    rw [taken, joined, ← Pos.after_append, List.append_assoc]
    rfl
  · rw [scanFrom_error_of pos known refused] at ends
    cases ends
  · obtain ⟨word, kind, rest, reads⟩ := reads
    obtain ⟨taken, left⟩ := filler_append ds cs reads.unopened
    have shorter : rest.length < cs.length := by
      have within := (filler cs).rest_le
      have least := reads.length_lt
      omega
    rw [scanFrom_reads pos reads] at ends ⊢
    have again := scanFrom_append ds ((pos.after (filler cs).taken).after word) rest ends
    have longer := reads.append (b := '\n') (by decide) ds
    rw [resumed_of_ne_nil ds reads.ne_nil] at taken left
    replace left : (filler (cs ++ '\n' :: ds)).rest = (filler cs).rest ++ '\n' :: ds := left
    rw [List.append_nil] at taken
    rw [← left] at longer
    have whole : (filler cs).taken ++ word ++ (rest ++ ['\n']) = cs ++ ['\n'] := by
      calc (filler cs).taken ++ word ++ (rest ++ ['\n'])
          = (filler cs).taken ++ (word ++ rest) ++ ['\n'] := by simp only [List.append_assoc]
        _ = cs ++ ['\n'] := by rw [reads.joined, joined]
    have place : ((pos.after (filler cs).taken).after word).after (rest ++ ['\n']) =
        pos.after (cs ++ ['\n']) := by
      rw [← Pos.after_append, ← Pos.after_append, ← List.append_assoc, whole]
    obtain ⟨body, stop, same, -, -⟩ := scanFrom_endOnce _ rest ends
    rw [scanFrom_reads pos longer, taken, again, place]
    simp only [Scanned.cons, Scanned.after, same, List.dropLast_concat, ← List.cons_append]
termination_by cs.length

end Script
