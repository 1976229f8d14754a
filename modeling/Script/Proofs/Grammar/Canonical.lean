import Script.Proofs.Grammar.Reading
import Script.Proofs.Grammar.Written
import Script.Proofs.Token.Spelling

/-!
Programs printed. The text that is written of a program, with single spaces between its tokens, is
read as the program again, but for the places.
-/

namespace Script

open Grammar

theorem Kind.token_headD_line (kinds : List Kind) (kind : Kind) :
    ((kinds.map Kind.token).headD kind.token).pos = .start := by
  cases kinds <;> rfl

namespace Grammar

theorem Beside.of_kinds {w : List Token} {next : Token} :
    Beside ((w.map (·.kind)).map Kind.token) next.kind.token w next := by
  induction w with
  | nil => exact .nil rfl
  | cons t rest again =>
      refine .cons rfl (fun later => ?_) again
      rw [Kind.token_headD_line] at later
      exact absurd later (Nat.lt_irrefl _)

end Grammar

namespace Program

variable {p : Program}

theorem Derived.of_written {tokens body : List Token} {stop : Token} (derived : Derived tokens p)
    (kinds : body.map (·.kind) = p.written) (stops : stop.kind = .endOfInput) :
    ∃ q, Derived (body ++ [stop]) q ∧ q.moved .nowhere = p.moved .nowhere := by
  obtain @⟨before, last, _, _, whole⟩ := derived
  have written := whole.written stop.kind.token (by rw [stops]; nofun)
  have beside : Beside (p.written.map Kind.token) stop.kind.token body stop := by
    rw [← kinds]
    exact .of_kinds
  obtain ⟨q, derived, alike⟩ := Statements.like written beside
  refine ⟨q, .mk stops derived, alike.trans ?_⟩
  exact Stmt.movedAll_movedAll p

theorem Derived.mem_named {tokens : List Token} (derived : Derived tokens p)
    (once : Token.EndOnce tokens) {kind : Kind} (named : kind.isNamed) (member : kind ∈ p.written) :
    kind ≠ .endOfInput ∧ ∃ t ∈ tokens, t.kind = kind := by
  obtain @⟨before, last, _, _, whole⟩ := derived
  obtain ⟨body, stop, same, -, inside⟩ := once
  obtain ⟨rfl, -⟩ := List.append_inj' same rfl
  have kept : kind ∈ names p.written := List.mem_filter.mpr ⟨member, named⟩
  have known : names (before.map (·.kind)) = names p.written := whole.names_eq
  rw [← known] at kept
  obtain ⟨t, found, rfl⟩ := List.mem_map.mp (List.mem_filter.mp kept).1
  exact ⟨inside t found, t, List.mem_append_left _ found, rfl⟩

theorem written_spelt {source : String} (reads : Program.read source = .ok p) {kind : Kind}
    (member : kind ∈ p.written) : (∃ word, kind.Spelt word) ∧
      ∀ name, kind = .identifier name →
        Lexeme.Reads name.toList (.identifier name) [] name.toList := by
  obtain ⟨ends, derived⟩ := read_eq_ok_iff.mp reads
  have once : Token.EndOnce (Token.scan source).tokens := Token.scanFrom_endOnce _ _ ends
  have known (named : kind.isNamed) : ∃ word rest ds, Lexeme.Reads word kind rest ds := by
    obtain ⟨inside, t, found, rfl⟩ := derived.mem_named once named member
    exact (Token.scanFrom_kind _ _ t found).resolve_left inside
  cases kind with
  | number x =>
      obtain ⟨word, rest, ds, reads⟩ := known rfl
      obtain ⟨numeral, rfl⟩ := reads.number
      exact ⟨⟨word, .number numeral⟩, nofun⟩
  | identifier name =>
      obtain ⟨word, rest, ds, reads⟩ := known rfl
      refine ⟨⟨_, .identifier name⟩, ?_⟩
      rintro _ ⟨⟩
      exact reads.identifier
  | string s => exact ⟨⟨_, .string (.inl rfl) s⟩, nofun⟩
  | keyword word => exact ⟨⟨_, .keyword word⟩, nofun⟩
  | operator op => exact ⟨⟨_, .operator op⟩, nofun⟩
  | punct mark => exact ⟨⟨_, .punct mark⟩, nofun⟩
  | endOfInput => exact absurd rfl (derived.mem_named once rfl member).1

theorem exists_spelt : ∀ {kinds : List Kind}, (∀ kind ∈ kinds, ∃ word, kind.Spelt word) →
    ∃ words, List.Forall₂ Kind.Spelt kinds words
  | [], _ => ⟨[], .nil⟩
  | kind :: rest, spelt => by
      obtain ⟨word, first⟩ := spelt kind List.mem_cons_self
      obtain ⟨words, others⟩ :=
        exists_spelt fun kind member => spelt kind (List.mem_cons_of_mem _ member)
      exact ⟨word :: words, .cons first others⟩

theorem reads_spelt : ∀ {kinds : List Kind} {words : List String},
    (∀ kind ∈ kinds, ∀ name, kind = .identifier name →
      Lexeme.Reads name.toList (.identifier name) [] name.toList) →
    List.Forall₂ (fun kind word => kind.Spelt word.toList) kinds words →
      List.Forall₂ (fun kind word => Lexeme.Reads word kind [] word) kinds
        (words.map String.toList)
  | _, _, _, .nil => .nil
  | _, _, known, .cons first others =>
      .cons (first.reads (known _ List.mem_cons_self))
        (reads_spelt (fun kind member => known kind (List.mem_cons_of_mem _ member)) others)

/-- A program that a text writes can be printed, and however its numbers are spelt, what is printed
is read as the program again but for its places. -/
theorem read_written {source : String} (reads : Program.read source = .ok p) :
    (∃ words, List.Forall₂ Kind.Spelt p.written words) ∧
      ∀ words : List String,
        List.Forall₂ (fun kind word => kind.Spelt word.toList) p.written words →
          ∃ q, Program.read (" ".intercalate words) = .ok q ∧
            q.moved .nowhere = p.moved .nowhere := by
  refine ⟨exists_spelt fun kind member => (written_spelt reads member).1, fun words spelt => ?_⟩
  have lexemes := reads_spelt (fun kind member => (written_spelt reads member).2) spelt
  obtain ⟨ends, kinds⟩ := Token.scanFrom_spaced lexemes .start
  have text : (" ".intercalate words).toList = [' '].intercalate (words.map String.toList) :=
    String.toList_intercalate
  rw [← text] at ends kinds
  change (Token.scan (" ".intercalate words)).error = none at ends
  change (Token.scan (" ".intercalate words)).tokens.map (·.kind) = _ at kinds
  obtain ⟨body, last, split, bodyKinds, lastKinds⟩ := List.map_eq_append_iff.mp kinds
  obtain ⟨stop, rest, rfl, stops, none⟩ := List.map_eq_cons_iff.mp lastKinds
  rw [List.map_eq_nil_iff] at none
  subst none
  obtain ⟨q, derived, alike⟩ := (read_eq_ok_iff.mp reads).2.of_written bodyKinds stops
  rw [← split] at derived
  exact ⟨q, read_eq_ok_iff.mpr ⟨ends, derived⟩, alike⟩

/-- A difference in parentheses, negated. -/
def negated : Program :=
  [.expr ⟨1, 1⟩ (.unary ⟨1, 1⟩ .neg
    (.binary ⟨1, 4⟩ .sub (.name ⟨1, 3⟩ "y") (.name ⟨1, 5⟩ "y")))]

theorem scan_negated : Token.scan "-(y-y)" =
    ⟨[⟨.operator .minus, "-", ⟨1, 1⟩⟩, ⟨.punct .openParen, "(", ⟨1, 2⟩⟩,
      ⟨.identifier "y", "y", ⟨1, 3⟩⟩, ⟨.operator .minus, "-", ⟨1, 4⟩⟩,
      ⟨.identifier "y", "y", ⟨1, 5⟩⟩, ⟨.punct .closeParen, ")", ⟨1, 6⟩⟩,
      ⟨.endOfInput, "", ⟨1, 7⟩⟩], none⟩ := by
  have sign : Lexeme.Reads ['-'] (.operator .minus) ['(', 'y', '-', 'y', ')']
    ['-', '(', 'y', '-', 'y', ')'] := rfl
  have opening : Lexeme.Reads ['('] (.punct .openParen) ['y', '-', 'y', ')']
    ['(', 'y', '-', 'y', ')'] := rfl
  have left : Lexeme.Reads ['y'] (.identifier "y") ['-', 'y', ')'] ['y', '-', 'y', ')'] := rfl
  have minus : Lexeme.Reads ['-'] (.operator .minus) ['y', ')'] ['-', 'y', ')'] := rfl
  have right : Lexeme.Reads ['y'] (.identifier "y") [')'] ['y', ')'] := rfl
  have closing : Lexeme.Reads [')'] (.punct .closeParen) [] [')'] := rfl
  show Token.scanFrom .start ['-', '(', 'y', '-', 'y', ')'] = _
  rw [Token.scanFrom_lexeme _ rfl (by decide) sign, Token.scanFrom_lexeme _ rfl (by decide) opening,
    Token.scanFrom_lexeme _ rfl (by decide) left, Token.scanFrom_lexeme _ rfl (by decide) minus,
    Token.scanFrom_lexeme _ rfl (by decide) right, Token.scanFrom_lexeme _ rfl (by decide) closing,
    Token.scanFrom_empty]
  rfl

theorem read_negated : Program.read "-(y-y)" = .ok negated := by
  rw [read_eq_ok_iff, scan_negated]
  have difference : Expression [⟨.identifier "y", "y", ⟨1, 3⟩⟩, ⟨.operator .minus, "-", ⟨1, 4⟩⟩,
      ⟨.identifier "y", "y", ⟨1, 5⟩⟩] _ :=
    Chained.mono (.connective (w := [_]) (.mono (.postfixed (.primary (.name rfl))) (Nat.zero_le 2))
      rfl .minus (.mono (.postfixed (.primary (.name rfl))) (Nat.zero_le 1))) (by decide)
  have group : Primary [⟨.punct .openParen, "(", ⟨1, 2⟩⟩, ⟨.identifier "y", "y", ⟨1, 3⟩⟩,
      ⟨.operator .minus, "-", ⟨1, 4⟩⟩, ⟨.identifier "y", "y", ⟨1, 5⟩⟩,
      ⟨.punct .closeParen, ")", ⟨1, 6⟩⟩] _ := .group rfl difference rfl
  have whole := Chained.unary (t := ⟨.operator .minus, "-", ⟨1, 1⟩⟩) .minus
    (.postfixed (.primary group))
  exact ⟨rfl, @Derived.mk (_ :: _) _ _ rfl (.cons
    (.unterminated (.expr (whole.mono (Nat.zero_le _))) (.stop rfl)) .nil)⟩

theorem read_written_negated : Program.read "-(y-y)" = .ok negated ∧
    ∃ q, Program.read (" ".intercalate ["-", "(", "y", "-", "y", ")", ";"]) = .ok q ∧
      q.moved .nowhere = negated.moved .nowhere := by
  refine ⟨read_negated, (read_written read_negated).2 _ ?_⟩
  exact .cons (.operator .minus) (.cons (.punct .openParen) (.cons (.identifier "y")
    (.cons (.operator .minus) (.cons (.identifier "y") (.cons (.punct .closeParen)
      (.cons (.punct .semicolon) .nil))))))

end Program

end Script
