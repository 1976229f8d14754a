import Mathlib
import Script.Proofs.Grammar.Reading
import Script.Proofs.Grammar.Written
import Script.Proofs.Run.Effects
import Script.Proofs.Run.Joined
import Script.Proofs.Value.Legible

/-!
Values read back. The text that a legible value is shown as is a program that makes the value again.
-/

namespace Script

open Grammar

variable {h : Heap} {v : Value}

namespace Value

theorem Same.extended {m : Machine} {v' : Value} (same : Same h m.heap v v')
    (lines : Array String) (fresh : Array (Array Value)) :
    Same h (m.extended lines fresh).heap v v' := by
  induction same with
  | scalar single => exact .scalar single
  | array known known' length items again =>
      have kept := m.items_extended lines fresh known'
      have larger : m.heap.size ≤ (m.extended lines fresh).heap.size := by
        simp [Machine.extended, Heap.size]
      rw [← kept] at length again
      exact .array known (Nat.lt_of_lt_of_le known' larger) length again

end Value

namespace Machine

theorem extended_extended (m : Machine) (made more : Array (Array Value)) :
    (m.extended #[] made).extended #[] more = m.extended #[] (made ++ more) := by
  simp [extended]

end Machine

namespace Expr

/-- Wherever it is evaluated, the expression has a value that looks like `v`, and all that it does
is to make arrays. -/
def Makes (h : Heap) (e : Expr) (v : Value) : Prop :=
  ∀ m : Machine, ∃ v' fresh, e.eval m = .ok v' (m.extended #[] fresh) ∧
    Value.Same h (m.extended #[] fresh).heap v v'

theorem makes_literal (pos : Pos) (value : Literal) :
    Makes h (.literal pos value) value.toValue := by
  intro m
  refine ⟨value.toValue, #[], ?_, .scalar ?_⟩
  · rw [m.extended_empty, eval]
    rfl
  · cases value <;> rfl

theorem makes_negative (pos pos' : Pos) (x : Number) :
    Makes h (.unary pos .neg (.literal pos' (.number x))) (.number (-x)) := by
  intro m
  refine ⟨.number (-x), #[], ?_, .scalar rfl⟩
  rw [m.extended_empty, eval, eval]
  rfl

theorem evalAll_makes {es : List Expr} {vs : List Value} (makes : List.Forall₂ (Makes h) es vs) :
    ∀ m : Machine, ∃ vs' fresh, evalAll es m = .ok vs' (m.extended #[] fresh) ∧
      List.Forall₂ (Value.Same h (m.extended #[] fresh).heap) vs vs' := by
  induction makes with
  | nil =>
      intro m
      refine ⟨[], #[], ?_, .nil⟩
      rw [m.extended_empty, evalAll]
      rfl
  | @cons e v es vs first others again =>
      intro m
      obtain ⟨v', made, ran, same⟩ := first m
      obtain ⟨vs', more, ranAll, alike⟩ := again (m.extended #[] made)
      rw [m.extended_extended] at ranAll alike
      refine ⟨v' :: vs', made ++ more, ?_, .cons ?_ alike⟩
      · rw [evalAll, Run.bind_ok ran, Run.bind_ok ranAll]
        rfl
      · rw [← m.extended_extended]
        exact same.extended #[] more

theorem makes_array (pos : Pos) {es : List Expr} {ref : Ref} (known : ref < h.size)
    (makes : List.Forall₂ (Makes h) es (h.items ref).toList) :
    Makes h (.array pos es) (.array ref) := by
  intro m
  obtain ⟨vs', fresh, ran, alike⟩ := evalAll_makes makes m
  have made : (m.extended #[] (fresh.push vs'.toArray)).heap =
      ((m.extended #[] fresh).heap.alloc vs'.toArray).2 := by
    rw [← m.alloc_extended]
  have items : (m.extended #[] (fresh.push vs'.toArray)).heap.items
      (m.extended #[] fresh).heap.size = vs'.toArray := by
    rw [made]
    exact Heap.items_alloc_self _ _
  refine ⟨.array (m.extended #[] fresh).heap.size, fresh.push vs'.toArray, ?_, ?_⟩
  · rw [eval, Run.bind_ok ran, ← m.alloc_extended]
    rfl
  · rw [List.forall₂_iff_zip] at alike
    refine .array known ?_ ?_ ?_
    · rw [made, Heap.size_alloc]
      exact Nat.lt_succ_self _
    · rw [items]
      exact alike.1
    · rw [items]
      intro pair member
      have kept := (alike.2 member).extended #[] #[vs'.toArray]
      rwa [m.extended_extended] at kept

end Expr

theorem Scanned.cons_after (s : Scanned) (t : Token) (w : List Token) :
    (s.cons t).after w = s.after (w ++ [t]) := by
  simp [after, cons]

theorem Scanned.after_after (s : Scanned) (v w : List Token) :
    (s.after v).after w = s.after (w ++ v) := by
  simp [after]

/-- Before what goes on with no lexeme, the text is the tokens of an expression that makes the
value. -/
def Shows (h : Heap) (text : List Char) (v : Value) : Prop :=
  ∀ pos more, Lexeme.Apart more → ∃ w e pos',
    Token.scanFrom pos (text ++ more) = (Token.scanFrom pos' more).after w ∧
      Expression w e ∧ e.Makes h v

def ShowsItems (h : Heap) (text : List Char) (vs : List Value) : Prop :=
  ∀ pos more, ∃ w es pos',
    Token.scanFrom pos (text ++ more) = (Token.scanFrom pos' more).after w ∧
      Items .closeBracket w es ∧ List.Forall₂ (Expr.Makes h) es vs

namespace Shows

variable {word : List Char}

theorem literal {kind : Kind} {value : Literal} (reads : Lexeme.Reads word kind [] word)
    (denotes : Denotes kind value) : Shows h word value.toValue := by
  intro pos more apart
  refine ⟨[_], .literal pos value, _, Token.scanFrom_alone pos reads apart, ?_,
    Expr.makes_literal pos value⟩
  exact .mono (.postfixed (.primary (.literal denotes))) (Nat.zero_le _)

theorem negative (numeral : Lexeme.Numeral word) :
    Shows h ('-' :: word) (.number (-Lexeme.numberValue word)) := by
  intro pos more apart
  have sign : Lexeme.Reads ['-'] (.operator .minus) (word ++ more) ('-' :: (word ++ more)) := rfl
  have scanned : Token.scanFrom pos ('-' :: word ++ more) =
      (Token.scanFrom ((pos.after ['-']).after word) more).after
        [⟨.operator .minus, String.ofList ['-'], pos⟩,
          ⟨.number (Lexeme.numberValue word), String.ofList word, pos.after ['-']⟩] := by
    rw [List.cons_append, Token.scanFrom_lexeme pos rfl (by decide) sign,
      Token.scanFrom_alone _ numeral.reads apart]
    rfl
  refine ⟨_, _, _, scanned, ?_, Expr.makes_negative pos (pos.after ['-']) _⟩
  exact .mono (.unary .minus (.postfixed (.primary (.literal (.number _))))) (Nat.zero_le _)

theorem array {text : List Char} {ref : Ref} (known : ref < h.size)
    (items : ShowsItems h text (h.items ref).toList) : Shows h ('[' :: text) (.array ref) := by
  intro pos more _
  have opening : Lexeme.Reads ['['] (.punct .openBracket) (text ++ more) ('[' :: (text ++ more)) :=
    rfl
  obtain ⟨w, es, pos', scanned, derived, makes⟩ := items (pos.after ['[']) more
  have whole := Token.scanFrom_lexeme pos rfl (by decide) opening
  rw [scanned] at whole
  refine ⟨_ :: w, .array pos es, pos', whole, ?_, Expr.makes_array pos known makes⟩
  exact .mono (.postfixed (.primary (.array rfl derived))) (Nat.zero_le _)

end Shows

namespace ShowsItems

theorem none : ShowsItems h [']'] [] := by
  intro pos more
  have closing : Lexeme.Reads [']'] (.punct .closeBracket) more (']' :: more) := rfl
  have scanned := Token.scanFrom_lexeme pos rfl (by decide) closing
  exact ⟨[_], [], _, scanned, .none rfl, .nil⟩

theorem last {text : List Char} (shows : Shows h text v) :
    ShowsItems h (text ++ [' ', ']']) [v] := by
  intro pos more
  have apart : Lexeme.Apart (' ' :: ']' :: more) := by
    rintro b ⟨⟩
    decide
  have closing : Lexeme.Reads [']'] (.punct .closeBracket) more (']' :: more) := rfl
  obtain ⟨w, e, pos', scanned, derived, makes⟩ := shows pos _ apart
  rw [Token.scanFrom_space, Token.scanFrom_lexeme _ rfl (by decide) closing,
    Scanned.cons_after] at scanned
  rw [List.append_assoc]
  exact ⟨_, [e], _, scanned, .last derived rfl, .cons makes .nil⟩

theorem more {text others : List Char} {vs : List Value} (shows : Shows h text v)
    (items : ShowsItems h others vs) : ShowsItems h (text ++ ',' :: ' ' :: others) (v :: vs) := by
  intro pos more
  have apart : Lexeme.Apart (',' :: ' ' :: (others ++ more)) := by
    rintro b ⟨⟩
    decide
  have comma : Lexeme.Reads [','] (.punct .comma) (' ' :: (others ++ more))
    (',' :: ' ' :: (others ++ more)) := rfl
  obtain ⟨w, e, pos', scanned, derived, makes⟩ := shows pos _ apart
  obtain ⟨u, es, pos'', later, derivedAll, makesAll⟩ := items ((pos'.after [',']).next ' ') more
  rw [Token.scanFrom_lexeme _ rfl (by decide) comma, Token.scanFrom_space, later,
    Scanned.cons_after, Scanned.after_after] at scanned
  rw [List.append_assoc]
  refine ⟨_, e :: es, pos'', scanned, ?_, .cons makes makesAll⟩
  rw [List.append_assoc]
  exact .more derived rfl derivedAll

theorem space {text : List Char} {vs : List Value} (items : ShowsItems h text vs) :
    ShowsItems h (' ' :: text) vs := by
  intro pos more
  rw [List.cons_append, Token.scanFrom_space]
  exact items (pos.next ' ') more

theorem intercalate {write : Value → List Char} : ∀ {v : Value} {vs : List Value},
    (∀ u ∈ v :: vs, Shows h (write u) u) →
      ShowsItems h ([',', ' '].intercalate ((v :: vs).map write) ++ [' ', ']']) (v :: vs)
  | v, [], shows => by
      rw [List.map_singleton, List.intercalate_singleton]
      exact last (shows v List.mem_cons_self)
  | v, u :: vs, shows => by
      have others := intercalate fun u member => shows u (List.mem_cons_of_mem v member)
      have items := more (shows v List.mem_cons_self) others
      rw [List.map_cons, List.map_cons, List.intercalate_cons_cons, List.append_assoc,
        List.append_assoc]
      exact items

end ShowsItems

theorem Value.around_toList (v : Value) (vs : List Value) (write : Value → String) :
    (inspectStyle.around ((v :: vs).map write)).toList =
      '[' :: ' ' :: ([',', ' '].intercalate ((v :: vs).map fun u => (write u).toList) ++
        [' ', ']']) := by
  show ("[ " ++ ", ".intercalate ((v :: vs).map write) ++ " ]").toList = _
  rw [String.toList_append, String.toList_append, String.toList_intercalate, List.map_map]
  rfl

theorem Value.HasLiteral.shows (literal : v.HasLiteral) : Shows h (v.inspectItem h).toList v := by
  rw [inspectItem, Style.write_scalar literal.single]
  cases v with
  | boolean b =>
      cases b with
      | true => exact .literal (Lexeme.reads_keyword .true) .true
      | false => exact .literal (Lexeme.reads_keyword .false) .false
  | undefined => exact .literal (Lexeme.reads_keyword .undefined) .undefined
  | null => exact .literal (Lexeme.reads_keyword .null) .null
  | number x =>
      obtain ⟨word, writes, text⟩ := Number.Plain.display_eq literal
      have value := Number.value_of_writes literal.finite writes
      show Shows h x.display.toList _
      rw [text, minus]
      split at value
      · next negative =>
          rw [if_pos negative, ← value]
          exact .negative writes.1
      · next positive =>
          have shows : Shows h word _ := .literal writes.1.reads (.number _)
          rwa [if_neg positive, List.nil_append, ← value]
  | string s =>
      have reads := Text.reads_quoted literal
      rw [String.ofList_toList] at reads
      show Shows h (Text.quote s).toList _
      rw [Text.quote, String.toList_ofList]
      exact .literal reads (.string s)
  | array | function | library => exact literal.elim

theorem Value.Grounded.shows (grounded : v.Grounded h) : Shows h (v.inspectItem h).toList v := by
  induction grounded with
  | scalar literal => exact literal.shows
  | @array ref known items again =>
      rw [(Grounded.array known items).inspectItem_array]
      generalize listed : (h.items ref).toList = vs at again
      cases vs with
      | nil =>
          have none : ShowsItems h [']'] (h.items ref).toList := by
            rw [listed]
            exact .none
          have text : (inspectStyle.around (([] : List Value).map (inspectItem h))).toList =
              ['[', ']'] := by simp [inspectStyle]
          rw [text]
          exact .array known none
      | cons v vs =>
          rw [around_toList]
          apply Shows.array known
          rw [listed]
          exact .space (.intercalate again)

theorem Shows.read {text : String} (shows : Shows h text.toList v) :
    ∃ pos e, Program.read text = .ok [.expr pos e] ∧ e.Makes h v := by
  obtain ⟨w, e, pos', scanned, derived, makes⟩ := shows .start [] nofun
  rw [List.append_nil, Token.scanFrom_empty] at scanned
  change Token.scan text = _ at scanned
  obtain ⟨first, rest, rfl, -⟩ := derived.begins
  refine ⟨first.pos, e, ?_, makes⟩
  rw [Program.read_eq_ok_iff, scanned]
  refine ⟨rfl, .mk rfl ?_⟩
  rw [← List.append_nil (first :: rest)]
  exact .cons (.unterminated (.expr derived) (.stop rfl)) .nil

theorem Expr.Makes.runs {e : Expr} (makes : e.Makes h v) (fuel : Nat) (pos : Pos) (m : Machine) :
    ∃ m', Program.run fuel [.expr pos e] m = .ok () m' ∧ m'.output = m.output ∧
      Value.Same h m'.heap v m'.last := by
  let event := Event.statement pos.line (Stmt.expr pos e).type
  obtain ⟨v', fresh, ran, same⟩ := makes { m with last := .undefined, trace := m.trace.push event }
  let after := Machine.extended { m with last := .undefined, trace := m.trace.push event } #[] fresh
  have steps : Stmt.exec fuel (.expr pos e) { m with last := .undefined } =
      .ok .normal { after with last := v' } := by
    have noted : Run.note event { m with last := .undefined } =
        .ok () { m with last := .undefined, trace := m.trace.push event } := rfl
    rw [Stmt.exec]
    refine (Run.bind_ok noted _).trans ?_
    rw [Run.bind_ok ran]
    rfl
  have cleared : (modify fun m => { m with last := .undefined } : Run Unit) m =
      .ok () { m with last := .undefined } := rfl
  refine ⟨{ after with last := v' }, ?_, ?_, same⟩
  · rw [Program.run, Run.bind_ok cleared, Run.bind_ok steps]
    rfl
  · exact Array.append_empty

/-- The text that a legible value is shown as runs on any machine without an error, prints nothing
and comes to a value that looks the same. -/
theorem Machine.runSource_inspectItem (legible : v.Legible h) (m : Machine) (limit : Int) :
    ∃ m', (m.ready limit).runSource (v.inspectItem h) = (m', none) ∧ m'.output = #[] ∧
      Value.Same h m'.heap v m'.last := by
  obtain ⟨pos, e, reads, makes⟩ := (Value.legible_iff_grounded.mp legible).shows.read
  obtain ⟨m', ran, silent, same⟩ := makes.runs (m.ready limit).turns.fuel pos (m.ready limit)
  refine ⟨m', ?_, silent, same⟩
  rw [runSource, runSourceWithin_of_read _ reads, ran]
  rfl

namespace Machine

/-- An array that stands in another one twice. -/
def twice : Heap := ⟨#[#[.number (-1), .string "it's"], #[.array 0, .array 0]]⟩

theorem grounded_pair : Value.Grounded twice (.array 0) := by
  refine .array (by decide) fun v member => ?_
  have known : v = .number (-1) ∨ v = .string "it's" := by simpa [twice, Heap.items] using member
  rcases known with rfl | rfl
  · exact .scalar ⟨rfl, .inr (by decide)⟩
  · refine .scalar fun c inside => .inl ?_
    have printable : "it's".toList.all Text.isPrintable := by decide
    exact List.all_eq_true.mp printable c inside

theorem grounded_twice : Value.Grounded twice (.array 1) := by
  refine .array (by decide) fun v member => ?_
  have known : v = .array 0 := by simpa [twice, Heap.items] using member
  rw [known]
  exact grounded_pair

theorem inspectItem_twice :
    Value.inspectItem twice (.array 1) = "[ [ -1, \"it's\" ], [ -1, \"it's\" ] ]" := by
  have scalar {v : Value} (single : v.isArray = false) :
      Value.inspectItem twice v = Value.inspectStyle.leaf v := Style.write_scalar single
  have digits : (-1 : Number).display = "-1" := by decide +kernel
  have number (x : Number) : Value.inspectItem twice (.number x) = x.display := scalar rfl
  have string : Value.inspectItem twice (.string "it's") = "\"it's\"" := scalar rfl
  have pair : Value.inspectItem twice (.array 0) = Value.inspectStyle.around
      [Value.inspectItem twice (.number (-1)), Value.inspectItem twice (.string "it's")] :=
    grounded_pair.inspectItem_array
  have both : Value.inspectItem twice (.array 1) = Value.inspectStyle.around
      [Value.inspectItem twice (.array 0), Value.inspectItem twice (.array 0)] :=
    grounded_twice.inspectItem_array
  rw [both, pair, number, digits, string]
  rfl

theorem runSource_inspectItem_twice :
    Value.inspectItem twice (.array 1) = "[ [ -1, \"it's\" ], [ -1, \"it's\" ] ]" ∧
      ∃ m', (start.ready 0).runSource "[ [ -1, \"it's\" ], [ -1, \"it's\" ] ]" = (m', none) ∧
        m'.output = #[] ∧ Value.Same twice m'.heap (.array 1) m'.last := by
  refine ⟨inspectItem_twice, ?_⟩
  rw [← inspectItem_twice]
  exact runSource_inspectItem (Value.legible_iff_grounded.mpr grounded_twice) start 0

end Machine

end Script
