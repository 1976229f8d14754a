import Script.Proofs.Grammar.Completeness
import Script.Proofs.Token.Moved
import Script.Proofs.Tree.Moved

/-!
Programs one after another. A row of tokens may be moved as long as a later line stays later, and
a statement that ends in `;` or `}` may stand before anything but `else`.
-/

namespace Script

theorem Connective.join_moved {f : Pos → Pos} (pos : Pos) (left right : Expr)
    (connective : Connective) :
    (connective.join pos left right).moved f =
      connective.join (f pos) (left.moved f) (right.moved f) := by
  cases connective <;> rfl

namespace Grammar

section Moving

variable {f : Pos → Pos}

mutual

theorem Primary.moved : ∀ {w : List Token} {e : Expr}, Primary w e →
    Primary (w.map (Token.moved f)) (e.moved f)
  | _, _, .literal denotes => .literal denotes
  | _, _, .name identifier => .name identifier
  | _, _, .array opens inside => .array opens inside.moved
  | _, _, .group opens inside closes => by
      rw [List.map_append]
      exact .group opens inside.moved closes

theorem Postfixed.moved : ∀ {w : List Token} {e : Expr}, Postfixed w e →
    Postfixed (w.map (Token.moved f)) (e.moved f)
  | _, _, .primary whole => .primary whole.moved
  | _, _, .member before pointed named => by
      rw [List.map_append]
      exact .member before.moved pointed named
  | _, _, .index before opens inside closes => by
      rw [List.map_append, List.map_append]
      exact .index before.moved opens inside.moved closes
  | _, _, .call before opens inside => by
      rw [List.map_append]
      exact .call before.moved opens inside.moved

theorem Chained.moved : ∀ {level : Nat} {w : List Token} {e : Expr}, Chained level w e →
    Chained level (w.map (Token.moved f)) (e.moved f)
  | _, _, _, .postfixed whole => .postfixed whole.moved
  | _, _, _, .unary leads after => .unary leads after.moved
  | _, _, _, .tighter whole => .tighter whole.moved
  | _, _, _, .connective before operator binds after => by
      rw [List.map_append, Connective.join_moved]
      exact .connective before.moved operator binds after.moved

theorem Items.moved : ∀ {closing : Punct} {w : List Token} {es : List Expr},
    Items closing w es → Items closing (w.map (Token.moved f)) (Expr.movedAll f es)
  | _, _, _, .none closes => .none closes
  | _, _, _, .last one closes => by
      rw [List.map_append]
      exact .last one.moved closes
  | _, _, _, .more one comma others => by
      rw [List.map_append]
      exact .more one.moved comma others.moved

end

theorem Condition.moved {w : List Token} {test : Expr} (derived : Condition w test) :
    Condition (w.map (Token.moved f)) (test.moved f) := by
  cases derived with
  | mk opens inside closes =>
      rw [List.map_append]
      exact .mk opens (Chained.moved inside) closes

theorem Assignable.moved {e : Expr} {target : Target} (assignable : Assignable e target) :
    Assignable (e.moved f) (target.moved f) := by
  cases assignable <;> constructor

theorem Simple.moved {enclosing : Enclosing} {w : List Token} {s : Stmt}
    (derived : Simple enclosing w s) :
    Simple enclosing (w.map (Token.moved f)) (s.moved f) := by
  cases derived with
  | declare declares named changeable =>
      exact .declare declares named changeable
  | define declares named assigns after =>
      exact .define declares named assigns (Chained.moved after)
  | assign before assignable assigns after =>
      rw [List.map_append]
      exact .assign (Chained.moved before) assignable.moved assigns (Chained.moved after)
  | expr whole => exact .expr (Chained.moved whole)
  | «break» is placed => exact .break is placed
  | «continue» is placed => exact .continue is placed

theorem continues_moved (s : Stmt) (kind : Kind) :
    Continues (s.moved f) kind ↔ Continues s kind := by
  cases s with
  | declare pos declared text value? => cases value? <;> rfl
  | «if» pos test yes no => cases no <;> rfl
  | _ => rfl

theorem defaults_moved (clauses : List Clause) :
    defaults (Clause.movedAll f clauses) = defaults clauses := by
  induction clauses with
  | nil => rfl
  | cons clause rest again =>
      obtain ⟨pos, test?, body⟩ := clause
      cases test? with
      | none => simp only [Clause.movedAll, Option.map_none, defaults_default, again]
      | some test => simp only [Clause.movedAll, Option.map_some, defaults_case, again]

theorem headD_moved (w : List Token) (next : Token) :
    (w.map (Token.moved f)).headD (next.moved f) = (w.headD next).moved f := by
  cases w <;> rfl

def KeepsLines (f : Pos → Pos) : Prop := ∀ p q : Pos, p.line < q.line → (f p).line < (f q).line

theorem Ends.moved (keeps : KeepsLines f) {s : Stmt} {w : List Token} {next : Token}
    (ends : Ends s w next) : Ends (s.moved f) (w.map (Token.moved f)) (next.moved f) := by
  cases ends with
  | brace closes => exact .brace closes
  | stop stops => exact .stop stops
  | line ends after apart unmarked =>
      have last := congrArg (Option.map (Token.moved f)) ends
      rw [← List.getLast?_map] at last
      refine .line last (keeps _ _ after) ?_ unmarked
      rw [continues_moved]
      exact apart

mutual

theorem Statement.moved (keeps : KeepsLines f) : ∀ {enclosing : Enclosing} {w : List Token}
    {next : Token} {s : Stmt}, Statement enclosing w next s →
      Statement enclosing (w.map (Token.moved f)) (next.moved f) (s.moved f)
  | _, _, _, _, .terminated whole marked => by
      rw [List.map_append]
      exact .terminated whole.moved marked
  | _, _, _, _, .unterminated whole ends => .unterminated whole.moved (ends.moved keeps)
  | _, _, _, _, .empty marked => .empty marked
  | _, _, _, _, .block opens inside closes => by
      rw [List.map_append]
      exact .block opens (inside.moved keeps) closes
  | _, _, _, _, .if is condition branch alone => by
      rw [List.map_append]
      exact .if is condition.moved (branch.moved keeps) alone
  | _, _, _, _, .ifElse is condition branch otherwise rest => by
      rw [List.map_append, List.map_append]
      exact .ifElse is condition.moved (branch.moved keeps) otherwise (rest.moved keeps)
  | _, _, _, _, .while is condition turn => by
      rw [List.map_append]
      exact .while is condition.moved (turn.moved keeps)
  | _, _, _, _, .switch is condition opens inside closes single => by
      rw [List.map_append, List.map_append]
      exact .switch is condition.moved opens (inside.moved keeps) closes
        (Nat.le_trans (Nat.le_of_eq (defaults_moved _)) single)

theorem Statements.moved (keeps : KeepsLines f) : ∀ {enclosing : Enclosing} {w : List Token}
    {next : Token} {body : List Stmt}, Statements enclosing w next body →
      Statements enclosing (w.map (Token.moved f)) (next.moved f) (Stmt.movedAll f body)
  | _, _, _, _, .nil => .nil
  | _, _, _, _, .cons first others => by
      have begins := first.moved keeps
      rw [List.map_append]
      rw [← headD_moved] at begins
      exact .cons begins (others.moved keeps)

theorem Clauses.moved (keeps : KeepsLines f) : ∀ {enclosing : Enclosing} {w : List Token}
    {next : Token} {clauses : List Clause}, Clauses enclosing w next clauses →
      Clauses enclosing (w.map (Token.moved f)) (next.moved f) (Clause.movedAll f clauses)
  | _, _, _, _, .nil => .nil
  | _, _, _, _, .case is tested divides inside others => by
      have body := inside.moved keeps
      rw [← headD_moved] at body
      rw [List.map_append, List.map_append]
      exact .case is (Chained.moved tested) divides body (others.moved keeps)
  | _, _, _, _, .default is divides inside others => by
      have body := inside.moved keeps
      rw [← headD_moved] at body
      rw [List.map_append]
      exact .default is divides body (others.moved keeps)

end

end Moving

def Tails (kinds : Kind → Prop) (w : List Token) : Prop := ∃ v t, w = v ++ [t] ∧ kinds t.kind

section Closing

theorem Tails.after {kinds : Kind → Prop} {v : List Token} (tails : Tails kinds v)
    (w : List Token) : Tails kinds (w ++ v) := by
  obtain ⟨u, t, rfl, last⟩ := tails
  exact ⟨w ++ u, t, (List.append_assoc _ _ _).symm, last⟩

theorem Tails.unique {kinds others : Kind → Prop} {w : List Token} (tails : Tails kinds w)
    (tails' : Tails others w) : ∃ kind, kinds kind ∧ others kind := by
  obtain ⟨u, t, rfl, last⟩ := tails
  obtain ⟨v, t', same, last'⟩ := tails'
  obtain ⟨-, same⟩ := List.append_inj' same rfl
  cases same
  exact ⟨_, last, last'⟩

def Closes (kind : Kind) : Prop := kind = .punct .semicolon ∨ kind = .punct .closeBrace

theorem Items.tails : ∀ {closing : Punct} {w : List Token} {es : List Expr},
    Items closing w es → Tails (· = .punct closing) w
  | _, _, _, .none closes => ⟨[], _, rfl, closes⟩
  | _, _, _, .last _ closes => ⟨_, _, rfl, closes⟩
  | _, _, _, .more _ _ others => by
      rw [List.append_cons]
      exact others.tails.after _

theorem Tails.mark {mark : Punct} {w : List Token} (tails : Tails (· = .punct mark) w)
    (other : mark ≠ .semicolon := by decide) (brace : mark ≠ .closeBrace := by decide) :
    Tails (¬ Closes ·) w := by
  obtain ⟨v, t, rfl, last⟩ := tails
  refine ⟨v, t, rfl, ?_⟩
  rw [last]
  rintro (same | same)
  · exact other (Kind.punct.inj same)
  · exact brace (Kind.punct.inj same)

theorem Primary.tails {w : List Token} {e : Expr} (derived : Primary w e) :
    Tails (¬ Closes ·) w := by
  cases derived with
  | @literal t _ denotes =>
      refine ⟨[], t, rfl, ?_⟩
      generalize t.kind = kind at denotes
      cases denotes <;> simp [Closes]
  | @name t _ identifier => exact ⟨[], t, rfl, by simp [identifier, Closes]⟩
  | array _ inside => exact inside.tails.mark.after [_]
  | group _ _ closes => exact Tails.mark ⟨_, _, rfl, closes⟩

theorem Postfixed.tails {w : List Token} {e : Expr} (derived : Postfixed w e) :
    Tails (¬ Closes ·) w := by
  cases derived with
  | primary whole => exact whole.tails
  | @member _ _ dot name _ _ _ named =>
      have last : Tails (¬ Closes ·) [dot, name] := ⟨[dot], name, rfl, by simp [named, Closes]⟩
      exact last.after _
  | index _ _ _ closes => exact Tails.mark ⟨_, _, rfl, closes⟩
  | call _ _ inside =>
      rw [List.append_cons]
      exact inside.tails.mark.after _

theorem Chained.tails : ∀ {level : Nat} {w : List Token} {e : Expr}, Chained level w e →
    Tails (¬ Closes ·) w
  | _, _, _, .postfixed whole => whole.tails
  | _, _, _, .unary _ after => after.tails.after [_]
  | _, _, _, .tighter whole => whole.tails
  | _, _, _, .connective _ _ _ after => by
      rw [List.append_cons]
      exact after.tails.after _

theorem Simple.tails {enclosing : Enclosing} {w : List Token} {s : Stmt}
    (derived : Simple enclosing w s) : Tails (¬ Closes ·) w := by
  cases derived with
  | @declare word name _ _ _ named _ => exact ⟨[word], name, rfl, by simp [named, Closes]⟩
  | define _ _ _ after => exact (Chained.tails after).after [_, _, _]
  | assign _ _ _ after =>
      rw [List.append_cons]
      exact (Chained.tails after).after _
  | expr whole => exact Chained.tails whole
  | «break» is _ => exact ⟨[], _, rfl, by simp [is, Closes]⟩
  | «continue» is _ => exact ⟨[], _, rfl, by simp [is, Closes]⟩

theorem Tails.of_append {kinds : Kind → Prop} {v : List Token} (w : List Token)
    (more : v ≠ []) (tails : Tails kinds (w ++ v)) : Tails kinds v := by
  obtain ⟨u, t, same, last⟩ := tails
  obtain ⟨u', t', rfl⟩ : ∃ u' t', v = u' ++ [t'] :=
    ⟨_, _, (List.dropLast_concat_getLast more).symm⟩
  rw [← List.append_assoc] at same
  obtain ⟨-, same⟩ := List.append_inj' same rfl
  cases same
  exact ⟨u', t, rfl, last⟩

theorem Statement.ne_nil {enclosing : Enclosing} {w : List Token} {next : Token} {s : Stmt}
    (derived : Statement enclosing w next s) : w ≠ [] := by
  obtain ⟨t, v, rfl, -⟩ := derived.begins
  simp

/-- Before another token that is no `else` a statement is one as well, if the simple statement
without `;` that it may end in is one there. -/
theorem Statement.before {next' : Token} (apart : next'.kind ≠ .keyword .else) :
    ∀ {enclosing : Enclosing} {w : List Token} {next : Token} {s : Stmt},
      Statement enclosing w next s →
        (∀ {enclosing : Enclosing} {u : List Token} {s : Stmt}, u <:+ w → Simple enclosing u s →
          Statement enclosing u next' s) → Statement enclosing w next' s
  | _, _, _, _, .terminated whole marked, _ => .terminated whole marked
  | _, _, _, _, .unterminated whole _, last => last List.suffix_rfl whole
  | _, _, _, _, .empty marked, _ => .empty marked
  | _, _, _, _, .block opens inside closes, _ => .block opens inside closes
  | _, _, _, _, .if is condition branch _, last =>
      .if is condition (branch.before apart fun ends => last (ends.trans (List.suffix_append _ _)))
        apart
  | _, _, _, _, .ifElse is condition branch otherwise rest, last =>
      .ifElse is condition branch otherwise (rest.before apart fun ends =>
        last (ends.trans ((List.suffix_cons _ _).trans (List.suffix_append _ _))))
  | _, _, _, _, .while is condition turn, last =>
      .while is condition (turn.before apart fun ends =>
        last (ends.trans (List.suffix_append _ _)))
  | _, _, _, _, .switch is condition opens inside closes single, _ =>
      .switch is condition opens inside closes single

theorem Statement.before_of_closes {enclosing : Enclosing} {w : List Token} {next next' : Token}
    {s : Stmt} (derived : Statement enclosing w next s) (apart : next'.kind ≠ .keyword .else)
    (closed : Tails Closes w) : Statement enclosing w next' s := by
  refine derived.before apart fun ends whole => ?_
  obtain ⟨v, rfl⟩ := ends
  obtain ⟨kind, closes, unclosed⟩ := (closed.of_append v whole.ne_nil).unique whole.tails
  exact absurd closes unclosed

theorem Statement.stopped {enclosing : Enclosing} {w : List Token} {next stop : Token} {s : Stmt}
    (derived : Statement enclosing w next s)
    (stops : stop.kind = .punct .closeBrace ∨ stop.kind = .endOfInput) :
    Statement enclosing w stop s := by
  have apart : stop.kind ≠ .keyword .else := by
    rcases stops with same | same <;> simp [same]
  refine derived.before apart fun _ whole => .unterminated whole ?_
  rcases stops with closes | stops
  · exact .brace closes
  · exact .stop stops

theorem Simple.heads {enclosing : Enclosing} {w : List Token} {s : Stmt}
    (derived : Simple enclosing w s) : Heads (· ≠ .keyword .else) w := by
  have expression {kind : Kind} (begins : Begins kind) : kind ≠ .keyword .else :=
    begins.ne_keyword .else (by decide)
  have word {kind : Kind} {declared : DeclKind} (declares : Declares kind declared) :
      kind ≠ .keyword .else := by
    cases declares <;> nofun
  cases derived with
  | declare declares _ _ => exact ⟨_, _, rfl, word declares⟩
  | define declares _ _ _ => exact ⟨_, _, rfl, word declares⟩
  | assign before _ _ _ => exact (Chained.begins before |>.append _).imp fun _ => expression
  | expr whole => exact (Chained.begins whole).imp fun _ => expression
  | «break» is _ => exact ⟨_, _, rfl, by simp [is]⟩
  | «continue» is _ => exact ⟨_, _, rfl, by simp [is]⟩

theorem Statement.heads {enclosing : Enclosing} {w : List Token} {next : Token} {s : Stmt}
    (derived : Statement enclosing w next s) : Heads (· ≠ .keyword .else) w := by
  cases derived with
  | terminated whole _ => exact whole.heads.append _
  | unterminated whole _ => exact whole.heads
  | empty marked => exact ⟨_, _, rfl, by simp [marked]⟩
  | block opens _ _ => exact ⟨_, _, rfl, by simp [opens]⟩
  | «if» is _ _ _ => exact ⟨_, _, rfl, by simp [is]⟩
  | ifElse is _ _ _ _ => exact ⟨_, _, rfl, by simp [is]⟩
  | «while» is _ _ => exact ⟨_, _, rfl, by simp [is]⟩
  | switch is _ _ _ _ _ => exact ⟨_, _, rfl, by simp [is]⟩

theorem Statements.heads {enclosing : Enclosing} {w : List Token} {next : Token}
    {body : List Stmt} (derived : Statements enclosing w next body) (some : body ≠ []) :
    Heads (· ≠ .keyword .else) w := by
  cases derived with
  | nil => exact absurd rfl some
  | cons first others => exact first.heads.append _

theorem Statements.headD_ne_else {enclosing : Enclosing} {w : List Token} {next : Token}
    {body : List Stmt} (derived : Statements enclosing w next body)
    (apart : next.kind ≠ .keyword .else) : (w.headD next).kind ≠ .keyword .else := by
  cases body with
  | nil =>
      cases derived
      exact apart
  | cons s more =>
      obtain ⟨t, v, rfl, other⟩ := derived.heads nofun
      exact other

theorem Statements.append {enclosing : Enclosing} {v : List Token} {next' : Token}
    {more : List Stmt} (others : Statements enclosing v next' more)
    (apart : (v.headD next').kind ≠ .keyword .else) :
    ∀ {w : List Token} {next : Token} {body : List Stmt}, Statements enclosing w next body →
      (w ≠ [] → Tails Closes w) → Statements enclosing (w ++ v) next' (body ++ more)
  | _, _, _, .nil, _ => others
  | _, _, _, .cons (w := w) (v := u) first rest, closed => by
      have whole := closed (by simp [first.ne_nil])
      rw [List.append_assoc]
      refine .cons ?_ (others.append apart rest fun more => whole.of_append _ more)
      cases u with
      | nil =>
          rw [List.append_nil] at whole
          exact first.before_of_closes apart whole
      | cons t u => exact first

end Closing

end Grammar

end Script
