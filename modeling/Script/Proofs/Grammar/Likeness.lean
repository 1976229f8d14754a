import Script.Proofs.Grammar.Joining

/-!
Rows of tokens of the same kinds. They derive the same trees but for the places of the nodes, if
wherever a token of the one row stands on a later line than the token before it, so does that of the
other row.
-/

namespace Script.Grammar

/-- The second row, with the token after it, is like the first. -/
inductive Beside : List Token → Token → List Token → Token → Prop
  | nil {next next' : Token} (same : next'.kind = next.kind) : Beside [] next [] next'
  | cons {t t' next next' : Token} {w w' : List Token} (same : t'.kind = t.kind)
      (later : t.pos.line < (w.headD next).pos.line → t'.pos.line < (w'.headD next').pos.line)
      (rest : Beside w next w' next') : Beside (t :: w) next (t' :: w') next'

namespace Beside

variable {t next next' : Token} {w v w' : List Token}

theorem headD (beside : Beside w next w' next') :
    (w'.headD next').kind = (w.headD next).kind := by
  cases beside with
  | nil same => exact same
  | cons same _ _ => exact same

theorem after (beside : Beside w next w' next') : next'.kind = next.kind := by
  induction beside with
  | nil same => exact same
  | cons _ _ _ again => exact again

theorem single (beside : Beside [t] next w' next') : ∃ t', w' = [t'] ∧ t'.kind = t.kind := by
  cases beside with
  | cons same _ rest =>
      cases rest
      exact ⟨_, rfl, same⟩

theorem split (beside : Beside (w ++ v) next w' next') :
    ∃ u u', w' = u ++ u' ∧ Beside w (v.headD next) u (u'.headD next') ∧
      Beside v next u' next' := by
  induction w generalizing w' with
  | nil => exact ⟨[], w', rfl, .nil beside.headD, beside⟩
  | cons t w again =>
      cases beside with
      | cons same later rest =>
          obtain ⟨u, u', rfl, first, second⟩ := again rest
          refine ⟨_ :: u, u', rfl, .cons same ?_ first, second⟩
          intro before
          cases first with
          | nil => exact later before
          | cons => exact later before

theorem getLast? (beside : Beside w next w' next') {last : Token} (ends : w.getLast? = some last) :
    ∃ last', w'.getLast? = some last' ∧
      (last.pos.line < next.pos.line → last'.pos.line < next'.pos.line) := by
  induction beside with
  | nil => cases ends
  | @cons t t' next next' w w' same later rest again =>
      cases rest with
      | nil =>
          cases ends
          exact ⟨t', rfl, later⟩
      | cons => exact again ends

end Beside

section Likeness

variable {enclosing : Enclosing} {next next' : Token} {w w' : List Token}

mutual

theorem Primary.like : ∀ {w : List Token} {e : Expr}, Primary w e →
    ∀ {next next' : Token} {w' : List Token}, Beside w next w' next' →
      ∃ e', Primary w' e' ∧ e'.moved .nowhere = e.moved .nowhere
  | _, _, .literal denotes, _, _, _, beside => by
      obtain ⟨t', rfl, same⟩ := beside.single
      rw [← same] at denotes
      exact ⟨_, .literal denotes, rfl⟩
  | _, _, .name identifier, _, _, _, beside => by
      obtain ⟨t', rfl, same⟩ := beside.single
      exact ⟨_, .name (same.trans identifier), rfl⟩
  | _, _, .array opens inside, _, _, _, beside => by
      cases beside with
      | cons same _ rest =>
          obtain ⟨elements, inside', alike⟩ := inside.like rest
          exact ⟨_, .array (same.trans opens) inside', congrArg (Expr.array _) alike⟩
  | _, _, .group opens inside closes, _, _, _, beside => by
      cases beside with
      | cons same _ rest =>
          obtain ⟨u, u', rfl, first, second⟩ := rest.split
          obtain ⟨closing', rfl, same'⟩ := second.single
          obtain ⟨e', inside', alike⟩ := inside.like first
          exact ⟨e', .group (same.trans opens) inside' (same'.trans closes), alike⟩

theorem Postfixed.like : ∀ {w : List Token} {e : Expr}, Postfixed w e →
    ∀ {next next' : Token} {w' : List Token}, Beside w next w' next' →
      ∃ e', Postfixed w' e' ∧ e'.moved .nowhere = e.moved .nowhere
  | _, _, .primary whole, _, _, _, beside => by
      obtain ⟨e', whole', alike⟩ := whole.like beside
      exact ⟨e', .primary whole', alike⟩
  | _, _, .member before pointed named, _, _, _, beside => by
      obtain ⟨u, u', rfl, first, second⟩ := beside.split
      obtain ⟨object', before', alike⟩ := before.like first
      cases second with
      | cons same _ rest =>
          obtain ⟨name', rfl, same'⟩ := rest.single
          refine ⟨_, .member before' (same.trans pointed) (same'.trans named), ?_⟩
          simp only [Expr.moved, alike, Pos.nowhere]
  | _, _, .index before opens inside closes, _, _, _, beside => by
      rw [List.append_assoc] at beside
      obtain ⟨u, u', rfl, first, second⟩ := beside.split
      obtain ⟨object', before', alike⟩ := before.like first
      cases second with
      | cons same _ rest =>
          obtain ⟨v, v', rfl, inner, last⟩ := rest.split
          obtain ⟨closing', rfl, same'⟩ := last.single
          obtain ⟨position', inside', alike'⟩ := inside.like inner
          have derived := Postfixed.index before' (same.trans opens) inside' (same'.trans closes)
          rw [List.append_assoc] at derived
          refine ⟨_, derived, ?_⟩
          simp only [Expr.moved, alike, alike', Pos.nowhere]
  | _, _, .call before opens inside, _, _, _, beside => by
      obtain ⟨u, u', rfl, first, second⟩ := beside.split
      obtain ⟨callee', before', alike⟩ := before.like first
      cases second with
      | cons same _ rest =>
          obtain ⟨arguments', inside', alike'⟩ := inside.like rest
          refine ⟨_, .call before' (same.trans opens) inside', ?_⟩
          simp only [Expr.moved, alike, alike', Pos.nowhere]

theorem Chained.like : ∀ {level : Nat} {w : List Token} {e : Expr}, Chained level w e →
    ∀ {next next' : Token} {w' : List Token}, Beside w next w' next' →
      ∃ e', Chained level w' e' ∧ e'.moved .nowhere = e.moved .nowhere
  | _, _, _, .postfixed whole, _, _, _, beside => by
      obtain ⟨e', whole', alike⟩ := whole.like beside
      exact ⟨e', .postfixed whole', alike⟩
  | _, _, _, .unary leads after, _, _, _, beside => by
      cases beside with
      | cons same _ rest =>
          obtain ⟨operand', after', alike⟩ := after.like rest
          rw [← same] at leads
          refine ⟨_, .unary leads after', ?_⟩
          simp only [Expr.moved, alike, Pos.nowhere]
  | _, _, _, .tighter whole, _, _, _, beside => by
      obtain ⟨e', whole', alike⟩ := whole.like beside
      exact ⟨e', .tighter whole', alike⟩
  | _, _, _, .connective before operator binds after, _, _, _, beside => by
      obtain ⟨u, u', rfl, first, second⟩ := beside.split
      obtain ⟨left', before', alike⟩ := before.like first
      cases second with
      | cons same _ rest =>
          obtain ⟨right', after', alike'⟩ := after.like rest
          refine ⟨_, .connective before' (same.trans operator) binds after', ?_⟩
          simp only [Connective.join_moved, alike, alike', Pos.nowhere]

theorem Items.like : ∀ {closing : Punct} {w : List Token} {es : List Expr}, Items closing w es →
    ∀ {next next' : Token} {w' : List Token}, Beside w next w' next' →
      ∃ es', Items closing w' es' ∧ Expr.movedAll .nowhere es' = Expr.movedAll .nowhere es
  | _, _, _, .none closes, _, _, _, beside => by
      obtain ⟨t', rfl, same⟩ := beside.single
      exact ⟨[], .none (same.trans closes), rfl⟩
  | _, _, _, .last one closes, _, _, _, beside => by
      obtain ⟨u, u', rfl, first, second⟩ := beside.split
      obtain ⟨t', rfl, same⟩ := second.single
      obtain ⟨item', one', alike⟩ := one.like first
      refine ⟨[item'], .last one' (same.trans closes), ?_⟩
      simp only [Expr.movedAll, alike]
  | _, _, _, .more one comma others, _, _, _, beside => by
      obtain ⟨u, u', rfl, first, second⟩ := beside.split
      obtain ⟨item', one', alike⟩ := one.like first
      cases second with
      | cons same _ rest =>
          obtain ⟨items', others', alike'⟩ := others.like rest
          refine ⟨item' :: items', .more one' (same.trans comma) others', ?_⟩
          simp only [Expr.movedAll, alike, alike']

end

theorem Condition.like {test : Expr} (derived : Condition w test)
    (beside : Beside w next w' next') :
    ∃ test', Condition w' test' ∧ test'.moved .nowhere = test.moved .nowhere := by
  cases derived with
  | mk opens inside closes =>
      cases beside with
      | cons same _ rest =>
          obtain ⟨u, u', rfl, first, second⟩ := rest.split
          obtain ⟨closing', rfl, same'⟩ := second.single
          obtain ⟨test', inside', alike⟩ := Chained.like inside first
          exact ⟨test', .mk (same.trans opens) inside' (same'.trans closes), alike⟩

theorem Assignable.like {e e' : Expr} {target : Target} (assignable : Assignable e target)
    (alike : e'.moved .nowhere = e.moved .nowhere) :
    ∃ target', Assignable e' target' ∧ target'.moved .nowhere = target.moved .nowhere := by
  cases assignable with
  | name pos text =>
      cases e' <;> cases alike
      exact ⟨_, .name _ _, rfl⟩
  | index pos object position =>
      cases e' with
      | index pos' object' position' =>
          refine ⟨_, .index pos' object' position', ?_⟩
          injection alike with _ objects positions
          simp only [Target.moved, objects, positions, Pos.nowhere]
      | _ => cases alike

theorem Simple.like {s : Stmt} (derived : Simple enclosing w s) (beside : Beside w next w' next') :
    ∃ s', Simple enclosing w' s' ∧ s'.moved .nowhere = s.moved .nowhere := by
  cases derived with
  | declare declares named changeable =>
      cases beside with
      | cons same _ rest =>
          obtain ⟨name', rfl, same'⟩ := rest.single
          rw [← same] at declares
          exact ⟨_, .declare declares (same'.trans named) changeable, rfl⟩
  | define declares named assigns after =>
      cases beside with
      | cons same _ rest =>
          cases rest with
          | cons same' _ rest =>
              cases rest with
              | cons same'' _ rest =>
                  obtain ⟨value', after', alike⟩ := Chained.like after rest
                  rw [← same] at declares
                  refine ⟨_, .define declares (same'.trans named) (same''.trans assigns) after', ?_⟩
                  simp only [Stmt.moved, Option.map_some, alike, Pos.nowhere]
  | assign before assignable assigns after =>
      obtain ⟨u, u', rfl, first, second⟩ := beside.split
      obtain ⟨left', before', alike⟩ := Chained.like before first
      obtain ⟨target', assignable', alikeTarget⟩ := assignable.like alike
      cases first with
      | cons =>
          cases second with
          | cons same _ rest =>
              obtain ⟨value', after', alike'⟩ := Chained.like after rest
              refine ⟨_, .assign before' assignable' (same.trans assigns) after', ?_⟩
              simp only [Stmt.moved, alikeTarget, alike', Pos.nowhere]
  | expr whole =>
      obtain ⟨value', whole', alike⟩ := Chained.like whole beside
      cases beside with
      | cons =>
          refine ⟨_, .expr whole', ?_⟩
          simp only [Stmt.moved, alike, Pos.nowhere]
  | «break» is placed =>
      obtain ⟨word', rfl, same⟩ := beside.single
      exact ⟨_, .break (same.trans is) placed, rfl⟩
  | «continue» is placed =>
      obtain ⟨word', rfl, same⟩ := beside.single
      exact ⟨_, .continue (same.trans is) placed, rfl⟩

theorem Ends.like {s s' : Stmt} (ends : Ends s w next) (beside : Beside w next w' next')
    (alike : s'.moved .nowhere = s.moved .nowhere) : Ends s' w' next' := by
  have same := beside.after
  cases ends with
  | brace closes => exact .brace (same.trans closes)
  | stop stops => exact .stop (same.trans stops)
  | line ends later apart unmarked =>
      obtain ⟨last', ends', kept⟩ := beside.getLast? ends
      rw [← same] at unmarked
      refine .line ends' (kept later) ?_ unmarked
      rw [same, ← continues_moved (f := .nowhere), alike, continues_moved]
      exact apart

theorem defaults_like {clauses clauses' : List Clause}
    (alike : Clause.movedAll .nowhere clauses' = Clause.movedAll .nowhere clauses) :
    defaults clauses' = defaults clauses := by
  rw [← defaults_moved (f := .nowhere), alike, defaults_moved]

mutual

theorem Statement.like : ∀ {enclosing : Enclosing} {w : List Token} {next : Token} {s : Stmt},
    Statement enclosing w next s → ∀ {next' : Token} {w' : List Token}, Beside w next w' next' →
      ∃ s', Statement enclosing w' next' s' ∧ s'.moved .nowhere = s.moved .nowhere
  | _, _, _, _, .terminated whole marked, _, _, beside => by
      obtain ⟨u, u', rfl, first, second⟩ := beside.split
      obtain ⟨mark', rfl, same⟩ := second.single
      obtain ⟨s', whole', alike⟩ := whole.like first
      exact ⟨s', .terminated whole' (same.trans marked), alike⟩
  | _, _, _, _, .unterminated whole ends, _, _, beside => by
      obtain ⟨s', whole', alike⟩ := whole.like beside
      exact ⟨s', .unterminated whole' (ends.like beside alike), alike⟩
  | _, _, _, _, .empty marked, _, _, beside => by
      obtain ⟨mark', rfl, same⟩ := beside.single
      exact ⟨_, .empty (same.trans marked), rfl⟩
  | _, _, _, _, .block opens inside closes, _, _, beside => by
      cases beside with
      | cons same _ rest =>
          obtain ⟨u, u', rfl, first, second⟩ := rest.split
          obtain ⟨closing', rfl, same'⟩ := second.single
          obtain ⟨body', inside', alike⟩ := inside.like first
          refine ⟨_, .block (same.trans opens) inside' (same'.trans closes), ?_⟩
          simp only [Stmt.moved, alike, Pos.nowhere]
  | _, _, _, _, .if is condition branch alone, _, _, beside => by
      cases beside with
      | cons same _ rest =>
          obtain ⟨u, u', rfl, first, second⟩ := rest.split
          obtain ⟨test', condition', alike⟩ := condition.like first
          obtain ⟨yes', branch', alike'⟩ := branch.like second
          rw [← second.after] at alone
          refine ⟨_, .if (same.trans is) condition' branch' alone, ?_⟩
          simp only [Stmt.moved, alike, alike', Pos.nowhere]
  | _, _, _, _, .ifElse is condition branch otherwise rest, _, _, beside => by
      rw [List.append_assoc] at beside
      cases beside with
      | cons same _ others =>
          obtain ⟨u, u', rfl, first, second⟩ := others.split
          obtain ⟨v, v', rfl, third, fourth⟩ := second.split
          cases fourth with
          | cons same' _ last =>
              obtain ⟨test', condition', alike⟩ := condition.like first
              obtain ⟨yes', branch', alike'⟩ := branch.like third
              obtain ⟨no', rest', alike''⟩ := rest.like last
              have derived := Statement.ifElse (same.trans is) condition' branch'
                (same'.trans otherwise) rest'
              rw [List.append_assoc] at derived
              refine ⟨_, derived, ?_⟩
              simp only [Stmt.moved, alike, alike', alike'', Pos.nowhere]
  | _, _, _, _, .while is condition turn, _, _, beside => by
      cases beside with
      | cons same _ rest =>
          obtain ⟨u, u', rfl, first, second⟩ := rest.split
          obtain ⟨test', condition', alike⟩ := condition.like first
          obtain ⟨body', turn', alike'⟩ := turn.like second
          refine ⟨_, .while (same.trans is) condition' turn', ?_⟩
          simp only [Stmt.moved, alike, alike', Pos.nowhere]
  | _, _, _, _, .switch is condition opens inside closes single, next', _, beside => by
      rw [List.append_assoc] at beside
      cases beside with
      | cons same _ rest =>
          obtain ⟨u, u', rfl, first, second⟩ := rest.split
          cases second with
          | cons same' _ rest =>
              obtain ⟨v, v', rfl, third, fourth⟩ := rest.split
              obtain ⟨closing', rfl, same''⟩ := fourth.single
              obtain ⟨subject', condition', alike⟩ := condition.like first
              obtain ⟨clauses', inside', alike'⟩ := inside.like third
              have single := Nat.le_trans (Nat.le_of_eq (defaults_like alike')) single
              have derived := @Statement.switch _ _ _ next' _ _ _ _ _ (same.trans is) condition'
                (same'.trans opens) inside' (same''.trans closes) single
              rw [List.append_assoc] at derived
              refine ⟨_, derived, ?_⟩
              simp only [Stmt.moved, alike, alike', Pos.nowhere]

theorem Statements.like : ∀ {enclosing : Enclosing} {w : List Token} {next : Token}
    {body : List Stmt}, Statements enclosing w next body →
      ∀ {next' : Token} {w' : List Token}, Beside w next w' next' →
        ∃ body', Statements enclosing w' next' body' ∧
          Stmt.movedAll .nowhere body' = Stmt.movedAll .nowhere body
  | _, _, _, _, .nil, _, _, beside => by
      cases beside
      exact ⟨[], .nil, rfl⟩
  | _, _, _, _, .cons first others, _, _, beside => by
      obtain ⟨u, u', rfl, before, after⟩ := beside.split
      obtain ⟨s', first', alike⟩ := first.like before
      obtain ⟨more', others', alike'⟩ := others.like after
      refine ⟨s' :: more', .cons first' others', ?_⟩
      simp only [Stmt.movedAll, alike, alike']

theorem Clauses.like : ∀ {enclosing : Enclosing} {w : List Token} {next : Token}
    {clauses : List Clause}, Clauses enclosing w next clauses →
      ∀ {next' : Token} {w' : List Token}, Beside w next w' next' →
        ∃ clauses', Clauses enclosing w' next' clauses' ∧
          Clause.movedAll .nowhere clauses' = Clause.movedAll .nowhere clauses
  | _, _, _, _, .nil, _, _, beside => by
      cases beside
      exact ⟨[], .nil, rfl⟩
  | _, _, _, _, .case is tested divides inside others, _, _, beside => by
      rw [List.append_assoc] at beside
      cases beside with
      | cons same _ rest =>
          obtain ⟨u, u', rfl, first, second⟩ := rest.split
          cases second with
          | cons same' _ rest =>
              obtain ⟨v, v', rfl, third, fourth⟩ := rest.split
              obtain ⟨test', tested', alike⟩ := Chained.like tested first
              obtain ⟨body', inside', alike'⟩ := inside.like third
              obtain ⟨more', others', alike''⟩ := others.like fourth
              have derived := Clauses.case (same.trans is) tested' (same'.trans divides) inside'
                others'
              rw [List.append_assoc] at derived
              refine ⟨_, derived, ?_⟩
              simp only [Clause.movedAll, Option.map_some, alike, alike', alike'', Pos.nowhere]
  | _, _, _, _, .default is divides inside others, _, _, beside => by
      cases beside with
      | cons same _ rest =>
          cases rest with
          | cons same' _ rest =>
              obtain ⟨v, v', rfl, third, fourth⟩ := rest.split
              obtain ⟨body', inside', alike⟩ := inside.like third
              obtain ⟨more', others', alike'⟩ := others.like fourth
              refine ⟨_, .default (same.trans is) (same'.trans divides) inside' others', ?_⟩
              simp only [Clause.movedAll, Option.map_none, alike, alike', Pos.nowhere]

end

end Likeness

end Script.Grammar
