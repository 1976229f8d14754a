import Script.Proofs.Grammar.Likeness
import Script.Proofs.Tree.Written

/-!
What is written of a tree derives the tree. The names and numbers that are written are those of the
tokens the tree was derived from.
-/

namespace Script

/-- Numbers and names, and the end of input: not each kind of these has a spelling. -/
def Kind.isNamed : Kind → Bool
  | .number _ | .identifier _ | .endOfInput => true
  | _ => false

def Kind.token (kind : Kind) : Token := ⟨kind, "", .start⟩

open Grammar

theorem Connective.binds_operator (connective : Connective) :
    ∃ tighter, connective.level = tighter + 1 ∧
      Binds connective.operator (tighter + 1) connective := by
  cases connective with
  | binary op => cases op <;> exact ⟨_, rfl, by constructor⟩
  | logical op => cases op <;> exact ⟨_, rfl, by constructor⟩

theorem Connective.level_le (connective : Connective) :
    connective.level ≤ Connective.loosest := by
  cases connective with
  | binary op => cases op <;> decide
  | logical op => cases op <;> decide

namespace Grammar

theorem Denotes.kind (value : Literal) : Denotes value.kind value := by
  cases value with
  | boolean b => cases b <;> constructor
  | _ => constructor

theorem Leads.kind (op : UnaryOp) : Leads op.kind op := by
  cases op <;> constructor

theorem Declares.word (kind : DeclKind) : Declares (.keyword kind.word) kind := by
  cases kind <;> constructor

/-- The row is an expression that binds at most so loosely. -/
def Loose : Nat → List Token → Expr → Prop
  | 0 => Postfixed
  | level + 1 => Chained level

section Expressions

variable {w : List Token} {e : Expr}

theorem Chained.mono {level : Nat} (derived : Chained level w e) {looser : Nat}
    (within : level ≤ looser) : Chained looser w e := by
  induction within with
  | refl => exact derived
  | step _ again => exact .tighter again

theorem Loose.mono {bound : Nat} (derived : Loose bound w e) {looser : Nat}
    (within : bound ≤ looser) : Loose looser w e := by
  cases bound with
  | zero =>
      cases looser with
      | zero => exact derived
      | succ level => exact Chained.mono (.postfixed derived) (Nat.zero_le level)
  | succ level =>
      cases looser with
      | zero => exact absurd within (by omega)
      | succ looser => exact Chained.mono derived (by omega)

theorem looseness_le (e : Expr) : e.looseness ≤ Connective.loosest + 1 := by
  cases e with
  | binary _ op => exact Nat.succ_le_succ (Connective.level_le (.binary op))
  | logical _ op => exact Nat.succ_le_succ (Connective.level_le (.logical op))
  | unary => exact Nat.succ_le_succ (Nat.zero_le _)
  | _ => exact Nat.zero_le _

theorem Loose.expression {bound : Nat} (derived : Loose bound w e)
    (within : bound ≤ Connective.loosest + 1) : Expression w e :=
  derived.mono within

/-- With parentheses where they are needed, an expression may stand at any place. -/
theorem Loose.grouped {ks : List Kind} (derived : Loose e.looseness (ks.map Kind.token) f)
    (bound : Nat) :
    Loose bound ((Kind.grouped (bound < e.looseness) ks).map Kind.token) f := by
  by_cases needed : bound < e.looseness
  · have inside := derived.expression (looseness_le e)
    have group : Primary (Kind.token (.punct .openParen) :: ks.map Kind.token ++
        [Kind.token (.punct .closeParen)]) f := .group rfl inside rfl
    have whole : Loose 0 _ f := Postfixed.primary group
    simp only [Kind.grouped, needed, decide_true, if_true, List.map_cons, List.map_append]
    exact whole.mono (Nat.zero_le bound)
  · simp only [Kind.grouped, needed, decide_false]
    exact derived.mono (Nat.le_of_not_lt needed)

theorem Loose.connective {left right : Expr} {ks vs : List Kind} (connective : Connective)
    (before : Loose left.looseness (ks.map Kind.token) (left.moved .nowhere))
    (after : Loose right.looseness (vs.map Kind.token) (right.moved .nowhere)) :
    Loose (connective.level + 1)
      ((Kind.grouped (connective.level + 1 < left.looseness) ks ++
        .operator connective.operator ::
          Kind.grouped (connective.level < right.looseness) vs).map Kind.token)
      ((connective.join .start left right).moved .nowhere) := by
  have first := before.grouped (connective.level + 1)
  have second := after.grouped connective.level
  obtain ⟨tighter, level, binds⟩ := connective.binds_operator
  rw [level] at first second ⊢
  rw [List.map_append, Connective.join_moved]
  exact Chained.connective first rfl binds second

end Expressions

end Grammar

mutual

theorem Expr.written_derives : ∀ e : Expr,
    Loose e.looseness (e.written.map Kind.token) (e.moved .nowhere)
  | .literal _ value => Postfixed.primary (.literal (Denotes.kind value))
  | .name _ text => Postfixed.primary (.name rfl)
  | .array _ items => Postfixed.primary (.array rfl (Expr.writtenItems_derives .closeBracket items))
  | .binary _ op left right =>
      .connective (.binary op) left.written_derives right.written_derives
  | .logical _ op left right =>
      .connective (.logical op) left.written_derives right.written_derives
  | .unary _ op operand =>
      Chained.unary (Leads.kind op) (operand.written_derives.grouped 1)
  | .member _ object text _ => by
      rw [Expr.written, List.map_append]
      exact Postfixed.member (object.written_derives.grouped 0) rfl rfl
  | .index _ object position => by
      have inside := position.written_derives.expression (looseness_le position)
      rw [Expr.written, List.map_append, List.map_append]
      exact Postfixed.index (object.written_derives.grouped 0) rfl inside rfl
  | .call _ callee arguments => by
      rw [Expr.written, List.map_append]
      exact Postfixed.call (callee.written_derives.grouped 0) rfl
        (Expr.writtenItems_derives .closeParen arguments)

theorem Expr.writtenItems_derives (closing : Punct) : ∀ es : List Expr,
    Items closing ((Expr.writtenItems closing es).map Kind.token) (Expr.movedAll .nowhere es)
  | [] => .none rfl
  | [e] => by
      rw [Expr.writtenItems, List.map_append]
      exact .last (e.written_derives.expression (looseness_le e)) rfl
  | e :: other :: rest => by
      rw [Expr.writtenItems, List.map_append]
      exact .more (e.written_derives.expression (looseness_le e)) rfl
        (Expr.writtenItems_derives closing (other :: rest))

end

theorem Expr.written_expression (e : Expr) :
    Expression (e.written.map Kind.token) (e.moved .nowhere) :=
  e.written_derives.expression (looseness_le e)

theorem Expr.condition_derives (test : Expr) :
    Condition (test.condition.map Kind.token) (test.moved .nowhere) := by
  rw [Expr.condition, List.map_append]
  exact .mk rfl test.written_expression rfl

theorem Target.assignable (target : Target) :
    Assignable (target.expr.moved .nowhere) (target.moved .nowhere) := by
  cases target <;> constructor

namespace Grammar

theorem written_cons (e : Expr) : ∃ kind kinds, e.written = kind :: kinds := by
  obtain ⟨t, v, same, -⟩ := Chained.begins e.written_expression
  obtain ⟨kind, kinds, written, -, -⟩ := List.map_eq_cons_iff.mp same
  exact ⟨kind, kinds, written⟩

theorem Simple.written {enclosing : Enclosing} {w : List Token} {s : Stmt}
    (derived : Simple enclosing w s) : ∃ kinds, s.written = kinds ++ [.punct .semicolon] ∧
      Simple enclosing (kinds.map Kind.token) (s.moved .nowhere) := by
  cases derived with
  | declare declares named changeable =>
      exact ⟨[_, _], rfl, .declare (Declares.word _) rfl changeable⟩
  | @define _ _ _ kind text _ value declares named assigns after =>
      exact ⟨.keyword kind.word :: .identifier text :: .operator .assign :: value.written, rfl,
        .define (Declares.word kind) rfl rfl value.written_expression⟩
  | @assign first _ _ _ _ value target before assignable assigns after =>
      refine ⟨target.expr.written ++ .operator .assign :: value.written, ?_, ?_⟩
      · rw [Stmt.written, List.append_assoc]
      · have left := target.expr.written_expression
        obtain ⟨kind, kinds, written⟩ := written_cons target.expr
        rw [written] at left ⊢
        rw [List.map_append]
        exact .assign left target.assignable rfl value.written_expression
  | @expr _ _ value whole =>
      refine ⟨value.written, rfl, ?_⟩
      have whole := value.written_expression
      obtain ⟨kind, kinds, written⟩ := written_cons value
      rw [written] at whole ⊢
      exact .expr whole
  | «break» is placed => exact ⟨[_], rfl, .break rfl placed⟩
  | «continue» is placed => exact ⟨[_], rfl, .continue rfl placed⟩

theorem Simple.written_derives {enclosing : Enclosing} {w : List Token} {s : Stmt}
    (derived : Simple enclosing w s) (next : Token) :
    Statement enclosing (s.written.map Kind.token) next (s.moved .nowhere) := by
  obtain ⟨kinds, written, simple⟩ := derived.written
  rw [written, List.map_append]
  exact .terminated simple rfl

theorem writtenAll_headD {next : Token} (apart : next.kind ≠ .keyword .else)
    (clauses : List Clause) :
    (((Clause.writtenAll clauses).map Kind.token).headD next).kind ≠ .keyword .else := by
  cases clauses with
  | nil => exact apart
  | cons clause rest =>
      obtain ⟨pos, test?, body⟩ := clause
      cases test? <;> nofun

mutual

/-- What is written may stand before any token, unless an `else` there would go with it. -/
theorem Statement.written : ∀ {enclosing : Enclosing} {w : List Token} {next : Token} {s : Stmt},
    Statement enclosing w next s → ∀ next' : Token,
      (next'.kind = .keyword .else → next.kind = .keyword .else) →
        Statement enclosing (s.written.map Kind.token) next' (s.moved .nowhere)
  | _, _, _, _, .terminated whole _, next', _ => whole.written_derives next'
  | _, _, _, _, .unterminated whole _, next', _ => whole.written_derives next'
  | _, _, _, _, .empty _, _, _ =>
      @Statement.block _ [] _ (Kind.token _) (Kind.token _) [] rfl .nil rfl
  | _, _, _, _, .block _ inside closes, _, _ => by
      have body := inside.written (Kind.token (.punct .closeBrace)) nofun
      rw [Stmt.written, List.map_append]
      exact .block rfl body rfl
  | _, _, _, _, @Statement.if _ _ _ _ _ test yes _ _ branch alone, next', otherwise => by
      rw [Stmt.written, List.map_append]
      exact .if rfl test.condition_derives (branch.written next' otherwise)
        fun same => alone (otherwise same)
  | _, _, _, _, @Statement.ifElse _ _ _ _ _ _ _ test yes no _ _ branch is rest, next',
      otherwise => by
      rw [Stmt.written, List.map_append, List.map_append]
      exact .ifElse rfl test.condition_derives (branch.written (Kind.token (.keyword .else))
        fun _ => is) rfl (rest.written next' otherwise)
  | _, _, _, _, @Statement.while _ _ _ _ _ test body _ _ turn, next', otherwise => by
      rw [Stmt.written, List.map_append]
      exact .while rfl test.condition_derives (turn.written next' otherwise)
  | _, _, _, _, @Statement.switch _ _ _ _ _ _ _ subject _ _ _ _ inside _ single, next', _ => by
      have body := inside.written (Kind.token (.punct .closeBrace)) nofun
      have single := Nat.le_trans (Nat.le_of_eq (defaults_moved (f := .nowhere) _)) single
      rw [Stmt.written, List.map_append, List.map_append]
      exact .switch rfl subject.condition_derives rfl body rfl single

theorem Statements.written : ∀ {enclosing : Enclosing} {w : List Token} {next : Token}
    {body : List Stmt}, Statements enclosing w next body → ∀ next' : Token,
      (next'.kind = .keyword .else → next.kind = .keyword .else) →
        Statements enclosing ((Stmt.writtenAll body).map Kind.token) next'
          (Stmt.movedAll .nowhere body)
  | _, _, _, _, .nil, _, _ => .nil
  | _, _, _, _, .cons first others, next', otherwise => by
      have rest := others.written next' otherwise
      rw [Stmt.writtenAll, List.map_append]
      refine .cons (first.written _ fun same => ?_) rest
      cases others with
      | nil => exact otherwise same
      | cons =>
          obtain ⟨t, v, begins, other⟩ := rest.heads nofun
          rw [begins] at same
          exact absurd same other

theorem Clauses.written : ∀ {enclosing : Enclosing} {w : List Token} {next : Token}
    {clauses : List Clause}, Clauses enclosing w next clauses → ∀ next' : Token,
      next'.kind ≠ .keyword .else →
        Clauses enclosing ((Clause.writtenAll clauses).map Kind.token) next'
          (Clause.movedAll .nowhere clauses)
  | _, _, _, _, .nil, _, _ => .nil
  | _, _, _, _, @Clauses.case _ _ _ _ _ _ _ test body more _ _ _ inside others, next', apart => by
      have first := inside.written _ fun same => absurd same (writtenAll_headD apart more)
      rw [Clause.writtenAll, List.map_append, List.map_append]
      exact .case rfl test.written_expression rfl first (others.written next' apart)
  | _, _, _, _, @Clauses.default _ _ _ _ _ _ body more _ _ inside others, next', apart => by
      have first := inside.written _ fun same => absurd same (writtenAll_headD apart more)
      rw [Clause.writtenAll, List.map_append]
      exact .default rfl rfl first (others.written next' apart)

end

section Names

variable {enclosing : Enclosing} {w : List Token}

def names (kinds : List Kind) : List Kind := kinds.filter Kind.isNamed

theorem names_append (ks vs : List Kind) : names (ks ++ vs) = names ks ++ names vs :=
  List.filter_append ks vs

theorem names_cons (kind : Kind) (ks : List Kind) :
    names (kind :: ks) = if kind.isNamed then kind :: names ks else names ks :=
  List.filter_cons

theorem names_grouped (needed : Bool) (ks : List Kind) :
    names (Kind.grouped needed ks) = names ks := by
  cases needed with
  | false => rfl
  | true =>
      rw [Kind.grouped, if_pos rfl, List.cons_append, names_cons, names_append]
      exact List.append_nil _

theorem names_join (pos : Pos) (left right : Expr) (connective : Connective) :
    names (connective.join pos left right).written = names left.written ++ names right.written := by
  cases connective <;>
    simp only [Connective.join, Expr.written, names_append, names_cons, names_grouped] <;> rfl

theorem names_items (closing : Punct) (item : Expr) (items : List Expr) :
    names (Expr.writtenItems closing (item :: items)) =
      names item.written ++ names (Expr.writtenItems closing items) := by
  cases items <;> exact names_append _ _

theorem Denotes.eq_kind {kind : Kind} {value : Literal} (denotes : Denotes kind value) :
    kind = value.kind := by
  cases denotes <;> rfl

theorem Leads.unnamed {kind : Kind} {op : UnaryOp} (leads : Leads kind op) :
    kind.isNamed = false ∧ op.kind.isNamed = false := by
  cases leads <;> exact ⟨rfl, rfl⟩

theorem Declares.eq_word {kind : Kind} {declared : DeclKind} (declares : Declares kind declared) :
    kind = .keyword declared.word := by
  cases declares <;> rfl

theorem Assignable.expr_eq {e : Expr} {target : Target} (assignable : Assignable e target) :
    target.expr = e := by
  cases assignable <;> rfl

mutual

theorem Primary.names_eq : ∀ {w : List Token} {e : Expr}, Primary w e →
    names (w.map (·.kind)) = names e.written
  | _, _, .literal denotes => congrArg (fun kind => names [kind]) denotes.eq_kind
  | _, _, .name identifier => by
      simp only [List.map_cons, identifier]
      rfl
  | _, _, .array opens inside => by
      simp only [List.map_cons, opens, Expr.written, names_cons, inside.names_eq]
  | _, _, .group opens inside closes => by
      simp only [List.map_append, List.map_cons, opens, closes, names_append, names_cons,
        inside.names_eq]
      exact List.append_nil _

theorem Postfixed.names_eq : ∀ {w : List Token} {e : Expr}, Postfixed w e →
    names (w.map (·.kind)) = names e.written
  | _, _, .primary whole => whole.names_eq
  | _, _, .member before pointed named => by
      simp only [List.map_append, List.map_cons, pointed, named, Expr.written, names_append,
        names_grouped, before.names_eq]
      rfl
  | _, _, .index before opens inside closes => by
      simp only [List.map_append, List.map_cons, opens, closes, Expr.written, names_append,
        names_cons, names_grouped, before.names_eq, inside.names_eq]
      rfl
  | _, _, .call before opens inside => by
      simp only [List.map_append, List.map_cons, opens, Expr.written, names_append, names_cons,
        names_grouped, before.names_eq, inside.names_eq]

theorem Chained.names_eq : ∀ {level : Nat} {w : List Token} {e : Expr}, Chained level w e →
    names (w.map (·.kind)) = names e.written
  | _, _, _, .postfixed whole => whole.names_eq
  | _, _, _, .unary leads after => by
      obtain ⟨first, second⟩ := leads.unnamed
      simp only [List.map_cons, Expr.written, names_cons, first, second, names_grouped,
        after.names_eq, Bool.false_eq_true, if_false]
  | _, _, _, .tighter whole => whole.names_eq
  | _, _, _, .connective before operator _ after => by
      simp only [List.map_append, List.map_cons, operator, names_join, names_append, names_cons,
        before.names_eq, after.names_eq]
      rfl

theorem Items.names_eq : ∀ {closing : Punct} {w : List Token} {es : List Expr},
    Items closing w es → names (w.map (·.kind)) = names (Expr.writtenItems closing es)
  | _, _, _, .none closes => by
      simp only [List.map_cons, closes]
      rfl
  | _, _, _, .last one closes => by
      simp only [List.map_append, List.map_cons, closes, names_items, names_append, one.names_eq]
      rfl
  | _, _, _, .more one comma others => by
      simp only [List.map_append, List.map_cons, comma, names_items, names_append, names_cons,
        one.names_eq, others.names_eq]
      rfl

end

theorem names_condition (test : Expr) : names test.condition = names test.written := by
  rw [Expr.condition, List.cons_append, names_cons, names_append]
  exact List.append_nil _

theorem Condition.names_eq {test : Expr} (derived : Condition w test) :
    names (w.map (·.kind)) = names test.written := by
  cases derived with
  | mk opens inside closes =>
      simp only [List.map_append, List.map_cons, opens, closes, names_append, names_cons,
        Chained.names_eq inside]
      exact List.append_nil _

theorem Simple.names_eq {s : Stmt} (derived : Simple enclosing w s) :
    names (w.map (·.kind)) = names s.written := by
  cases derived with
  | declare declares named _ =>
      simp only [List.map_cons, declares.eq_word, named]
      rfl
  | define declares named assigns after =>
      simp only [List.map_cons, declares.eq_word, named, assigns, Stmt.written, names_append,
        names_cons, List.cons_append, Chained.names_eq after]
      exact (List.append_nil _).symm
  | assign before assignable assigns after =>
      rw [List.map_append, names_append, Chained.names_eq before]
      simp only [List.map_cons, assigns, Stmt.written, assignable.expr_eq, names_append, names_cons,
        Chained.names_eq after]
      exact (List.append_nil _).symm
  | expr whole =>
      simp only [Chained.names_eq whole, Stmt.written, names_append]
      exact (List.append_nil _).symm
  | «break» is _ | «continue» is _ =>
      simp only [List.map_cons, is]
      rfl

mutual

theorem Statement.names_eq : ∀ {enclosing : Enclosing} {w : List Token} {next : Token} {s : Stmt},
    Statement enclosing w next s → names (w.map (·.kind)) = names s.written
  | _, _, _, _, .terminated whole marked => by
      simp only [List.map_append, List.map_cons, marked, names_append, whole.names_eq]
      exact List.append_nil _
  | _, _, _, _, .unterminated whole _ => whole.names_eq
  | _, _, _, _, .empty marked => by
      simp only [List.map_cons, marked]
      rfl
  | _, _, _, _, .block opens inside closes => by
      simp only [List.map_append, List.map_cons, List.map_nil, opens, closes, Stmt.written,
        names_append, names_cons, inside.names_eq]
  | _, _, _, _, .if is condition branch _ => by
      simp only [List.map_append, List.map_cons, is, Stmt.written, names_append, names_cons,
        names_condition, condition.names_eq, branch.names_eq]
  | _, _, _, _, .ifElse is condition branch otherwise rest => by
      simp only [List.map_append, List.map_cons, is, otherwise, Stmt.written, names_append,
        names_cons, names_condition, condition.names_eq, branch.names_eq, rest.names_eq]
  | _, _, _, _, .while is condition turn => by
      simp only [List.map_append, List.map_cons, is, Stmt.written, names_append, names_cons,
        names_condition, condition.names_eq, turn.names_eq]
  | _, _, _, _, .switch is condition opens inside closes _ => by
      simp only [List.map_append, List.map_cons, List.map_nil, is, opens, closes, Stmt.written,
        names_append, names_cons, names_condition, condition.names_eq, inside.names_eq]

theorem Statements.names_eq : ∀ {enclosing : Enclosing} {w : List Token} {next : Token}
    {body : List Stmt}, Statements enclosing w next body →
      names (w.map (·.kind)) = names (Stmt.writtenAll body)
  | _, _, _, _, .nil => rfl
  | _, _, _, _, .cons first others => by
      simp only [List.map_append, Stmt.writtenAll, names_append, first.names_eq, others.names_eq]

theorem Clauses.names_eq : ∀ {enclosing : Enclosing} {w : List Token} {next : Token}
    {clauses : List Clause}, Clauses enclosing w next clauses →
      names (w.map (·.kind)) = names (Clause.writtenAll clauses)
  | _, _, _, _, .nil => rfl
  | _, _, _, _, .case is tested divides inside others => by
      simp only [List.map_append, List.map_cons, is, divides, Clause.writtenAll, names_append,
        names_cons, Chained.names_eq tested, inside.names_eq, others.names_eq]
  | _, _, _, _, .default is divides inside others => by
      simp only [List.map_append, List.map_cons, is, divides, Clause.writtenAll, names_append,
        names_cons, inside.names_eq, others.names_eq]

end

end Names

end Grammar

end Script
