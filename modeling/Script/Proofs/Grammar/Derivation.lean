import Script.Grammar.Statement

/-!
The grammar as rules over rows of tokens, apart from how they are read. Expressions are context
free. A statement is derived before the token `next`: what follows a statement settles whether it
may end without `;` and which `if` an `else` goes with.
-/

namespace Script.Grammar

/-- The connectives and the levels they bind at, the tightest first. -/
inductive Binds : Operator → Nat → Connective → Prop
  | times : Binds .times 1 (.binary .mul)
  | divide : Binds .divide 1 (.binary .div)
  | modulo : Binds .modulo 1 (.binary .rem)
  | plus : Binds .plus 2 (.binary .add)
  | minus : Binds .minus 2 (.binary .sub)
  | lt : Binds .lt 3 (.binary .lt)
  | le : Binds .le 3 (.binary .le)
  | gt : Binds .gt 3 (.binary .gt)
  | ge : Binds .ge 3 (.binary .ge)
  | eq : Binds .eq 4 (.binary .eq)
  | ne : Binds .ne 4 (.binary .ne)
  | strictEq : Binds .strictEq 4 (.binary .strictEq)
  | strictNe : Binds .strictNe 4 (.binary .strictNe)
  | and : Binds .and 5 (.logical .and)
  | or : Binds .or 6 (.logical .or)

inductive Leads : Kind → UnaryOp → Prop
  | minus : Leads (.operator .minus) .neg
  | not : Leads (.operator .not) .not
  | typeof : Leads (.keyword .typeof) .typeof

inductive Denotes : Kind → Literal → Prop
  | number (x : Number) : Denotes (.number x) (.number x)
  | string (s : String) : Denotes (.string s) (.string s)
  | true : Denotes (.keyword .true) (.boolean true)
  | false : Denotes (.keyword .false) (.boolean false)
  | null : Denotes (.keyword .null) .null
  | undefined : Denotes (.keyword .undefined) .undefined

mutual

inductive Primary : List Token → Expr → Prop
  | literal {t : Token} {value : Literal} (denotes : Denotes t.kind value) :
      Primary [t] (.literal t.pos value)
  | name {t : Token} {text : String} (identifier : t.kind = .identifier text) :
      Primary [t] (.name t.pos text)
  | array {opening : Token} {w : List Token} {elements : List Expr}
      (opens : opening.kind = .punct .openBracket) (inside : Items .closeBracket w elements) :
      Primary (opening :: w) (.array opening.pos elements)
  | group {opening closing : Token} {w : List Token} {e : Expr}
      (opens : opening.kind = .punct .openParen) (inside : Chained Connective.loosest w e)
      (closes : closing.kind = .punct .closeParen) :
      Primary (opening :: w ++ [closing]) e

inductive Postfixed : List Token → Expr → Prop
  | primary {w : List Token} {e : Expr} (whole : Primary w e) : Postfixed w e
  | member {w : List Token} {object : Expr} {dot name : Token} {text : String}
      (before : Postfixed w object) (pointed : dot.kind = .punct .dot)
      (named : name.kind = .identifier text) :
      Postfixed (w ++ [dot, name]) (.member dot.pos object text name.pos)
  | index {w v : List Token} {object position : Expr} {opening closing : Token}
      (before : Postfixed w object) (opens : opening.kind = .punct .openBracket)
      (inside : Chained Connective.loosest v position)
      (closes : closing.kind = .punct .closeBracket) :
      Postfixed (w ++ opening :: v ++ [closing]) (.index opening.pos object position)
  | call {w v : List Token} {callee : Expr} {arguments : List Expr} {opening : Token}
      (before : Postfixed w callee) (opens : opening.kind = .punct .openParen)
      (inside : Items .closeParen v arguments) :
      Postfixed (w ++ opening :: v) (.call opening.pos callee arguments)

/-- At level 0 there are no connectives, only the operators before an operand. -/
inductive Chained : Nat → List Token → Expr → Prop
  | postfixed {w : List Token} {e : Expr} (whole : Postfixed w e) : Chained 0 w e
  | unary {t : Token} {op : UnaryOp} {w : List Token} {operand : Expr} (leads : Leads t.kind op)
      (after : Chained 0 w operand) : Chained 0 (t :: w) (.unary t.pos op operand)
  | tighter {level : Nat} {w : List Token} {e : Expr} (whole : Chained level w e) :
      Chained (level + 1) w e
  | connective {level : Nat} {w v : List Token} {left right : Expr} {t : Token} {op : Operator}
      {connective : Connective} (before : Chained (level + 1) w left)
      (operator : t.kind = .operator op) (binds : Binds op (level + 1) connective)
      (after : Chained level v right) :
      Chained (level + 1) (w ++ t :: v) (connective.join t.pos left right)

inductive Items : Punct → List Token → List Expr → Prop
  | none {closing : Punct} {t : Token} (closes : t.kind = .punct closing) : Items closing [t] []
  | last {closing : Punct} {w : List Token} {item : Expr} {t : Token}
      (one : Chained Connective.loosest w item) (closes : t.kind = .punct closing) :
      Items closing (w ++ [t]) [item]
  | more {closing : Punct} {w v : List Token} {item : Expr} {items : List Expr} {t : Token}
      (one : Chained Connective.loosest w item) (comma : t.kind = .punct .comma)
      (others : Items closing v items) :
      Items closing (w ++ t :: v) (item :: items)

end

abbrev Expression : List Token → Expr → Prop := Chained Connective.loosest

/-- The kinds of tokens that go on with an expression of the level. -/
inductive Extends (level : Nat) : Kind → Prop
  | member : Extends level (.punct .dot)
  | index : Extends level (.punct .openBracket)
  | call : Extends level (.punct .openParen)
  | connective {op : Operator} {tightness : Nat} {connective : Connective}
      (binds : Binds op tightness connective) (within : tightness ≤ level) :
      Extends level (.operator op)

inductive Assignable : Expr → Target → Prop
  | name (pos : Pos) (text : String) : Assignable (.name pos text) (.name pos text)
  | index (pos : Pos) (object position : Expr) :
      Assignable (.index pos object position) (.index pos object position)

inductive Declares : Kind → DeclKind → Prop
  | var : Declares (.keyword .var) .var
  | let : Declares (.keyword .let) .let
  | const : Declares (.keyword .const) .const

inductive Simple (enclosing : Enclosing) : List Token → Stmt → Prop
  | declare {word name : Token} {kind : DeclKind} {text : String}
      (declares : Declares word.kind kind) (named : name.kind = .identifier text)
      (changeable : kind ≠ .const) :
      Simple enclosing [word, name] (.declare word.pos kind text none)
  | define {word name equals : Token} {kind : DeclKind} {text : String} {w : List Token}
      {value : Expr} (declares : Declares word.kind kind)
      (named : name.kind = .identifier text) (assigns : equals.kind = .operator .assign)
      (after : Expression w value) :
      Simple enclosing (word :: name :: equals :: w) (.declare word.pos kind text (some value))
  | assign {first equals : Token} {w v : List Token} {left value : Expr} {target : Target}
      (before : Expression (first :: w) left) (assignable : Assignable left target)
      (assigns : equals.kind = .operator .assign) (after : Expression v value) :
      Simple enclosing (first :: w ++ equals :: v) (.assign first.pos target value)
  | expr {first : Token} {w : List Token} {value : Expr} (whole : Expression (first :: w) value) :
      Simple enclosing (first :: w) (.expr first.pos value)
  | break {word : Token} (is : word.kind = .keyword .break)
      (placed : enclosing.loop = true ∨ enclosing.switch = true) :
      Simple enclosing [word] (.break word.pos)
  | continue {word : Token} (is : word.kind = .keyword .continue)
      (placed : enclosing.loop = true) :
      Simple enclosing [word] (.continue word.pos)

/-- The kinds of tokens that go on with a simple statement. After an expression this includes `=`,
since the statement may be an assignment. -/
def Continues : Stmt → Kind → Prop
  | .declare _ _ _ none, kind => kind = .operator .assign
  | .declare _ _ _ (some _), kind => Extends Connective.loosest kind
  | .assign .., kind => Extends Connective.loosest kind
  | .expr .., kind => Extends Connective.loosest kind ∨ kind = .operator .assign
  | _, _ => False

/-- Where the tokens `w` of a simple statement end it without `;`. A token on a later line is no end
if it goes on with the statement, and a `;` there is the statement's own. -/
inductive Ends (s : Stmt) (w : List Token) (next : Token) : Prop
  | brace (closes : next.kind = .punct .closeBrace)
  | stop (stops : next.kind = .endOfInput)
  | line {last : Token} (ends : w.getLast? = some last) (later : last.pos.line < next.pos.line)
      (apart : ¬ Continues s next.kind) (unmarked : next.kind ≠ .punct .semicolon)

inductive Condition : List Token → Expr → Prop
  | mk {opening closing : Token} {w : List Token} {test : Expr}
      (opens : opening.kind = .punct .openParen) (inside : Expression w test)
      (closes : closing.kind = .punct .closeParen) : Condition (opening :: w ++ [closing]) test

def defaults (clauses : List Clause) : Nat := clauses.countP (·.test.isNone)

theorem defaults_case (pos : Pos) (test : Expr) (body : List Stmt) (more : List Clause) :
    defaults (.mk pos (some test) body :: more) = defaults more := by
  simp [defaults, Clause.test]

theorem defaults_default (pos : Pos) (body : List Stmt) (more : List Clause) :
    defaults (.mk pos none body :: more) = defaults more + 1 := by
  simp [defaults, Clause.test]

mutual

inductive Statement : Enclosing → List Token → Token → Stmt → Prop
  | terminated {enclosing : Enclosing} {w : List Token} {next mark : Token} {s : Stmt}
      (whole : Simple enclosing w s) (marked : mark.kind = .punct .semicolon) :
      Statement enclosing (w ++ [mark]) next s
  | unterminated {enclosing : Enclosing} {w : List Token} {next : Token} {s : Stmt}
      (whole : Simple enclosing w s) (ends : Ends s w next) : Statement enclosing w next s
  | empty {enclosing : Enclosing} {next mark : Token} (marked : mark.kind = .punct .semicolon) :
      Statement enclosing [mark] next (.block mark.pos [])
  | block {enclosing : Enclosing} {w : List Token} {next opening closing : Token}
      {body : List Stmt} (opens : opening.kind = .punct .openBrace)
      (inside : Statements enclosing w closing body)
      (closes : closing.kind = .punct .closeBrace) :
      Statement enclosing (opening :: w ++ [closing]) next (.block opening.pos body)
  | if {enclosing : Enclosing} {v w : List Token} {next word : Token} {test : Expr} {yes : Stmt}
      (is : word.kind = .keyword .if) (condition : Condition v test)
      (branch : Statement enclosing w next yes) (alone : next.kind ≠ .keyword .else) :
      Statement enclosing (word :: v ++ w) next (.if word.pos test yes none)
  | ifElse {enclosing : Enclosing} {v w u : List Token} {next word other : Token} {test : Expr}
      {yes no : Stmt} (is : word.kind = .keyword .if) (condition : Condition v test)
      (branch : Statement enclosing w other yes) (otherwise : other.kind = .keyword .else)
      (rest : Statement enclosing u next no) :
      Statement enclosing (word :: v ++ w ++ other :: u) next (.if word.pos test yes (some no))
  | while {enclosing : Enclosing} {v w : List Token} {next word : Token} {test : Expr}
      {body : Stmt} (is : word.kind = .keyword .while) (condition : Condition v test)
      (turn : Statement { enclosing with loop := true } w next body) :
      Statement enclosing (word :: v ++ w) next (.while word.pos test body)
  | switch {enclosing : Enclosing} {v w : List Token} {next word opening closing : Token}
      {subject : Expr} {clauses : List Clause} (is : word.kind = .keyword .switch)
      (condition : Condition v subject) (opens : opening.kind = .punct .openBrace)
      (inside : Clauses { enclosing with switch := true } w closing clauses)
      (closes : closing.kind = .punct .closeBrace) (single : defaults clauses ≤ 1) :
      Statement enclosing (word :: v ++ opening :: w ++ [closing]) next
        (.switch word.pos subject clauses)

inductive Statements : Enclosing → List Token → Token → List Stmt → Prop
  | nil {enclosing : Enclosing} {next : Token} : Statements enclosing [] next []
  | cons {enclosing : Enclosing} {w v : List Token} {next : Token} {s : Stmt} {more : List Stmt}
      (first : Statement enclosing w (v.headD next) s)
      (others : Statements enclosing v next more) :
      Statements enclosing (w ++ v) next (s :: more)

inductive Clauses : Enclosing → List Token → Token → List Clause → Prop
  | nil {enclosing : Enclosing} {next : Token} : Clauses enclosing [] next []
  | case {enclosing : Enclosing} {w v u : List Token} {next word colon : Token} {test : Expr}
      {body : List Stmt} {more : List Clause} (is : word.kind = .keyword .case)
      (tested : Expression w test) (divides : colon.kind = .punct .colon)
      (inside : Statements enclosing v (u.headD next) body)
      (others : Clauses enclosing u next more) :
      Clauses enclosing (word :: w ++ colon :: v ++ u) next
        (.mk word.pos (some test) body :: more)
  | default {enclosing : Enclosing} {v u : List Token} {next word colon : Token}
      {body : List Stmt} {more : List Clause} (is : word.kind = .keyword .default)
      (divides : colon.kind = .punct .colon)
      (inside : Statements enclosing v (u.headD next) body)
      (others : Clauses enclosing u next more) :
      Clauses enclosing (word :: colon :: v ++ u) next (.mk word.pos none body :: more)

end

end Script.Grammar

namespace Script

/-- The end of input is the last token and no other. -/
def Token.EndOnce (tokens : List Token) : Prop :=
  ∃ body stop, tokens = body ++ [stop] ∧ stop.kind = .endOfInput ∧
    ∀ t ∈ body, t.kind ≠ .endOfInput

/-- The tokens that write a program, with the end of input after them. -/
inductive Program.Derived : List Token → Program → Prop
  | mk {body : List Token} {stop : Token} {p : Program} (stops : stop.kind = .endOfInput)
      (whole : Grammar.Statements ⟨false, false⟩ body stop p) : Program.Derived (body ++ [stop]) p

end Script
