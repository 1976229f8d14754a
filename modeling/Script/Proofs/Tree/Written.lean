import Script.Grammar.Statement

/-!
Trees written out as kinds of tokens. Parentheses stand exactly where an operand binds more loosely
than its place asks for; simple statements end with `;`, blocks have braces.
-/

namespace Script

def BinaryOp.operator : BinaryOp → Operator
  | .add => .plus
  | .sub => .minus
  | .mul => .times
  | .div => .divide
  | .rem => .modulo
  | .lt => .lt
  | .le => .le
  | .gt => .gt
  | .ge => .ge
  | .eq => .eq
  | .ne => .ne
  | .strictEq => .strictEq
  | .strictNe => .strictNe

def LogicalOp.operator : LogicalOp → Operator
  | .and => .and
  | .or => .or

def Connective.operator : Connective → Operator
  | .binary op => op.operator
  | .logical op => op.operator

def UnaryOp.kind : UnaryOp → Kind
  | .neg => .operator .minus
  | .not => .operator .not
  | .typeof => .keyword .typeof

def DeclKind.word : DeclKind → Keyword
  | .var => .var
  | .let => .let
  | .const => .const

def Literal.kind : Literal → Kind
  | .number x => .number x
  | .string s => .string s
  | .boolean true => .keyword .true
  | .boolean false => .keyword .false
  | .null => .keyword .null
  | .undefined => .keyword .undefined

def Kind.grouped (needed : Bool) (kinds : List Kind) : List Kind :=
  if needed then .punct .openParen :: kinds ++ [.punct .closeParen] else kinds

namespace Expr

/-- How loosely an expression binds: operands not at all, then the unary operators, then the
connectives by their level. -/
def looseness : Expr → Nat
  | .unary .. => 1
  | .binary _ op .. => (Connective.binary op).level + 1
  | .logical _ op .. => (Connective.logical op).level + 1
  | _ => 0

mutual

def written : Expr → List Kind
  | .literal _ value => [value.kind]
  | .name _ text => [.identifier text]
  | .array _ items => .punct .openBracket :: writtenItems .closeBracket items
  | .binary _ op left right =>
    let level := (Connective.binary op).level
    Kind.grouped (level + 1 < left.looseness) left.written ++
      .operator op.operator :: Kind.grouped (level < right.looseness) right.written
  | .logical _ op left right =>
    let level := (Connective.logical op).level
    Kind.grouped (level + 1 < left.looseness) left.written ++
      .operator op.operator :: Kind.grouped (level < right.looseness) right.written
  | .unary _ op operand => op.kind :: Kind.grouped (1 < operand.looseness) operand.written
  | .member _ object text _ =>
    Kind.grouped (0 < object.looseness) object.written ++ [.punct .dot, .identifier text]
  | .index _ object position =>
    Kind.grouped (0 < object.looseness) object.written ++
      .punct .openBracket :: position.written ++ [.punct .closeBracket]
  | .call _ callee arguments =>
    Kind.grouped (0 < callee.looseness) callee.written ++
      .punct .openParen :: writtenItems .closeParen arguments

def writtenItems (closing : Punct) : List Expr → List Kind
  | [] => [.punct closing]
  | [e] => e.written ++ [.punct closing]
  | e :: other :: rest => e.written ++ .punct .comma :: writtenItems closing (other :: rest)

end

end Expr

def Target.expr : Target → Expr
  | .name pos text => .name pos text
  | .index pos object position => .index pos object position

def Expr.condition (test : Expr) : List Kind :=
  .punct .openParen :: test.written ++ [.punct .closeParen]

mutual

def Stmt.written : Stmt → List Kind
  | .declare _ kind text none => [.keyword kind.word, .identifier text, .punct .semicolon]
  | .declare _ kind text (some value) =>
    .keyword kind.word :: .identifier text :: .operator .assign :: value.written ++
      [.punct .semicolon]
  | .assign _ target value =>
    target.expr.written ++ .operator .assign :: value.written ++ [.punct .semicolon]
  | .expr _ value => value.written ++ [.punct .semicolon]
  | .block _ body => .punct .openBrace :: Stmt.writtenAll body ++ [.punct .closeBrace]
  | .if _ test yes none => .keyword .if :: test.condition ++ yes.written
  | .if _ test yes (some no) =>
    .keyword .if :: test.condition ++ yes.written ++ .keyword .else :: no.written
  | .while _ test body => .keyword .while :: test.condition ++ body.written
  | .switch _ subject clauses =>
    .keyword .switch :: subject.condition ++ .punct .openBrace :: Clause.writtenAll clauses ++
      [.punct .closeBrace]
  | .break _ => [.keyword .break, .punct .semicolon]
  | .continue _ => [.keyword .continue, .punct .semicolon]

def Stmt.writtenAll : List Stmt → List Kind
  | [] => []
  | s :: rest => s.written ++ Stmt.writtenAll rest

def Clause.writtenAll : List Clause → List Kind
  | [] => []
  | .mk _ (some test) body :: rest =>
    .keyword .case :: test.written ++ .punct .colon :: Stmt.writtenAll body ++
      Clause.writtenAll rest
  | .mk _ none body :: rest =>
    .keyword .default :: .punct .colon :: Stmt.writtenAll body ++ Clause.writtenAll rest

end

def Program.written (p : Program) : List Kind := Stmt.writtenAll p

end Script
