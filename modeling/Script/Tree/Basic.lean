import Script.Number.Basic
import Script.Pos

/-!
Programs as trees. A node's place is that of the token it is named for: an operator, an opening
bracket, a keyword, or the first token of a statement.
-/

namespace Script

inductive BinaryOp
  | add | sub | mul | div | rem
  | lt | le | gt | ge
  | eq | ne | strictEq | strictNe
  deriving DecidableEq, Repr

inductive LogicalOp
  | and | or
  deriving DecidableEq, Repr

inductive UnaryOp
  | neg | not | typeof
  deriving DecidableEq, Repr

inductive DeclKind
  | var | «let» | const
  deriving DecidableEq, Repr

inductive Literal
  | number (value : Number)
  | string (value : String)
  | boolean (value : Bool)
  | null
  | undefined
  deriving DecidableEq

inductive Expr
  | literal (pos : Pos) (value : Literal)
  | name (pos : Pos) (name : String)
  | array (pos : Pos) (items : List Expr)
  | binary (pos : Pos) (op : BinaryOp) (left right : Expr)
  | logical (pos : Pos) (op : LogicalOp) (left right : Expr)
  | unary (pos : Pos) (op : UnaryOp) (operand : Expr)
  | member (pos : Pos) (object : Expr) (name : String) (namePos : Pos)
  | index (pos : Pos) (object position : Expr)
  | call (pos : Pos) (callee : Expr) (arguments : List Expr)

inductive Target
  | name (pos : Pos) (name : String)
  | index (pos : Pos) (object position : Expr)

mutual

inductive Stmt
  | declare (pos : Pos) (kind : DeclKind) (name : String) (value : Option Expr)
  | assign (pos : Pos) (target : Target) (value : Expr)
  | expr (pos : Pos) (value : Expr)
  | block (pos : Pos) (body : List Stmt)
  | «if» (pos : Pos) (test : Expr) (yes : Stmt) (no : Option Stmt)
  | «while» (pos : Pos) (test : Expr) (body : Stmt)
  | switch (pos : Pos) (subject : Expr) (clauses : List Clause)
  | «break» (pos : Pos)
  | «continue» (pos : Pos)

/-- A clause of `switch`; the one without a test is the default. -/
inductive Clause
  | mk (pos : Pos) (test : Option Expr) (body : List Stmt)

end

abbrev Program := List Stmt

namespace BinaryOp

def spelling : BinaryOp → String
  | .add => "+"
  | .sub => "-"
  | .mul => "*"
  | .div => "/"
  | .rem => "%"
  | .lt => "<"
  | .le => "<="
  | .gt => ">"
  | .ge => ">="
  | .eq => "=="
  | .ne => "!="
  | .strictEq => "==="
  | .strictNe => "!=="

end BinaryOp

def LogicalOp.spelling : LogicalOp → String
  | .and => "&&"
  | .or => "||"

def UnaryOp.spelling : UnaryOp → String
  | .neg => "-"
  | .not => "!"
  | .typeof => "typeof"

def DeclKind.spelling : DeclKind → String
  | .var => "var"
  | .let => "let"
  | .const => "const"

namespace Stmt

def type : Stmt → String
  | .declare .. => "VarDecl"
  | .assign .. => "Assignment"
  | .expr .. => "ExprStmt"
  | .block .. => "BlockStmt"
  | .if .. => "IfStmt"
  | .while .. => "WhileStmt"
  | .switch .. => "SwitchStmt"
  | .break _ => "BreakStmt"
  | .continue _ => "ContinueStmt"

end Stmt

namespace Clause

def test : Clause → Option Expr
  | .mk _ test _ => test

def body : Clause → List Stmt
  | .mk _ _ body => body

end Clause

namespace Target

def ofExpr? : Expr → Option Target
  | .name pos text => some (.name pos text)
  | .index pos object place => some (.index pos object place)
  | _ => none

end Target

end Script
