import Script.Json
import Script.Tree.Basic

/-!
A program's tree as a document, with the place of every node but the program itself; a place without
a line is left out. The literals `null` and `undefined` are written as strings.
-/

namespace Script

def Pos.dump (pos : Pos) : List (String × Json) :=
  if pos.line = 0 then [] else [("line", .natural pos.line), ("column", .natural pos.column)]

def node (type : String) (fields : List (String × Json)) (pos : Pos) : Json :=
  .object (("type", .string type) :: fields ++ pos.dump)

def Literal.dump : Literal → Json
  | .number x => .number x
  | .string s => .string s
  | .boolean b => .boolean b
  | .null => .string "null"
  | .undefined => .string "undefined"

def nameNode (pos : Pos) (name : String) : Json :=
  node "Identifier" [("name", .string name)] pos

namespace Expr

mutual

def dump : Expr → Json
  | .literal pos value => node "Literal" [("value", value.dump)] pos
  | .name pos text => nameNode pos text
  | .array pos items => node "ArrayLiteral" [("elements", .array (dumpAll items))] pos
  | .binary pos op left right =>
    node "BinaryExpr"
      [("left", left.dump), ("operator", .string op.spelling), ("right", right.dump)] pos
  | .logical pos op left right =>
    node "LogicalExpr"
      [("left", left.dump), ("operator", .string op.spelling), ("right", right.dump)] pos
  | .unary pos op operand =>
    node "UnaryExpr" [("operator", .string op.spelling), ("operand", operand.dump)] pos
  | .member pos object text namePos =>
    node "MemberExpr"
      [("object", object.dump), ("property", nameNode namePos text),
        ("computed", .boolean false)] pos
  | .index pos object position =>
    node "MemberExpr"
      [("object", object.dump), ("property", position.dump), ("computed", .boolean true)] pos
  | .call pos callee arguments =>
    node "CallExpr"
      [("callee", callee.dump), ("arguments", .array (dumpAll arguments))] pos

def dumpAll : List Expr → List Json
  | [] => []
  | e :: rest => e.dump :: dumpAll rest

end

end Expr

def dumpOptional : Option Expr → Json
  | some e => e.dump
  | none => .null

def Target.toExpr : Target → Expr
  | .name pos text => .name pos text
  | .index pos object position => .index pos object position

namespace Stmt

mutual

def dump : Stmt → Json
  | .declare pos kind name value =>
    node "VarDecl"
      [("kind", .string kind.spelling), ("name", .string name), ("value", dumpOptional value)] pos
  | .assign pos target value =>
    node "Assignment" [("target", target.toExpr.dump), ("value", value.dump)] pos
  | .expr pos value => node "ExprStmt" [("expression", value.dump)] pos
  | .block pos body => node "BlockStmt" [("statements", .array (dumpAll body))] pos
  | .if pos test yes no =>
    node "IfStmt"
      [("condition", test.dump), ("then_branch", yes.dump),
        ("else_branch", match no with | some s => s.dump | none => .null)] pos
  | .while pos test body =>
    node "WhileStmt" [("condition", test.dump), ("body", body.dump)] pos
  | .switch pos subject clauses =>
    node "SwitchStmt"
      [("discriminant", subject.dump), ("cases", .array (dumpClauses clauses))] pos
  | .break pos => node "BreakStmt" [] pos
  | .continue pos => node "ContinueStmt" [] pos

def dumpAll : List Stmt → List Json
  | [] => []
  | s :: rest => s.dump :: dumpAll rest

def dumpClauses : List Clause → List Json
  | [] => []
  | .mk pos test body :: rest =>
    node "SwitchCase" [("test", dumpOptional test), ("body", .array (dumpAll body))] pos ::
      dumpClauses rest

end

end Stmt

namespace Program

def dump (p : Program) : Json :=
  .object [("type", .string "Program"), ("statements", .array (Stmt.dumpAll p))]

end Program

end Script
