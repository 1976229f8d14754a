import Script.Grammar.Statement
import Script.Proofs.Tree.Parts

/-!
Where the statements of a program stand: within which loops and switches, and after which
declarations. A declaration counts for the statements after it in its list and for those in them;
a branch or a body of a loop is a list of its own.
-/

namespace Script

namespace Expr

mutual

/-- The names that are read, but not one that `typeof` is put before. -/
def reads : Expr → List String
  | .literal .. => []
  | .name _ text => [text]
  | .array _ items => readsAll items
  | .binary _ _ left right | .logical _ _ left right => left.reads ++ right.reads
  | .unary _ .typeof (.name ..) => []
  | .unary _ _ operand => operand.reads
  | .member _ object _ _ => object.reads
  | .index _ object position => object.reads ++ position.reads
  | .call _ callee arguments => callee.reads ++ readsAll arguments

def readsAll : List Expr → List String
  | [] => []
  | e :: rest => e.reads ++ readsAll rest

end

end Expr

structure Surroundings where
  enclosing : Enclosing
  /-- The names declared before it in its list, or before a statement around it. -/
  declared : List String

structure Site where
  around : Surroundings
  stmt : Stmt

namespace Stmt

def declared : Stmt → List String
  | .declare _ _ name _ => [name]
  | _ => []

def assigned : Stmt → List String
  | .assign _ (.name _ name) _ => [name]
  | _ => []

/-- The names that a statement reads and assigns to, but not those of the statements in it. -/
def uses (s : Stmt) : List String := s.assigned ++ s.operands.flatMap Expr.reads

end Stmt

namespace Surroundings

def outermost : Surroundings := ⟨⟨false, false⟩, []⟩

def after (around : Surroundings) (s : Stmt) : Surroundings :=
  { around with declared := s.declared ++ around.declared }

def inLoop (around : Surroundings) : Surroundings :=
  { around with enclosing := { around.enclosing with loop := true } }

def inSwitch (around : Surroundings) : Surroundings :=
  { around with enclosing := { around.enclosing with switch := true } }

end Surroundings

namespace Stmt

mutual

def sites (around : Surroundings) (s : Stmt) : List Site :=
  ⟨around, s⟩ ::
    match s with
    | .block _ body => sitesAll around body
    | .if _ _ yes none => yes.sites around
    | .if _ _ yes (some other) => yes.sites around ++ other.sites around
    | .while _ _ body => body.sites around.inLoop
    | .switch _ _ clauses => sitesIn around.inSwitch clauses
    | .declare .. | .assign .. | .expr .. | .break _ | .continue _ => []

def sitesAll (around : Surroundings) : List Stmt → List Site
  | [] => []
  | s :: rest => s.sites around ++ sitesAll (around.after s) rest

def sitesIn (around : Surroundings) : List Clause → List Site
  | [] => []
  | .mk _ _ body :: rest => sitesAll around body ++ sitesIn around rest

end

end Stmt

namespace Program

def sites (p : Program) : List Site := Stmt.sitesAll .outermost p

def declared (p : Program) : List String := p.flatMap Stmt.declared

end Program

end Script
