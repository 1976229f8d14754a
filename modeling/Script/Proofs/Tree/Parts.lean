import Script.Execution

/-!
What stands in a tree: the operands of an expression or a statement, the statements in a statement,
and the places that a fault of a node itself can have.
-/

namespace Script

namespace Expr

def operands : Expr → List Expr
  | .literal .. | .name .. => []
  | .array _ items => items
  | .binary _ _ left right | .logical _ _ left right => [left, right]
  | .unary _ _ operand => [operand]
  | .member _ object _ _ => [object]
  | .index _ object position => [object, position]
  | .call _ callee arguments => callee :: arguments

/-- Whether this asks for the type of a name, which is read only if something is bound to it. -/
def asksName : Expr → Bool
  | .unary _ .typeof (.name ..) => true
  | _ => false

/-- The places that a fault of the expression itself can have. -/
def places : Expr → List Pos
  | .literal pos _ | .name pos _ | .array pos _ | .binary pos .. | .logical pos .. | .unary pos ..
  | .index pos .. | .call pos .. => [pos]
  | .member pos _ _ namePos => [pos, namePos]

inductive Part (part : Expr) : Expr → Prop
  | self : Part part part
  | operand {inner e : Expr} (inside : inner ∈ e.operands) (within : Part part inner) : Part part e

end Expr

namespace Target

def operands : Target → List Expr
  | .name .. => []
  | .index _ object position => [object, position]

def pos : Target → Pos
  | .name pos _ | .index pos .. => pos

end Target

namespace Stmt

/-- The expressions of a statement, but not those of the statements in it. -/
def operands : Stmt → List Expr
  | .declare _ _ _ value? => value?.toList
  | .assign _ target value => value :: target.operands
  | .expr _ value => [value]
  | .if _ test _ _ | .while _ test _ => [test]
  | .switch _ subject clauses => subject :: clauses.filterMap (·.test)
  | .block .. | .break _ | .continue _ => []

def inner : Stmt → List Stmt
  | .block _ body => body
  | .if _ _ yes no => yes :: no.toList
  | .while _ _ body => [body]
  | .switch _ _ clauses => clauses.flatMap (·.body)
  | .declare .. | .assign .. | .expr .. | .break _ | .continue _ => []

def places : Stmt → List Pos
  | .assign pos target _ => [pos, target.pos]
  | s => [s.pos]

inductive Part (part : Stmt) : Stmt → Prop
  | self : Part part part
  | inner {child s : Stmt} (inside : child ∈ s.inner) (within : Part part child) : Part part s

end Stmt

namespace Program

def Has (p : Program) (s : Stmt) : Prop := ∃ top ∈ p, s.Part top

def Uses (p : Program) (e : Expr) : Prop := ∃ s, p.Has s ∧ ∃ top ∈ s.operands, e.Part top

end Program

theorem Expr.Part.trans {inner part e : Expr} (first : inner.Part part) (second : part.Part e) :
    inner.Part e := by
  induction second with
  | self => exact first
  | operand inside _ again => exact .operand inside again

theorem Stmt.Part.trans {inner part s : Stmt} (first : inner.Part part) (second : part.Part s) :
    inner.Part s := by
  induction second with
  | self => exact first
  | inner inside _ again => exact .inner inside again

namespace Program

variable {p : Program}

theorem Has.of_mem {s : Stmt} (member : s ∈ p) : p.Has s := ⟨s, member, .self⟩

theorem Has.inner {s child : Stmt} (has : p.Has s) (inside : child ∈ s.inner) : p.Has child := by
  obtain ⟨top, member, part⟩ := has
  exact ⟨top, member, Stmt.Part.trans (.inner inside .self) part⟩

theorem Uses.of_operand {s : Stmt} {e : Expr} (has : p.Has s) (inside : e ∈ s.operands) :
    p.Uses e := ⟨s, has, e, inside, .self⟩

theorem Uses.operand {e inner : Expr} (uses : p.Uses e) (inside : inner ∈ e.operands) :
    p.Uses inner := by
  obtain ⟨s, has, top, member, part⟩ := uses
  exact ⟨s, has, top, member, Expr.Part.trans (.operand inside .self) part⟩

end Program

end Script
