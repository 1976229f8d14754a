import Script.Execution

/-!
A tree at other places. Nothing but the places of its nodes changes.
-/

namespace Script

/-- All places are taken for one: trees moved so are the same but for the places of their nodes. -/
def Pos.nowhere (_ : Pos) : Pos := .start

variable (f : Pos → Pos)

namespace Expr

mutual

def moved : Expr → Expr
  | .literal pos value => .literal (f pos) value
  | .name pos text => .name (f pos) text
  | .array pos items => .array (f pos) (movedAll items)
  | .binary pos op left right => .binary (f pos) op left.moved right.moved
  | .logical pos op left right => .logical (f pos) op left.moved right.moved
  | .unary pos op operand => .unary (f pos) op operand.moved
  | .member pos object text namePos => .member (f pos) object.moved text (f namePos)
  | .index pos object position => .index (f pos) object.moved position.moved
  | .call pos callee arguments => .call (f pos) callee.moved (movedAll arguments)

def movedAll : List Expr → List Expr
  | [] => []
  | e :: rest => e.moved :: movedAll rest

end

end Expr

def Target.moved : Target → Target
  | .name pos text => .name (f pos) text
  | .index pos object position => .index (f pos) (object.moved f) (position.moved f)

mutual

def Stmt.moved : Stmt → Stmt
  | .declare pos kind text value? => .declare (f pos) kind text (value?.map (·.moved f))
  | .assign pos target value => .assign (f pos) (target.moved f) (value.moved f)
  | .expr pos value => .expr (f pos) (value.moved f)
  | .block pos body => .block (f pos) (Stmt.movedAll body)
  | .if pos test yes none => .if (f pos) (test.moved f) yes.moved none
  | .if pos test yes (some no) => .if (f pos) (test.moved f) yes.moved (some no.moved)
  | .while pos test body => .while (f pos) (test.moved f) body.moved
  | .switch pos subject clauses => .switch (f pos) (subject.moved f) (Clause.movedAll clauses)
  | .break pos => .break (f pos)
  | .continue pos => .continue (f pos)

def Stmt.movedAll : List Stmt → List Stmt
  | [] => []
  | s :: rest => s.moved :: Stmt.movedAll rest

def Clause.movedAll : List Clause → List Clause
  | [] => []
  | .mk pos test? body :: rest =>
    .mk (f pos) (test?.map (·.moved f)) (Stmt.movedAll body) :: Clause.movedAll rest

end

def Program.moved (p : Program) : Program := Stmt.movedAll f p

variable {f}

section Twice

variable {g : Pos → Pos}

mutual

theorem Expr.moved_moved : ∀ e : Expr, (e.moved f).moved g = e.moved (g ∘ f)
  | .literal .. | .name .. => rfl
  | .array _ items => by
      simp only [Expr.moved, Expr.movedAll_movedAll items, Function.comp]
  | .binary _ _ left right | .logical _ _ left right => by
      simp only [Expr.moved, left.moved_moved, right.moved_moved, Function.comp]
  | .unary _ _ operand => by
      simp only [Expr.moved, operand.moved_moved, Function.comp]
  | .member _ object _ _ => by
      simp only [Expr.moved, object.moved_moved, Function.comp]
  | .index _ object position => by
      simp only [Expr.moved, object.moved_moved, position.moved_moved, Function.comp]
  | .call _ callee arguments => by
      simp only [Expr.moved, callee.moved_moved, Expr.movedAll_movedAll arguments, Function.comp]

theorem Expr.movedAll_movedAll : ∀ es : List Expr,
    Expr.movedAll g (Expr.movedAll f es) = Expr.movedAll (g ∘ f) es
  | [] => rfl
  | e :: rest => by
      simp only [Expr.movedAll, e.moved_moved, Expr.movedAll_movedAll rest]

end

theorem Target.moved_moved (target : Target) : (target.moved f).moved g = target.moved (g ∘ f) := by
  cases target <;> simp only [Target.moved, Expr.moved_moved, Function.comp]

mutual

theorem Stmt.moved_moved : ∀ s : Stmt, (s.moved f).moved g = s.moved (g ∘ f)
  | .declare _ _ _ none | .break _ | .continue _ => rfl
  | .declare _ _ _ (some value) => by
      simp only [Stmt.moved, Option.map_some, value.moved_moved, Function.comp]
  | .assign _ target value => by
      simp only [Stmt.moved, target.moved_moved, value.moved_moved, Function.comp]
  | .expr _ value => by
      simp only [Stmt.moved, value.moved_moved, Function.comp]
  | .block _ body => by
      simp only [Stmt.moved, Stmt.movedAll_movedAll body, Function.comp]
  | .if _ test yes none => by
      simp only [Stmt.moved, test.moved_moved, yes.moved_moved, Function.comp]
  | .if _ test yes (some no) => by
      simp only [Stmt.moved, test.moved_moved, yes.moved_moved, no.moved_moved, Function.comp]
  | .while _ test body => by
      simp only [Stmt.moved, test.moved_moved, body.moved_moved, Function.comp]
  | .switch _ subject clauses => by
      simp only [Stmt.moved, subject.moved_moved, Clause.movedAll_movedAll clauses, Function.comp]

theorem Stmt.movedAll_movedAll : ∀ body : List Stmt,
    Stmt.movedAll g (Stmt.movedAll f body) = Stmt.movedAll (g ∘ f) body
  | [] => rfl
  | s :: rest => by
      simp only [Stmt.movedAll, s.moved_moved, Stmt.movedAll_movedAll rest]

theorem Clause.movedAll_movedAll : ∀ clauses : List Clause,
    Clause.movedAll g (Clause.movedAll f clauses) = Clause.movedAll (g ∘ f) clauses
  | [] => rfl
  | .mk _ none body :: rest => by
      simp only [Clause.movedAll, Option.map_none, Stmt.movedAll_movedAll body,
        Clause.movedAll_movedAll rest, Function.comp]
  | .mk _ (some test) body :: rest => by
      simp only [Clause.movedAll, Option.map_some, test.moved_moved, Stmt.movedAll_movedAll body,
        Clause.movedAll_movedAll rest, Function.comp]

end

end Twice

theorem Stmt.isBlock_moved (s : Stmt) : (s.moved f).isBlock = s.isBlock := by
  cases s with
  | «if» pos test yes no => cases no <;> rfl
  | _ => rfl

theorem Clause.findDefault_moved (clauses : List Clause) :
    (Clause.movedAll f clauses).findIdx? (·.test.isNone) =
      clauses.findIdx? (·.test.isNone) := by
  induction clauses with
  | nil => rfl
  | cons clause rest again =>
      obtain ⟨pos, test?, body⟩ := clause
      simp only [Clause.movedAll, List.findIdx?_cons, again]
      cases test? <;> rfl

end Script
