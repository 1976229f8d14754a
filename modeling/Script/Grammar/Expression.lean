import Script.Grammar.Cursor
import Script.Tree.Basic

/-!
Reading expressions. Connectives bind at levels 1 (tightest) to 6, each level to the left; above
them stand the unary operators, then members, indices and calls. Expressions may be nested to any
depth here; a host reads them only as deep as its stack goes.
-/

namespace Script

inductive Connective
  | binary (op : BinaryOp)
  | logical (op : LogicalOp)
  deriving DecidableEq, Repr

namespace Connective

def ofOperator? : Operator → Option Connective
  | .times => some (.binary .mul)
  | .divide => some (.binary .div)
  | .modulo => some (.binary .rem)
  | .plus => some (.binary .add)
  | .minus => some (.binary .sub)
  | .lt => some (.binary .lt)
  | .le => some (.binary .le)
  | .gt => some (.binary .gt)
  | .ge => some (.binary .ge)
  | .eq => some (.binary .eq)
  | .ne => some (.binary .ne)
  | .strictEq => some (.binary .strictEq)
  | .strictNe => some (.binary .strictNe)
  | .and => some (.logical .and)
  | .or => some (.logical .or)
  | .assign => none
  | .not => none

def level : Connective → Nat
  | .binary .mul | .binary .div | .binary .rem => 1
  | .binary .add | .binary .sub => 2
  | .binary .lt | .binary .le | .binary .gt | .binary .ge => 3
  | .binary .eq | .binary .ne | .binary .strictEq | .binary .strictNe => 4
  | .logical .and => 5
  | .logical .or => 6

def loosest : Nat := 6

def join (pos : Pos) (left right : Expr) : Connective → Expr
  | .binary op => .binary pos op left right
  | .logical op => .logical pos op left right

def atLevel? (level : Nat) : Kind → Option Connective
  | .operator op => (ofOperator? op).filter (·.level = level)
  | _ => none

end Connective

def UnaryOp.ofKind? : Kind → Option UnaryOp
  | .operator .minus => some .neg
  | .operator .not => some .not
  | .keyword .typeof => some .typeof
  | _ => none

def Kind.name? : Kind → Option String
  | .identifier name => some name
  | _ => none

def Kind.atom? (pos : Pos) : Kind → Option Expr
  | .number x => some (.literal pos (.number x))
  | .string s => some (.literal pos (.string s))
  | .keyword .true => some (.literal pos (.boolean true))
  | .keyword .false => some (.literal pos (.boolean false))
  | .keyword .null => some (.literal pos .null)
  | .keyword .undefined => some (.literal pos .undefined)
  | .identifier name => some (.name pos name)
  | _ => none

namespace Grammar

mutual

/-- An expression whose connectives, outside brackets, bind at `level` or tighter. -/
def chain (level : Nat) (c : Cursor) : Parse Expr c.remaining :=
  match level with
  | 0 => unary c
  | tighter + 1 => do
    let left ← chain tighter c
    chainRest tighter left.value left.next left.shorter
termination_by (c.remaining, level + 3)
decreasing_by
  · exact .right _ (by omega)
  · exact .right _ (by omega)
  · exact .left _ _ left.shorter

/-- The connectives of the level after `tighter` that go on from `left`. -/
def chainRest (tighter : Nat) (left : Expr) (c : Cursor) {bound : Nat}
    (shorter : c.remaining < bound) : Parse Expr bound :=
  match c.takeAs (Connective.atLevel? (tighter + 1)) with
  | none => .ok ⟨left, c, shorter⟩
  | some connective => do
    let right ← chain tighter connective.next
    let (token, op) := connective.value
    chainRest tighter (op.join token.pos left right.value) right.next
      (Nat.lt_trans right.shorter (Nat.lt_trans connective.shorter shorter))
termination_by (c.remaining, 0)
decreasing_by
  · exact .left _ _ connective.shorter
  · exact .left _ _ (Nat.lt_trans right.shorter connective.shorter)

def unary (c : Cursor) : Parse Expr c.remaining :=
  match c.takeAs UnaryOp.ofKind? with
  | some op => do
    let operand ← unary op.next
    return (op.andThen operand).map (.unary op.value.1.pos op.value.2)
  | none => do
    let object ← primary c
    postfixRest object.value object.next object.shorter
termination_by (c.remaining, 2)
decreasing_by
  · exact .left _ _ op.shorter
  · exact .right _ (by omega)
  · exact .left _ _ object.shorter

def postfixRest (object : Expr) (c : Cursor) {bound : Nat} (shorter : c.remaining < bound) :
    Parse Expr bound :=
  match c.takeMark? .dot with
  | some dot => do
    let name ← dot.next.expectAs Kind.name? .propertyName
    postfixRest (.member dot.value.pos object name.value.2 name.value.1.pos) name.next
      (Nat.lt_trans name.shorter (Nat.lt_trans dot.shorter shorter))
  | none =>
    match c.takeMark? .openBracket with
    | some opening => do
      let position ← chain Connective.loosest opening.next
      let closing ← position.next.expectMark .closeBracket
      postfixRest (.index opening.value.pos object position.value) closing.next
        (Nat.lt_trans closing.shorter
          (Nat.lt_trans position.shorter (Nat.lt_trans opening.shorter shorter)))
    | none =>
      match c.takeMark? .openParen with
      | some opening => do
        let arguments ← items .closeParen opening.next
        postfixRest (.call opening.value.pos object arguments.value) arguments.next
          (Nat.lt_trans arguments.shorter (Nat.lt_trans opening.shorter shorter))
      | none => .ok ⟨object, c, shorter⟩
termination_by (c.remaining, 0)
decreasing_by
  · exact .left _ _ (Nat.lt_trans name.shorter dot.shorter)
  · exact .left _ _ opening.shorter
  · exact .left _ _
      (Nat.lt_trans closing.shorter (Nat.lt_trans position.shorter opening.shorter))
  · exact .left _ _ opening.shorter
  · exact .left _ _ (Nat.lt_trans arguments.shorter opening.shorter)

/-- Expressions up to `closing`, commas between them; a comma may also stand after the last. -/
def items (closing : Punct) (c : Cursor) : Parse (List Expr) c.remaining :=
  match c.takeMark? closing with
  | some close => .ok (close.give [])
  | none => do
    let item ← chain Connective.loosest c
    match item.next.takeMark? .comma with
    | some comma => do
      let more ← items closing comma.next
      return (item.andThen (comma.andThen more)).map (item.value :: ·)
    | none =>
      match item.next.takeMark? closing with
      | some close => .ok ((item.andThen close).give [item.value])
      | none => item.next.fail (.commaOr closing)
termination_by (c.remaining, Connective.loosest + 4)
decreasing_by
  · exact .right _ (by omega)
  · exact .left _ _ (Nat.lt_trans comma.shorter item.shorter)

def primary (c : Cursor) : Parse Expr c.remaining :=
  match c.takeAs (Kind.atom? c.token.pos) with
  | some atom => .ok (atom.map (·.2))
  | none =>
    match c.takeMark? .openBracket with
    | some opening => do
      let elements ← items .closeBracket opening.next
      return (opening.andThen elements).map (.array opening.value.pos)
    | none =>
      match c.takeMark? .openParen with
      | some opening => do
        let inner ← chain Connective.loosest opening.next
        let closing ← inner.next.expectMark .closeParen
        return (opening.andThen (inner.andThen closing)).give inner.value
      | none => c.fail .expression
termination_by (c.remaining, 1)
decreasing_by
  · exact .left _ _ opening.shorter
  · exact .left _ _ opening.shorter

end

def expression (c : Cursor) : Parse Expr c.remaining := chain Connective.loosest c

end Grammar

end Script
