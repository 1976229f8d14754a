import Script.Grammar.Statement

/-!
The grammar read by a walker along a row of tokens: an index, which moves in one place only, and
counts of the loops and switches around it. Nothing here bounds a loop or a recursion. A walk that
went on for ever, or looked for a token where there is none, would have no result.
-/

namespace Script

structure Row where
  tokens : List Token

structure Walker where
  index : Nat
  loops : Nat
  switches : Nat
  /-- Every index so far, the latest first. -/
  trail : List Nat

namespace Walker

def start : Walker := ⟨0, 0, 0, [0]⟩

def enterLoop (w : Walker) : Walker := { w with loops := w.loops + 1 }

def leaveLoop (w : Walker) : Walker := { w with loops := w.loops - 1 }

def enterSwitch (w : Walker) : Walker := { w with switches := w.switches + 1 }

def leaveSwitch (w : Walker) : Walker := { w with switches := w.switches - 1 }

end Walker

abbrev Walk := ExceptT ParseError (StateT Walker Option)

def Walk.result {α : Type} (walk : Walk α) (w : Walker) : Option (Except ParseError α × Walker) :=
  walk.run.run w

namespace Row

variable {α : Type}

def advanced (r : Row) (w : Walker) : Walker :=
  if w.index < r.tokens.length - 1 then
    { w with index := w.index + 1, trail := (w.index + 1) :: w.trail }
  else w

def token (r : Row) : Walk Token := do
  let w ← get
  let t ← r.tokens[w.index]?
  return t

def before (r : Row) : Walk Token := do
  let w ← get
  let t ← r.tokens[w.index - 1]?
  return t

def fail (r : Row) (expected : Expected) : Walk α := do
  throw ⟨expected, ← r.token⟩

def advance (r : Row) : Walk Token := do
  let t ← r.token
  modify r.advanced
  return t

def takeAs (r : Row) (read : Kind → Option α) : Walk (Option (Token × α)) := do
  let t ← r.token
  match read t.kind with
  | some a => return some (← r.advance, a)
  | none => return none

def take (r : Row) (kind : Kind) : Walk (Option Token) := do
  let t ← r.token
  if t.kind = kind then return some (← r.advance) else return none

def expectAs (r : Row) (read : Kind → Option α) (expected : Expected) : Walk (Token × α) := do
  match ← r.takeAs read with
  | some found => return found
  | none => r.fail expected

def expectMark (r : Row) (mark : Punct) : Walk Token := do
  match ← r.take (.punct mark) with
  | some t => return t
  | none => r.fail (.mark mark)

mutual

def chain (r : Row) (level : Nat) : Walk Expr :=
  match level with
  | 0 => r |>.unary
  | tighter + 1 => do
    let left ← r |>.chain tighter
    r |>.chainRest tighter left
partial_fixpoint

def chainRest (r : Row) (tighter : Nat) (left : Expr) : Walk Expr := do
  match ← r |>.chainTurn tighter left with
  | some longer => r |>.chainRest tighter longer
  | none => return left
partial_fixpoint

def chainTurn (r : Row) (tighter : Nat) (left : Expr) : Walk (Option Expr) := do
  match ← r.takeAs (Connective.atLevel? (tighter + 1)) with
  | some connective =>
    let right ← r |>.chain tighter
    return some (connective.2.join connective.1.pos left right)
  | none => return none
partial_fixpoint

def unary (r : Row) : Walk Expr := do
  match ← r.takeAs UnaryOp.ofKind? with
  | some op =>
    let operand ← r |>.unary
    return .unary op.1.pos op.2 operand
  | none =>
    let object ← r |>.primary
    r |>.postfixRest object
partial_fixpoint

def postfixRest (r : Row) (object : Expr) : Walk Expr := do
  match ← r |>.postfixTurn object with
  | some longer => r |>.postfixRest longer
  | none => return object
partial_fixpoint

def postfixTurn (r : Row) (object : Expr) : Walk (Option Expr) := do
  match ← r.take (.punct .dot) with
  | some dot =>
    let name ← r.expectAs Kind.name? .propertyName
    return some (.member dot.pos object name.2 name.1.pos)
  | none =>
    match ← r.take (.punct .openBracket) with
    | some opening =>
      let position ← r |>.chain Connective.loosest
      let _ ← r.expectMark .closeBracket
      return some (.index opening.pos object position)
    | none =>
      match ← r.take (.punct .openParen) with
      | some opening =>
        let arguments ← r |>.items .closeParen
        return some (.call opening.pos object arguments)
      | none => return none
partial_fixpoint

def items (r : Row) (closing : Punct) : Walk (List Expr) := do
  match ← r |>.itemsTurn closing with
  | some item =>
    let more ← r |>.items closing
    return item :: more
  | none =>
    let _ ← r.expectMark closing
    return []
partial_fixpoint

def itemsTurn (r : Row) (closing : Punct) : Walk (Option Expr) := do
  let t ← r.token
  if t.kind = .punct closing then return none
  else
    let item ← r |>.chain Connective.loosest
    match ← r.take (.punct .comma) with
    | some _ => return some item
    | none =>
      let t ← r.token
      if t.kind = .punct closing then return some item else r.fail (.commaOr closing)
partial_fixpoint

def primary (r : Row) : Walk Expr := do
  let t ← r.token
  match ← r.takeAs (Kind.atom? t.pos) with
  | some atom => return atom.2
  | none =>
    match ← r.take (.punct .openBracket) with
    | some opening =>
      let elements ← r |>.items .closeBracket
      return .array opening.pos elements
    | none =>
      match ← r.take (.punct .openParen) with
      | some _ =>
        let inner ← r |>.chain Connective.loosest
        let _ ← r.expectMark .closeParen
        return inner
      | none => r.fail .expression
partial_fixpoint

end

def expression (r : Row) : Walk Expr := r.chain Connective.loosest

def condition (r : Row) : Walk Expr := do
  let _ ← r.expectMark .openParen
  let test ← r.expression
  let _ ← r.expectMark .closeParen
  return test

def declaration (r : Row) (kind : DeclKind) (pos : Pos) : Walk Stmt := do
  let name ← r.expectAs Kind.name? .identifier
  match ← r.take (.operator .assign) with
  | some _ =>
    let value ← r.expression
    return .declare pos kind name.2 (some value)
  | none => if kind = .const then r.fail .initializer else return .declare pos kind name.2 none

def expressionOrAssignment (r : Row) : Walk Stmt := do
  let first ← r.token
  let left ← r.expression
  match ← r.take (.operator .assign) with
  | some equals =>
    match Target.ofExpr? left with
    | some target =>
      let value ← r.expression
      return .assign first.pos target value
    | none => throw ⟨.target, equals⟩
  | none => return .expr first.pos left

def ended (r : Row) (statement : Stmt) : Walk Stmt := do
  match ← r.take (.punct .semicolon) with
  | some _ => return statement
  | none =>
    let t ← r.token
    let last ← r.before
    if t.kind = .punct .closeBrace ∨ t.kind = .endOfInput ∨ last.pos.line < t.pos.line then
      return statement
    else r.fail (.mark .semicolon)

def simple (r : Row) : Walk Stmt := do
  match ← r.takeAs Grammar.declKind? with
  | some word =>
    let statement ← r.declaration word.2 word.1.pos
    r.ended statement
  | none =>
    match ← r.take (.keyword .break) with
    | some word =>
      let w ← get
      if w.loops = 0 ∧ w.switches = 0 then throw ⟨.breakable, word⟩ else r.ended (.break word.pos)
    | none =>
      match ← r.take (.keyword .continue) with
      | some word =>
        let w ← get
        if w.loops = 0 then throw ⟨.repeatable, word⟩ else r.ended (.continue word.pos)
      | none =>
        let statement ← r.expressionOrAssignment
        r.ended statement

mutual

/-- The counts go down again whether what they count is read or fails. -/
def statement (r : Row) : Walk Stmt := do
  match ← r.take (.punct .semicolon) with
  | some mark => return .block mark.pos []
  | none =>
    match ← r.take (.punct .openBrace) with
    | some opening =>
      let body ← r |>.block
      return .block opening.pos body
    | none =>
      match ← r.take (.keyword .if) with
      | some word =>
        let test ← r.condition
        let yes ← r |>.statement
        match ← r.take (.keyword .else) with
        | some _ =>
          let no ← r |>.statement
          return .if word.pos test yes (some no)
        | none => return .if word.pos test yes none
      | none =>
        match ← r.take (.keyword .while) with
        | some word =>
          let test ← r.condition
          let body ← (show StateT Walker Option (Except ParseError Stmt) from do
            modify Walker.enterLoop
            let body ← (r |>.statement).run
            modify Walker.leaveLoop
            return body)
          return .while word.pos test body
        | none =>
          match ← r.take (.keyword .switch) with
          | some word =>
            let subject ← r.condition
            let _ ← r.expectMark .openBrace
            let cases ← (show StateT Walker Option (Except ParseError (List Clause)) from do
              modify Walker.enterSwitch
              let cases ← (r |>.clauses false).run
              modify Walker.leaveSwitch
              return cases)
            let _ ← r.expectMark .closeBrace
            return .switch word.pos subject cases
          | none => r.simple
partial_fixpoint

def block (r : Row) : Walk (List Stmt) := do
  match ← r |>.blockTurn with
  | some first =>
    let more ← r |>.block
    return first :: more
  | none =>
    let _ ← r.expectMark .closeBrace
    return []
partial_fixpoint

def blockTurn (r : Row) : Walk (Option Stmt) := do
  let t ← r.token
  if t.kind = .punct .closeBrace then return none
  else if t.kind = .endOfInput then r.fail (.mark .closeBrace)
  else
    let s ← r |>.statement
    return some s
partial_fixpoint

def clauses (r : Row) (seenDefault : Bool) : Walk (List Clause) := do
  match ← r |>.clauseTurn seenDefault with
  | some first =>
    let more ← r |>.clauses first.2
    return first.1 :: more
  | none => return []
partial_fixpoint

def clauseTurn (r : Row) (seenDefault : Bool) : Walk (Option (Clause × Bool)) := do
  let t ← r.token
  if t.kind = .punct .closeBrace then return none
  else
    match ← r.take (.keyword .case) with
    | some word =>
      let test ← r.expression
      let _ ← r.expectMark .colon
      let body ← r |>.clauseBody
      return some (.mk word.pos (some test) body, seenDefault)
    | none =>
      if t.kind = .keyword .default then
        if seenDefault then throw ⟨.singleDefault, t⟩
        else
          let word ← r.advance
          let _ ← r.expectMark .colon
          let body ← r |>.clauseBody
          return some (.mk word.pos none body, true)
      else r.fail .clause
partial_fixpoint

def clauseBody (r : Row) : Walk (List Stmt) := do
  match ← r |>.bodyTurn with
  | some first =>
    let more ← r |>.clauseBody
    return first :: more
  | none => return []
partial_fixpoint

def bodyTurn (r : Row) : Walk (Option Stmt) := do
  let t ← r.token
  if Grammar.endsClause t.kind then return none
  else
    let s ← r |>.statement
    return some s
partial_fixpoint

end

def programTurn (r : Row) : Walk (Option Stmt) := do
  let t ← r.token
  if t.kind = .endOfInput then return none
  else
    let s ← r.statement
    return some s

def program (r : Row) : Walk Program := do
  match ← r.programTurn with
  | some first =>
    let more ← r |>.program
    return first :: more
  | none => return []
partial_fixpoint

end Row

end Script
