import Script.Grammar.Expression

/-!
Reading statements. A simple statement ends with `;`, or without one before `}`, at the end of input
and before a token of a later line. What encloses a statement decides whether `break` and
`continue` may stand there.
-/

namespace Script

structure Enclosing where
  loop : Bool
  switch : Bool
  deriving DecidableEq, Repr

namespace Grammar

def declKind? : Kind → Option DeclKind
  | .keyword .var => some .var
  | .keyword .let => some .let
  | .keyword .const => some .const
  | _ => none

def declaration (kind : DeclKind) (pos : Pos) (c : Cursor) : Parse Stmt c.remaining := do
  let name ← c.expectAs Kind.name? .identifier
  match name.next.take? (.operator .assign) with
  | some equals => do
    let value ← expression equals.next
    return (name.andThen (equals.andThen value)).map fun e =>
      .declare pos kind name.value.2 (some e)
  | none =>
    if kind = .const then name.next.fail .initializer
    else return name.give (.declare pos kind name.value.2 none)

def expressionOrAssignment (c : Cursor) : Parse Stmt c.remaining := do
  let left ← expression c
  match left.next.take? (.operator .assign) with
  | some equals =>
    match Target.ofExpr? left.value with
    | some target => do
      let value ← expression equals.next
      return (left.andThen (equals.andThen value)).map (.assign c.token.pos target)
    | none => .error ⟨.target, equals.value⟩
  | none => return left.map (.expr c.token.pos)

/-- The statement with the `;` after it, if one is there or has to be. -/
def ended {bound : Nat} (statement : Step Stmt bound) : Parse Stmt bound :=
  let c := statement.next
  match c.takeMark? .semicolon with
  | some mark => .ok ((statement.andThen mark).give statement.value)
  | none =>
    if c.kind = .punct .closeBrace ∨ c.kind = .endOfInput ∨ c.line < c.token.pos.line then
      .ok statement
    else c.fail (.mark .semicolon)

def simple (enclosing : Enclosing) (c : Cursor) : Parse Stmt c.remaining := do
  match c.takeAs declKind? with
  | some word =>
    let statement ← declaration word.value.2 word.value.1.pos word.next
    ended (word.andThen statement)
  | none =>
    match c.take? (.keyword .break) with
    | some word =>
      if enclosing.loop || enclosing.switch then ended (word.map (.break ·.pos))
      else .error ⟨.breakable, word.value⟩
    | none =>
      match c.take? (.keyword .continue) with
      | some word =>
        if enclosing.loop then ended (word.map (.continue ·.pos))
        else .error ⟨.repeatable, word.value⟩
      | none =>
        let statement ← expressionOrAssignment c
        ended statement

def condition (c : Cursor) : Parse Expr c.remaining := do
  let opening ← c.expectMark .openParen
  let test ← expression opening.next
  let closing ← test.next.expectMark .closeParen
  return (opening.andThen (test.andThen closing)).give test.value

def endsClause (kind : Kind) : Bool :=
  kind = .keyword .case ∨ kind = .keyword .default ∨ kind = .punct .closeBrace ∨
    kind = .endOfInput

mutual

def statement (enclosing : Enclosing) (c : Cursor) : Parse Stmt c.remaining :=
  match c.takeMark? .semicolon with
  | some mark => .ok (mark.map (.block ·.pos []))
  | none =>
    match c.takeMark? .openBrace with
    | some opening => do
      let body ← block enclosing opening.next
      return (opening.andThen body).map (.block opening.value.pos)
    | none =>
      match c.take? (.keyword .if) with
      | some word => do
        let test ← condition word.next
        let yes ← statement enclosing test.next
        match yes.next.take? (.keyword .else) with
        | some other => do
          let no ← statement enclosing other.next
          return (word.andThen (test.andThen (yes.andThen (other.andThen no)))).map fun s =>
            .if word.value.pos test.value yes.value (some s)
        | none =>
          return (word.andThen (test.andThen yes)).map fun s =>
            .if word.value.pos test.value s none
      | none =>
        match c.take? (.keyword .while) with
        | some word => do
          let test ← condition word.next
          let body ← statement { enclosing with loop := true } test.next
          return (word.andThen (test.andThen body)).map (.while word.value.pos test.value)
        | none =>
          match c.take? (.keyword .switch) with
          | some word => do
            let subject ← condition word.next
            let opening ← subject.next.expectMark .openBrace
            let cases ← clauses { enclosing with switch := true } false opening.next
            return (word.andThen (subject.andThen (opening.andThen cases))).map
              (.switch word.value.pos subject.value)
          | none => simple enclosing c
termination_by (c.remaining, 0)
decreasing_by
  · exact .left _ _ opening.shorter
  · exact .left _ _ (Nat.lt_trans test.shorter word.shorter)
  · exact .left _ _ (Nat.lt_trans other.shorter
      (Nat.lt_trans yes.shorter (Nat.lt_trans test.shorter word.shorter)))
  · exact .left _ _ (Nat.lt_trans test.shorter word.shorter)
  · exact .left _ _ (Nat.lt_trans opening.shorter (Nat.lt_trans subject.shorter word.shorter))

def block (enclosing : Enclosing) (c : Cursor) : Parse (List Stmt) c.remaining :=
  match c.takeMark? .closeBrace with
  | some closing => .ok (closing.give [])
  | none =>
    if c.kind = .endOfInput then c.fail (.mark .closeBrace)
    else do
      let first ← statement enclosing c
      let more ← block enclosing first.next
      return (first.andThen more).map (first.value :: ·)
termination_by (c.remaining, 1)
decreasing_by
  · exact .right _ (by omega)
  · exact .left _ _ first.shorter

/-- The clauses up to a closing brace, among them at most one default. -/
def clauses (enclosing : Enclosing) (seenDefault : Bool) (c : Cursor) :
    Parse (List Clause) c.remaining :=
  match c.takeMark? .closeBrace with
  | some closing => .ok (closing.give [])
  | none =>
    match c.take? (.keyword .case) with
    | some word => do
      let test ← expression word.next
      let colon ← test.next.expectMark .colon
      let body ← clauseBody enclosing colon.next colon.shorter
      let more ← clauses enclosing seenDefault body.next
      return (word.andThen (test.andThen (body.andThen more))).map
        (.mk word.value.pos (some test.value) body.value :: ·)
    | none =>
      match c.take? (.keyword .default) with
      | some word =>
        if seenDefault then .error ⟨.singleDefault, word.value⟩
        else do
          let colon ← word.next.expectMark .colon
          let body ← clauseBody enclosing colon.next colon.shorter
          let more ← clauses enclosing true body.next
          return (word.andThen (body.andThen more)).map
            (.mk word.value.pos none body.value :: ·)
      | none => c.fail .clause
termination_by (c.remaining, 0)
decreasing_by
  · exact .left _ _ (Nat.lt_trans colon.shorter (Nat.lt_trans test.shorter word.shorter))
  · exact .left _ _ (Nat.lt_trans body.shorter (Nat.lt_trans test.shorter word.shorter))
  · exact .left _ _ (Nat.lt_trans colon.shorter word.shorter)
  · exact .left _ _ (Nat.lt_trans body.shorter word.shorter)

def clauseBody (enclosing : Enclosing) (c : Cursor) {bound : Nat}
    (shorter : c.remaining < bound) : Parse (List Stmt) bound :=
  if endsClause c.kind then .ok ⟨[], c, shorter⟩
  else do
    let first ← statement enclosing c
    let more ← clauseBody enclosing first.next (Nat.lt_trans first.shorter shorter)
    return more.map (first.value :: ·)
termination_by (c.remaining, 1)
decreasing_by
  · exact .right _ (by omega)
  · exact .left _ _ first.shorter

end

def program (c : Cursor) : Except ParseError Program :=
  if c.kind = .endOfInput then .ok []
  else do
    let first ← statement ⟨false, false⟩ c
    let more ← program first.next
    return first.value :: more
termination_by c.remaining
decreasing_by exact first.shorter

end Grammar

/-- Why tokens cannot be read: the end of input is not the last of them, or they are wrong. -/
inductive ParseFailure
  | noEnd
  | wrong (error : ParseError)

def Program.ofTokens (tokens : List Token) : Except ParseFailure Program :=
  match Cursor.ofTokens? tokens with
  | none => .error .noEnd
  | some c =>
    match Grammar.program c with
    | .ok p => .ok p
    | .error e => .error (.wrong e)

end Script
