import Script.Evaluation

/-!
What statements do. `fuel` bounds the turns of each loop; under a limit of fewer turns it is never
used up.
-/

namespace Script

namespace Stmt

def pos : Stmt → Pos
  | .declare pos .. | .assign pos .. | .expr pos _ | .block pos _ | .if pos .. | .while pos ..
  | .switch pos .. | .break pos | .continue pos => pos

def isBlock : Stmt → Bool
  | .block .. => true
  | _ => false

end Stmt

namespace Run

def declare (pos : Pos) (b : Binding) : Run Unit := do
  let m ← get
  let scopes ← ofResult pos (m.scopes.define b)
  set { m with scopes }

def assignName (pos : Pos) (name : String) (v : Value) : Run Unit := do
  let m ← get
  if (m.scopes.chain.find? name).isNone && (Library.named? name).isSome then
    throw (.fault (.library name) pos)
  else
    let scopes ← ofResult pos (m.scopes.assign name v)
    set { m with scopes }

def assignItem (pos : Pos) (object index v : Value) : Run Unit := do
  match object with
  | .array ref =>
    let n ← ofResult pos index.place
    let size := ((← get).heap.items ref).size
    if size < n then throw (.fault (.indexPastEnd n size) pos)
    else modify fun m => { m with heap := m.heap.write ref n v }
  | _ => throw (.fault (.notIndexAssignable object.type) pos)

def assign (v : Value) : Target → Run Unit
  | .name pos name => assignName pos name v
  | .index pos object position => do
    let a ← object.eval
    let b ← position.eval
    assignItem pos a b v

def poll (pos : Pos) (turns : Nat) : Run Unit := do
  modify fun m => { m with turns := m.turns.ask }
  if (← get).turns.isOver then throw (.cancelled turns pos)

def begin : Run Unit := modify fun m => { m with turns := m.turns.begin }

def loop (pos : Pos) (test : Run Value) (body : Run Signal) (turns : Nat) : Nat → Run Nat
  | 0 => throw .unfinished
  | fuel + 1 => do
    let v ← test
    if v.isTruthy then
      poll pos turns
      begin
      match ← body with
      | .break => return turns + 1
      | _ => loop pos test body (turns + 1) fuel
    else return turns

/-- A branch has a scope of its own, with braces or without. -/
def branch (s : Stmt) (run : Run Signal) : Run Signal :=
  if s.isBlock then run else inScope run

def matching? (subject : Value) : List Clause → Run (Option Nat)
  | [] => return none
  | .mk _ none _ :: rest => do
    return (← matching? subject rest).map (· + 1)
  | .mk _ (some test) _ :: rest => do
    if subject.strictEquals (← test.eval) then return some 0
    else return (← matching? subject rest).map (· + 1)

end Run

namespace Clause

/-- The clause to begin with: the one that matches, else the default. -/
def entry? (subject : Value) (clauses : List Clause) : Run (Option Nat) := do
  match ← Run.matching? subject clauses with
  | some n => return some n
  | none => return clauses.findIdx? (·.test.isNone)

end Clause

namespace Stmt

mutual

def exec (fuel : Nat) (s : Stmt) : Run Signal := do
  Run.note (.statement s.pos.line s.type)
  match s with
  | .declare pos kind name value? =>
    let value ← match value? with | some e => e.eval | none => pure .undefined
    Run.declare pos ⟨name, value, kind = .const⟩
    return .normal
  | .assign _ target value =>
    let v ← value.eval
    Run.assign v target
    return .normal
  | .expr _ value =>
    let v ← value.eval
    modify fun m => { m with last := v }
    return .normal
  | .block _ body => Run.inScope (execAll fuel body)
  | .if _ test yes no =>
    if (← test.eval).isTruthy then Run.branch yes (yes.exec fuel)
    else
      match no with
      | some other => Run.branch other (other.exec fuel)
      | none => return .normal
  | .while pos test body =>
    let turns ← Run.loop pos test.eval (Run.branch body (body.exec fuel)) 0 fuel
    Run.note (.loopDone pos.line turns)
    return .normal
  | .switch _ subject clauses =>
    let v ← subject.eval
    match ← Clause.entry? v clauses with
    | none => return .normal
    | some n =>
      match ← Run.inScope (execFrom fuel n clauses) with
      | .break => return .normal
      | signal => return signal
  | .break _ => return .break
  | .continue _ => return .continue

def execAll (fuel : Nat) : List Stmt → Run Signal
  | [] => return .normal
  | s :: rest => do
    match ← s.exec fuel with
    | .normal => execAll fuel rest
    | signal => return signal

/-- The statements of the clauses from the `n`th on. -/
def execFrom (fuel : Nat) (n : Nat) : List Clause → Run Signal
  | [] => return .normal
  | .mk _ _ body :: rest =>
    match n with
    | n + 1 => execFrom fuel n rest
    | 0 => do
      match ← execAll fuel body with
      | .normal => execFrom fuel 0 rest
      | signal => return signal

end

end Stmt

end Script
