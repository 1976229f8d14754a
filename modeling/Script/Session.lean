import Script.Execution
import Script.Report

/-!
Running programs one after another on one machine. A limit is counted anew for each of them; what
they bind and the value they leave stay.
-/

namespace Script

/-- The turns that every loop may take: more than the run may, or more than any loop takes. -/
def Turns.fuel (t : Turns) : Nat :=
  match t.limit with
  | some n => n + 1
  | none => Nat.pow 2 62

namespace Program

def run (fuel : Nat) : Program → Run Unit
  | [] => return
  | s :: rest => do
    modify fun m => { m with last := .undefined }
    let _ ← s.exec fuel
    run fuel rest

structure Reading where
  tokens : Option Nat
  result : Except Problem Program

def reading (source : String) : Reading :=
  match (Token.scan source).toExcept with
  | .error e => ⟨none, .error (.lex e)⟩
  | .ok tokens =>
    match Program.ofTokens tokens with
    | .error failure => ⟨some tokens.length, .error (.parse failure)⟩
    | .ok p => ⟨some tokens.length, .ok p⟩

def read (source : String) : Except Problem Program := (reading source).result

end Program

namespace Machine

/-- The machine before its next program: nothing printed, nothing traced, no turns taken. -/
def ready (m : Machine) (limit : Int) : Machine :=
  { m with output := #[], trace := #[], turns := .ofLimit limit }

def apply {α : Type} (m : Machine) (run : Run α) : Machine × Except Stop α :=
  match run m with
  | .ok a m => (m, .ok a)
  | .error stop m => (m, .error stop)

def runProgramWithin (fuel : Nat) (m : Machine) (p : Program) : Machine × Option Stop :=
  match m.apply (p.run fuel) with
  | (m, .ok ()) => (m, none)
  | (m, .error stop) => (m, some stop)

def runProgram (m : Machine) (p : Program) : Machine × Option Stop :=
  m.runProgramWithin m.turns.fuel p

/-- Reads and runs a text; one that cannot be read changes nothing. -/
def runSourceWithin (fuel : Nat) (m : Machine) (source : String) : Machine × Option Problem :=
  match Program.read source with
  | .error problem => (m, some problem)
  | .ok p =>
    let (m, stop?) := m.runProgramWithin fuel p
    (m, stop?.map .stop)

def runSource (m : Machine) (source : String) : Machine × Option Problem :=
  m.runSourceWithin m.turns.fuel source

def runSources (limit : Int) (m : Machine) : List String → List (Machine × Option Problem)
  | [] => []
  | source :: rest =>
    let step := (m.ready limit).runSource source
    step :: step.1.runSources limit rest

end Machine

end Script
