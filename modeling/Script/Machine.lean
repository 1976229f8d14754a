import Script.Scope.Basic
import Script.Tree.Basic
import Script.Value.Heap

/-!
The state of a running program, kept also when the run stops. The trace is always written, so that
reading it or not cannot change a run. `output` is both the lines that are kept of a program's run and
the stream that they go to. The two are one: `print` is all that adds to either, a line to both, so
that at every moment the stream holds the kept lines, each ended.
-/

namespace Script

/-- The loop turns of a run, all loops together: how many were asked for, how many were begun, and
how many it may take. -/
structure Turns where
  asked : Nat
  begun : Nat
  limit : Option Nat
  deriving DecidableEq, Repr

namespace Turns

def unlimited : Turns := ⟨0, 0, none⟩

/-- Zero and less stand for no limit. -/
def ofLimit (n : Int) : Turns := ⟨0, 0, if n ≤ 0 then none else some n.toNat⟩

def ask (t : Turns) : Turns := { t with asked := t.asked + 1 }

def begin (t : Turns) : Turns := { t with begun := t.begun + 1 }

def isOver (t : Turns) : Bool := t.limit.any (· < t.asked)

def answers (t : Turns) : Nat → List Bool
  | 0 => []
  | n + 1 => t.ask.isOver :: answers t.ask n

end Turns

inductive Event
  | statement (line : Nat) (type : String)
  | loopDone (line turns : Nat)
  deriving DecidableEq, Repr

structure Machine where
  scopes : Scopes
  heap : Heap
  output : Array String
  trace : Array Event
  /-- The value of the last expression statement. -/
  last : Value
  turns : Turns

inductive Signal
  | normal | «break» | «continue»
  deriving DecidableEq, Repr

inductive Stop
  | fault (cause : Fault) (pos : Pos)
  | cancelled (turns : Nat) (pos : Pos)
  | domain
  /-- A loop without a limit has used up its turns. -/
  | unfinished
  deriving DecidableEq

abbrev Run := EStateM Stop Machine

namespace Machine

def start : Machine :=
  ⟨⟨[], []⟩, .empty, #[], #[], .undefined, .unlimited⟩

def lookup? (m : Machine) (name : String) : Option Value :=
  match m.scopes.chain.find? name with
  | some b => some b.value
  | none => (Library.named? name).map .library

end Machine

namespace Run

def refuse {α : Type} (pos : Pos) : Refusal → Run α
  | .fault cause => throw (.fault cause pos)
  | .domain => throw .domain

def ofResult {α : Type} (pos : Pos) : Except Fault α → Run α
  | .ok a => pure a
  | .error cause => throw (.fault cause pos)

def ofAnswer {α : Type} (pos : Pos) : Except Refusal α → Run α
  | .ok a => pure a
  | .error refusal => refuse pos refusal

def note (event : Event) : Run Unit :=
  modify fun m => { m with trace := m.trace.push event }

def print (line : String) : Run Unit :=
  -- kept and, in the same step, written to the stream
  modify fun m => { m with output := m.output.push line }

/-- Runs in a scope of its own, which is left however the run ends. -/
def inScope {α : Type} (run : Run α) : Run α := fun m =>
  match run { m with scopes := m.scopes.enter } with
  | .ok a m => .ok a { m with scopes := m.scopes.leave }
  | .error stop m => .error stop { m with scopes := m.scopes.leave }

end Run

end Script
