import Script.CommandLine.File

/-!
Lines read and run one by one on one machine. A line that fails says why; one that leaves a value
shows it.
-/

namespace Script

namespace Repl

def greeting : List String :=
  ["Welcome to the gojo REPL", "Type 'exit' or 'quit' to leave", ""]

def prompt : String := ">>> "

structure Reply where
  machine : Machine
  out : List String
  log : List LogRecord
  broken : Bool

def echo (m : Machine) : List String :=
  if m.last = .undefined then [] else [m.last.inspect m.heap]

def answer (maxTurns : Nat) (m : Machine) (line : String) : Reply :=
  let reading := Program.reading line
  let m := m.ready maxTurns
  match reading.result with
  | .error problem => ⟨m, [problem.report.text], LogRecord.ofReading reading, false⟩
  | .ok p =>
    let (m, stop?) := m.runProgram p
    let log := LogRecord.ofReading reading ++ LogRecord.ofTrace m
    let out := m.output.toList
    match stop? with
    | none => ⟨m, out ++ echo m, log, false⟩
    | some .domain => ⟨m, out, log, true⟩
    | some stop => ⟨m, out ++ [stop.report.text], log, false⟩

def isBlank (line : String) : Bool := (Text.trim line.toList).isEmpty

def isLeaving (line : String) : Bool :=
  let word := String.ofList (Text.trim line.toList)
  word = "exit" || word = "quit"

structure Transcript where
  out : String
  log : List LogRecord
  broken : Bool

/-- Answers lines up to one that leaves, or the end of input. Every line has a prompt before it. -/
def session (maxTurns : Nat) (m : Machine) : List String → Transcript
  | [] => ⟨prompt, [], false⟩
  | line :: rest =>
    if isLeaving line then ⟨prompt, [], false⟩
    else if isBlank line then
      let more := session maxTurns m rest
      { more with out := prompt ++ more.out }
    else
      let reply := answer maxTurns m line
      let out := prompt ++ Outcome.joined reply.out
      if reply.broken then ⟨out, reply.log, true⟩
      else
        let more := session maxTurns reply.machine rest
        ⟨out ++ more.out, reply.log ++ more.log, more.broken⟩

def lines (input : String) : List String :=
  (Text.newlineLines (Text.universal input.toList)).map String.ofList

def run (maxTurns : Nat) (input : String) : Transcript :=
  session maxTurns .start (lines input)

end Repl

end Script
