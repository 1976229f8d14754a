import Script.CommandLine.Files
import Script.CommandLine.Log
import Script.Text.Lines
import Script.Tree.Dump

/-!
Running a file: its output, and what is said of it beside the output. The lines of the machine's
`output` are what has gone to the stream, also when the run stops or breaks.
-/

namespace Script

/-- What a call breaks at that is no fault of its program. -/
inductive Breakdown
  | domain
  | limit
  deriving DecidableEq, Repr

def Breakdown.message : Breakdown → String
  | .domain => Refusal.domainMessage
  | .limit => "--max-iterations has no value"

inductive Exit
  | status (code : Nat)
  | broken (cause : Breakdown)
  deriving DecidableEq, Repr

structure Outcome where
  exit : Exit
  out : List String
  err : List String
  deriving DecidableEq, Repr

namespace Outcome

def joined (lines : List String) : String := String.join (lines.map (· ++ "\n"))

def refused (message : String) : Outcome := ⟨.status 2, [], [s!"Error: {message}"]⟩

end Outcome

def fileText (contents : String) : String := String.ofList (Text.universal contents.toList)

/-- How the run of a program that was read comes out. -/
def fileOutcome (level : LogLevel) (before : List LogRecord) (after : LogRecord)
    (dump : List String) (ran : Machine × Option Stop) : Outcome :=
  let (m, stop?) := ran
  let out := dump ++ m.output.toList
  let log := before ++ LogRecord.ofTrace m
  match stop? with
  | none => ⟨.status 0, out, LogRecord.shown level (log ++ [after])⟩
  | some .domain => ⟨.broken .domain, out, LogRecord.shown level log⟩
  | some stop => ⟨.status 1, out, LogRecord.shown level log ++ [stop.report.text]⟩

def runText (settings : Settings) (dumpTree : Bool) (name source : String) : Outcome :=
  let level := settings.logLevel
  let reading := Program.reading source
  let before :=
    LogRecord.info s!"running {name} ({source.length} characters)" :: LogRecord.ofReading reading
  match reading.result with
  | .error problem => ⟨.status 1, [], LogRecord.shown level before ++ [problem.report.text]⟩
  | .ok p =>
    let ran := (Machine.start.ready settings.maxTurns).runProgram p
    let after := LogRecord.info s!"finished {name}, {ran.1.output.size} line(s) of output"
    fileOutcome level before after (if dumpTree then [p.dump.write 0] else []) ran

def runFile (settings : Settings) (dumpTree : Bool) (name : String) :
    Except ReadError String → Outcome
  | .error e => .refused s!"cannot read '{name}': {e.message}"
  | .ok contents => runText settings dumpTree name (fileText contents)

end Script
