import Script.CommandLine.Arguments
import Script.CommandLine.Repl

/-!
A call of the program. Settings come from the environment, arguments win over them; then a file is
run or, without one, lines are read.
-/

namespace Script

inductive Task
  | repl (settings : Settings)
  | file (settings : Settings) (dumpTree : Bool) (name : String)
  | refuse (message : String)
  | breakDown (cause : Breakdown)

namespace Task

def withArguments (a : Arguments) (settings : Settings) : Task :=
  let settings :=
    { settings with
      inputFile := (a.file.filter (· ≠ "")).orElse fun _ => settings.inputFile
      verbose := settings.verbose || a.verbose
      megaVerbose := settings.megaVerbose || a.debug
      repl := settings.repl || a.repl }
  let start (settings : Settings) : Task :=
    match settings.inputFile, settings.repl with
    | some name, false => .file settings (a.dumpTree || settings.verbose) name
    | _, _ => .repl settings
  match a.maxTurns with
  | none => start settings
  | some .nothing => .breakDown .limit
  | some (.turns n) =>
    if n < 0 then .refuse "--max-iterations must not be negative"
    else start { settings with maxTurns := n.toNat }

def ofCall (arguments : List String) (environ : String → Option String) : Except Usage Task := do
  let a ← Arguments.ofWords arguments
  match Settings.load environ with
  | .error e => return .refuse e.message
  | .ok settings => return withArguments a settings

end Task

/-- How a call ends, its output and what it says beside it. -/
structure Finished where
  exit : Exit
  out : String
  err : String
  deriving DecidableEq, Repr

namespace Finished

def ofOutcome (o : Outcome) : Finished := ⟨o.exit, Outcome.joined o.out, Outcome.joined o.err⟩

def ofTranscript (level : LogLevel) (t : Repl.Transcript) : Finished :=
  ⟨if t.broken then .broken .domain else .status 0, Outcome.joined Repl.greeting ++ t.out,
    Outcome.joined (LogRecord.shown level t.log)⟩

end Finished

namespace Task

def finish (files : Files) (input : String) : Task → Finished
  | .refuse message => .ofOutcome (.refused message)
  | .breakDown cause => ⟨.broken cause, "", ""⟩
  | .file settings dumpTree name => .ofOutcome (runFile settings dumpTree name (files.read name))
  | .repl settings => .ofTranscript settings.logLevel (Repl.run settings.maxTurns input)

end Task

end Script
