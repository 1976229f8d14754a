import Script.CommandLine.Call

/-!
The command line.
-/

namespace Script

def usage : String :=
  "usage: gojo [-h] [--repl] [--verbose] [--debug] [--dump-ast] [--max-iterations N] [file]"

def readContents (name : String) : IO (Except ReadError String) := do
  try
    return .ok (← IO.FS.readFile name)
  catch e =>
    match e with
    | .noFileOrDirectory .. => return .error .missing
    -- Opening names the file; a directory opens and cannot be read.
    | .inappropriateType (some _) .. => return .error .notDirectory
    | .inappropriateType none .. => return .error .directory
    | _ => return .error (.other (toString e))

def showLog (level : LogLevel) (records : List LogRecord) : IO Unit := do
  for line in LogRecord.shown level records do
    IO.eprintln line

def breakDown (cause : Breakdown) : IO UInt32 := do
  IO.eprintln cause.message
  return 1

partial def converse (settings : Settings) (m : Machine) : IO UInt32 := do
  IO.print Repl.prompt
  (← IO.getStdout).flush
  let line ← (← IO.getStdin).getLine
  if line.isEmpty || Repl.isLeaving line then return 0
  else if Repl.isBlank line then converse settings m
  else
    let text := String.join (Repl.lines line)
    let reply := Repl.answer settings.maxTurns m text
    IO.print (Outcome.joined reply.out)
    showLog settings.logLevel reply.log
    if reply.broken then breakDown .domain
    else converse settings reply.machine

def perform : Task → IO UInt32
  | .repl settings => do
    IO.print (Outcome.joined Repl.greeting)
    converse settings .start
  | .refuse message => do
    IO.eprintln s!"Error: {message}"
    return 2
  | .breakDown cause => breakDown cause
  | .file settings dumpTree name => do
    let outcome := runFile settings dumpTree name (← readContents name)
    IO.print (Outcome.joined outcome.out)
    IO.eprint (Outcome.joined outcome.err)
    match outcome.exit with
    | .status code => return code.toUInt32
    | .broken cause => breakDown cause

end Script

def main (arguments : List String) : IO UInt32 := do
  let mut environ : List (String × String) := []
  for name in Script.Settings.names do
    if let some value ← IO.getEnv name then
      environ := (name, value) :: environ
  match Script.Task.ofCall arguments (fun name => environ.lookup name) with
  | .error u =>
    IO.eprintln Script.usage
    return u.exit.toUInt32
  | .ok task => Script.perform task
