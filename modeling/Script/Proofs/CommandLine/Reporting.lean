import Script.Proofs.CommandLine.Echo
import Script.Proofs.Run.Padded
import Script.Proofs.Run.Printed

/-!
What a call tells. Its flags choose whether its tree and which of its records are shown; how it
ends, what its program prints and what is said of a problem are the same under all of them.
-/

namespace Script

/-- How much a call shows: its tree, and the records from a level on. -/
structure Verbosity where
  dumpTree : Bool
  level : LogLevel
  deriving DecidableEq, Repr

/-- All that there is to tell of a call. Its dump and its log are kept apart from what is always
shown. -/
structure Account where
  exit : Exit
  dump : List String
  out : String
  log : List LogRecord
  err : String
  deriving DecidableEq, Repr

def Account.shown (account : Account) (v : Verbosity) : Finished :=
  ⟨account.exit, Outcome.joined (if v.dumpTree then account.dump else []) ++ account.out,
    Outcome.joined (LogRecord.shown v.level account.log) ++ account.err⟩

theorem Outcome.joined_append (first second : List String) :
    joined (first ++ second) = joined first ++ joined second := by
  rw [joined, List.map_append, String.join_append]
  rfl

namespace LogRecord

variable {level : LogLevel}

theorem shown_append (first second : List LogRecord) :
    shown level (first ++ second) = shown level first ++ shown level second := by
  rw [shown, List.filter_append, List.map_append]
  rfl

theorem shown_warning {records : List LogRecord} (below : ∀ r ∈ records, r.level ≠ .warning) :
    shown .warning records = [] := by
  rw [shown, List.map_eq_nil_iff, List.filter_eq_nil_iff]
  intro r member
  simpa [LogLevel.shows] using below r member

theorem shown_ofReading (r : Program.Reading) : shown .warning (ofReading r) = [] := by
  apply shown_warning
  intro record member
  rcases List.mem_append.mp member with tokens | statements
  · obtain ⟨n, -, rfl⟩ := List.mem_map.mp tokens
    nofun
  · cases read : r.result with
    | error problem =>
        rw [read] at statements
        cases statements
    | ok p =>
        rw [read] at statements
        rw [List.mem_singleton.mp statements]
        nofun

theorem shown_ofTrace (m : Machine) : shown .warning (ofTrace m) = [] := by
  apply shown_warning
  intro record member
  obtain ⟨event, -, rfl⟩ := List.mem_map.mp member
  cases event <;> nofun

theorem shown_run (r : Program.Reading) (m : Machine) :
    shown .warning (ofReading r ++ ofTrace m) = [] := by
  rw [shown_append, shown_ofReading, shown_ofTrace]
  rfl

end LogRecord

namespace Repl

theorem shown_answer (maxTurns : Nat) (m : Machine) (line : String) :
    LogRecord.shown .warning (answer maxTurns m line).log = [] := by
  rw [answer]
  cases (Program.reading line).result with
  | error problem => exact LogRecord.shown_ofReading _
  | ok p =>
      dsimp only
      generalize (m.ready maxTurns).runProgram p = ran
      obtain ⟨m, none | stop⟩ := ran
      · exact LogRecord.shown_run _ m
      cases stop <;> exact LogRecord.shown_run _ m

theorem shown_session (maxTurns : Nat) (texts : List String) (m : Machine) :
    LogRecord.shown .warning (session maxTurns m texts).log = [] := by
  induction texts generalizing m with
  | nil => rfl
  | cons line rest again =>
      rw [session]
      split
      · rfl
      split
      · exact again m
      dsimp only
      split
      · exact shown_answer maxTurns m line
      · rw [LogRecord.shown_append, shown_answer, again]
        rfl

end Repl

def dumped (source : String) : List String :=
  match Program.read source with
  | .ok p => [p.dump.write 0]
  | .error _ => []

namespace Account

def ofRun (name source : String) (step : Machine × Option Problem) : Account :=
  let log := LogRecord.info s!"running {name} ({source.length} characters)" ::
    (LogRecord.ofReading (Program.reading source) ++ LogRecord.ofTrace step.1)
  let told (exit : Exit) (log : List LogRecord) (said : List String) : Account :=
    ⟨exit, dumped source, Outcome.joined step.1.output.toList, log, Outcome.joined said⟩
  match step.2 with
  | none =>
    let after :=
      LogRecord.info s!"finished {name}, {step.1.output.size} line(s) of output"
    told (.status 0) (log ++ [after]) []
  | some (.stop .domain) => told (.broken .domain) log []
  | some problem => told (.status 1) log [problem.report.text]

def ofFile (maxTurns : Nat) (name : String) : Except ReadError String → Account
  | .error e =>
    ⟨.status 2, [], "", [], Outcome.joined [s!"Error: cannot read '{name}': {e.message}"]⟩
  | .ok contents =>
    let source := fileText contents
    ofRun name source ((Machine.start.ready maxTurns).runSource source)

def ofTranscript (t : Repl.Transcript) : Account :=
  ⟨if t.broken then .broken .domain else .status 0, [], Outcome.joined Repl.greeting ++ t.out,
    t.log, ""⟩

theorem ofRun_log (name source : String) (step : Machine × Option Problem) :
    LogRecord.shown .warning (ofRun name source step).log = [] := by
  have running (rest : List LogRecord) (message : String) :
      LogRecord.shown .warning (LogRecord.info message :: rest) =
        LogRecord.shown .warning rest := rfl
  have before := LogRecord.shown_run (Program.reading source) step.1
  unfold ofRun
  split
  · rw [LogRecord.shown_append, running, before, running]
    rfl
  · rw [running, before]
  · rw [running, before]

theorem ofFile_log (maxTurns : Nat) (name : String) (contents : Except ReadError String) :
    LogRecord.shown .warning (ofFile maxTurns name contents).log = [] := by
  cases contents with
  | error e => rfl
  | ok contents => exact ofRun_log name _ _

end Account

theorem Account.ofRun_eq {name source : String} {step : Machine × Option Problem}
    (goes : step.2 ≠ some (.stop .domain)) :
    ofRun name source step =
      ⟨.status (if step.2.isNone then 0 else 1), dumped source,
        Outcome.joined step.1.output.toList, (ofRun name source step).log,
        Outcome.joined (step.2.map (·.report.text)).toList⟩ := by
  obtain ⟨m, none | problem⟩ := step
  · rfl
  cases problem with
  | lex | parse => rfl
  | stop cause =>
      cases cause with
      | domain => exact absurd rfl goes
      | fault | cancelled | unfinished => rfl

theorem runText_eq (settings : Settings) (dumpTree : Bool) (name source : String) :
    Finished.ofOutcome (runText settings dumpTree name source) =
      (Account.ofRun name source
        ((Machine.start.ready settings.maxTurns).runSource source)).shown
          ⟨dumpTree, settings.logLevel⟩ := by
  have reading : (Program.reading source).result = Program.read source := rfl
  rw [runText, reading, Machine.runSource, Machine.runSourceWithin_eq]
  cases read : Program.read source with
  | error problem =>
      have dump : dumped source = [] := by rw [dumped, read]
      have nothing : Outcome.joined (if dumpTree then dumped source else []) ++ "" = "" := by
        rw [dump, ite_self]
        rfl
      -- Nothing was run, so that nothing was traced.
      have err (running : LogRecord) (text : String) :
          Outcome.joined (LogRecord.shown settings.logLevel
              (running :: LogRecord.ofReading (Program.reading source)) ++ [text]) =
            Outcome.joined (LogRecord.shown settings.logLevel
              (running :: (LogRecord.ofReading (Program.reading source) ++ []))) ++
              Outcome.joined [text] := by
        rw [Outcome.joined_append, List.append_nil]
      cases problem with
      | lex | parse => exact congrArg₂ (Finished.mk _) nothing.symm (err _ _)
      | stop cause => exact absurd read (Program.read_ne_stop source cause)
  | ok p =>
      have dump : dumped source = [p.dump.write 0] := by rw [dumped, read]
      have out (lines : List String) :
          Outcome.joined ((if dumpTree then [p.dump.write 0] else []) ++ lines) =
            Outcome.joined (if dumpTree then dumped source else []) ++ Outcome.joined lines := by
        rw [Outcome.joined_append, dump]
      dsimp only
      rw [← Machine.runProgram]
      generalize (Machine.start.ready settings.maxTurns).runProgram p = ran
      obtain ⟨m, none | stop⟩ := ran
      · exact congrArg₂ (Finished.mk _) (out _) String.append_empty.symm
      cases stop with
      | domain => exact congrArg₂ (Finished.mk _) (out _) String.append_empty.symm
      | fault | cancelled | unfinished =>
          exact congrArg₂ (Finished.mk _) (out _) (Outcome.joined_append _ _)

namespace Task

def account (files : Files) (input : String) : Task → Account
  | .refuse message => ⟨.status 2, [], "", [], Outcome.joined [s!"Error: {message}"]⟩
  | .breakDown cause => ⟨.broken cause, [], "", [], ""⟩
  | .file settings _ name => .ofFile settings.maxTurns name (files.read name)
  | .repl settings => .ofTranscript (Repl.run settings.maxTurns input)

/-- The task shows no more and no less. -/
def Shows (v : Verbosity) : Task → Prop
  | .refuse _ | .breakDown _ => True
  | .file settings dumpTree _ => dumpTree = v.dumpTree ∧ settings.logLevel = v.level
  | .repl settings => settings.logLevel = v.level

theorem account_log (task : Task) (files : Files) (input : String) :
    LogRecord.shown .warning (task.account files input).log = [] := by
  cases task with
  | refuse | breakDown => rfl
  | file settings _ name => exact Account.ofFile_log _ _ _
  | repl settings => exact Repl.shown_session _ _ _

theorem finish_eq {v : Verbosity} {task : Task} (shows : task.Shows v) (files : Files)
    (input : String) : task.finish files input = (task.account files input).shown v := by
  have nothing (out : String) : Outcome.joined (if v.dumpTree then [] else []) ++ out = out := by
    rw [ite_self]
    exact String.empty_append
  have unlogged (err : String) : Outcome.joined (LogRecord.shown v.level []) ++ err = err :=
    String.empty_append
  cases task with
  | refuse message => exact congrArg₂ (Finished.mk _) (nothing _).symm (unlogged _).symm
  | breakDown cause => exact congrArg₂ (Finished.mk _) (nothing _).symm (unlogged _).symm
  | file settings dumpTree name =>
      obtain ⟨rfl, level⟩ := shows
      rw [account, finish]
      cases files.read name with
      | error e => exact congrArg₂ (Finished.mk _) (nothing _).symm (unlogged _).symm
      | ok contents =>
          have told := runText_eq settings v.dumpTree name (fileText contents)
          rw [level] at told
          exact told
  | repl settings =>
      have level : settings.logLevel = v.level := shows
      rw [account, finish, level]
      exact congrArg₂ (Finished.mk _) (nothing _).symm String.append_empty.symm

def ofArguments (a : Arguments) (environ : String → Option String) : Task :=
  match Settings.load environ with
  | .error e => .refuse e.message
  | .ok settings => withArguments a settings

theorem ofCall_eq {words : List String} {a : Arguments} (means : Arguments.ofWords words = .ok a)
    (environ : String → Option String) : ofCall words environ = .ok (ofArguments a environ) := by
  rw [ofCall, means, ofArguments]
  cases Settings.load environ <;> rfl

end Task

def Arguments.quiet (a : Arguments) : Arguments :=
  { a with verbose := false, debug := false, dumpTree := false }

def Verbosity.ofCall (a : Arguments) (environ : String → Option String) : Verbosity :=
  let verbose := Settings.isTrue (environ "GOJO_VERBOSE") || a.verbose
  let debug := Settings.isTrue (environ "GOJO_MEGA_VERBOSE") || a.debug
  ⟨a.dumpTree || verbose, if debug then .debug else if verbose then .info else .warning⟩

def Settings.given (c : Settings) (a : Arguments) : Settings :=
  { c with
    inputFile := (a.file.filter (· ≠ "")).orElse fun _ => c.inputFile
    verbose := c.verbose || a.verbose
    megaVerbose := c.megaVerbose || a.debug
    repl := c.repl || a.repl }

def Settings.ofEnviron (environ : String → Option String) (maxTurns : Nat) : Settings where
  inputFile := (environ "GOJO_INPUT_FILE").filter (· ≠ "")
  verbose := isTrue (environ "GOJO_VERBOSE")
  megaVerbose := isTrue (environ "GOJO_MEGA_VERBOSE")
  repl := isTrue (environ "GOJO_REPL_MODE")
  maxTurns := maxTurns

theorem Settings.load_eq (environ : String → Option String) :
    load environ = (turns? (environ "GOJO_MAX_ITERATIONS")).map (ofEnviron environ) := by
  rw [load]
  cases turns? (environ "GOJO_MAX_ITERATIONS") <;> rfl

theorem Verbosity.ofCall_eq (a : Arguments) (environ : String → Option String) (maxTurns : Nat) :
    let c := (Settings.ofEnviron environ maxTurns).given a
    ⟨a.dumpTree || c.verbose, c.logLevel⟩ = ofCall a environ := by
  rw [ofCall, Settings.ofEnviron]
  generalize Settings.isTrue (environ "GOJO_VERBOSE") = verbose
  generalize Settings.isTrue (environ "GOJO_MEGA_VERBOSE") = megaVerbose
  rfl

def Settings.quiet (c : Settings) : Settings := { c with verbose := false, megaVerbose := false }

/-- The settings differ in nothing but in what is shown. -/
def Environ.Like (environ around : String → Option String) : Prop :=
  ∀ name, name ≠ "GOJO_VERBOSE" → name ≠ "GOJO_MEGA_VERBOSE" → environ name = around name

namespace Task

variable {a b : Arguments} {environ around : String → Option String}

def start (dumpTree : Bool) (c : Settings) : Task :=
  match c.inputFile, c.repl with
  | some name, false => .file c (dumpTree || c.verbose) name
  | _, _ => .repl c

theorem withArguments_eq (a : Arguments) (c : Settings) :
    withArguments a c =
      match a.maxTurns with
      | none => start a.dumpTree (c.given a)
      | some .nothing => .breakDown .limit
      | some (.turns n) =>
        if n < 0 then .refuse "--max-iterations must not be negative"
        else start a.dumpTree { c.given a with maxTurns := n.toNat } := rfl

theorem start_shows (dumpTree : Bool) (c : Settings) :
    (start dumpTree c).Shows ⟨dumpTree || c.verbose, c.logLevel⟩ := by
  unfold start
  split
  · exact ⟨rfl, rfl⟩
  · exact rfl

/-- What a task tells does not depend on what its settings show. -/
theorem start_account (dumpTree : Bool) (c : Settings) (files : Files) (input : String) :
    (start dumpTree c).account files input = (start false c.quiet).account files input := by
  obtain ⟨file?, verbose, megaVerbose, repl, maxTurns⟩ := c
  cases file? with
  | none => rfl
  | some name => cases repl <;> rfl

theorem withArguments_shows (a : Arguments) (c : Settings) :
    (withArguments a c).Shows ⟨a.dumpTree || (c.given a).verbose, (c.given a).logLevel⟩ := by
  rw [withArguments_eq]
  split
  · exact start_shows a.dumpTree (c.given a)
  · trivial
  · split
    · trivial
    · exact start_shows a.dumpTree _

theorem withArguments_account (a : Arguments) (c : Settings) (files : Files) (input : String) :
    (withArguments a c).account files input =
      (withArguments a.quiet c.quiet).account files input := by
  have limit : a.quiet.maxTurns = a.maxTurns := rfl
  rw [withArguments_eq, withArguments_eq, limit]
  cases a.maxTurns with
  | none => exact start_account a.dumpTree (c.given a) files input
  | some given =>
      cases given with
      | nothing => rfl
      | turns n =>
          dsimp only
          split
          · rfl
          · exact start_account a.dumpTree { c.given a with maxTurns := n.toNat } files input

theorem ofArguments_shows (a : Arguments) (environ : String → Option String) :
    (ofArguments a environ).Shows (.ofCall a environ) := by
  rw [ofArguments, Settings.load_eq]
  cases Settings.turns? (environ "GOJO_MAX_ITERATIONS") with
  | error e => trivial
  | ok maxTurns =>
      show (withArguments a (.ofEnviron environ maxTurns)).Shows _
      rw [← Verbosity.ofCall_eq a environ maxTurns]
      exact withArguments_shows a (.ofEnviron environ maxTurns)

theorem ofArguments_account (flags : a.quiet = b.quiet) (like : Environ.Like environ around)
    (files : Files) (input : String) :
    (ofArguments a environ).account files input = (ofArguments b around).account files input := by
  have limit := like "GOJO_MAX_ITERATIONS" (by decide) (by decide)
  have same (maxTurns : Nat) : (Settings.ofEnviron environ maxTurns).quiet =
      (Settings.ofEnviron around maxTurns).quiet := by
    have file := like "GOJO_INPUT_FILE" (by decide) (by decide)
    have repl := like "GOJO_REPL_MODE" (by decide) (by decide)
    rw [Settings.quiet, Settings.quiet, Settings.ofEnviron, Settings.ofEnviron, file, repl]
  rw [ofArguments, ofArguments, Settings.load_eq, Settings.load_eq, limit]
  cases Settings.turns? (around "GOJO_MAX_ITERATIONS") with
  | error e => rfl
  | ok maxTurns =>
      show account files input (withArguments a (.ofEnviron environ maxTurns)) =
        account files input (withArguments b (.ofEnviron around maxTurns))
      rw [withArguments_account a, withArguments_account b, flags, same]

theorem ofCall_finish (base : Arguments) (around : String → Option String) (files : Files)
    (input : String) {words : List String} (means : Arguments.ofWords words = .ok a)
    (flags : a.quiet = base.quiet) (like : Environ.Like environ around) :
    (ofCall words environ).map (finish files input) =
      .ok (((ofArguments base around).account files input).shown (.ofCall a environ)) := by
  have told := finish_eq (ofArguments_shows a environ) files input
  rw [ofArguments_account flags like] at told
  rw [ofCall_eq means, ← told]
  rfl

theorem finish_file {files : Files} {name contents : String} {settings : Settings}
    (reads : files.read name = .ok contents) (dumpTree : Bool) (input : String) :
    (Task.file settings dumpTree name).finish files input =
      (Account.ofRun name (fileText contents)
        ((Machine.start.ready settings.maxTurns).runSource (fileText contents))).shown
          ⟨dumpTree, settings.logLevel⟩ := by
  have shows : (Task.file settings dumpTree name).Shows ⟨dumpTree, settings.logLevel⟩ := ⟨rfl, rfl⟩
  rw [finish_eq shows, account, reads]
  rfl

/-- A file is told by its run and by nothing else. Its lines are those that the run prints, the
first of them those that it had printed at any moment; its status and its error are those of its
problem. What is shown of its tree and of its log changes none of this: all calls that differ only
in what they ask to be shown have one account to tell, and no run depends on what was traced. -/
theorem finish_reports (files : Files) (input : String) :
    (∀ (name contents : String) (maxTurns : Nat), files.read name = .ok contents →
      let source := fileText contents
      let ready := Machine.start.ready maxTurns
      let step := ready.runSource source
      step.2 ≠ some (.stop .domain) →
      (0 < maxTurns → step.2 ≠ some (.stop .unfinished)) ∧
      (∀ between ∈ Machine.sourceHistory source ready,
        between.output.toList <+: step.1.output.toList) ∧
      ∃ log, LogRecord.shown .warning log = [] ∧
        ∀ (settings : Settings) (dumpTree : Bool), settings.maxTurns = maxTurns →
          (Task.file settings dumpTree name).finish files input =
            Account.shown
              ⟨.status (if step.2.isNone then 0 else 1), dumped source,
                Outcome.joined step.1.output.toList, log,
                Outcome.joined (step.2.map (·.report.text)).toList⟩
              ⟨dumpTree, settings.logLevel⟩) ∧
    (∀ (base : Arguments) (around : String → Option String),
      ∃ account : Account, LogRecord.shown .warning account.log = [] ∧
        ∀ (words : List String) (a : Arguments) (environ : String → Option String),
          Arguments.ofWords words = .ok a → a.quiet = base.quiet → Environ.Like environ around →
            (ofCall words environ).map (finish files input) =
              .ok (account.shown (.ofCall a environ))) ∧
    ∀ (p : Program) (fuel : Nat) (m : Machine) (trace : Array Event),
      Run.Ends (fun m m' => m' = { m with trace := m'.trace }) Eq Eq (p.run fuel m)
        (p.run fuel { m with trace }) := by
  refine ⟨?_, ?_, Program.run_untraced⟩
  · intro name contents maxTurns reads source ready step goes
    refine ⟨?_, ?_, (Account.ofRun name source step).log, Account.ofRun_log name source step, ?_⟩
    · exact fun limited => Machine.start.runSource_ends (Int.natCast_pos.mpr limited) source
    · exact fun between member => (Machine.sourceHistory_passes ready source between member).output
    · rintro settings dumpTree rfl
      rw [← Account.ofRun_eq goes]
      exact finish_file reads dumpTree input
  · intro base around
    refine ⟨(ofArguments base around).account files input, account_log _ _ _, ?_⟩
    intro words a environ means flags like
    exact ofCall_finish base around files input means flags like

theorem finish_reports_name :
    let files : Files := [(["p"], some "y")]
    let environ : String → Option String := fun name =>
      if name = "GOJO_MEGA_VERBOSE" then some "true" else none
    let report := "RuntimeError(UnboundIdentifier) at line 1, column 1: 'y' is not defined\n"
    (Task.file ⟨none, false, false, false, 1⟩ false "p").finish files "" =
        ⟨.status 1, "", report⟩ ∧
      ∃ account : Account, LogRecord.shown .warning account.log = [] ∧
        (ofCall ["p", "--max-iterations", "1"] fun _ => none).map (finish files "") =
          .ok (account.shown ⟨false, .warning⟩) ∧
        (ofCall ["--verbose", "p", "--max-iterations", "1"] environ).map (finish files "") =
          .ok (account.shown ⟨true, .debug⟩) := by
  intro files environ report
  have reads : files.read "p" = .ok "y" := by cbv
  have text : fileText "y" = "y" := by decide
  have ran : (Machine.start.ready (1 : Nat)).runSource "y" = _ :=
    Machine.runSourceWithin_of_read 2 Machine.read_name (Machine.start.ready (1 : Nat))
  obtain ⟨file, calls, -⟩ := finish_reports files ""
  have run := file "p" "y" 1 reads
  dsimp only at run
  rw [text, ran] at run
  obtain ⟨-, -, log, silent, told⟩ := run nofun
  obtain ⟨account, hidden, tells⟩ :=
    calls ⟨some "p", false, false, false, false, some (.turns 1)⟩ fun _ => none
  refine ⟨?_, account, hidden, ?_, ?_⟩
  · rw [told _ false rfl, Account.shown]
    have quiet : Settings.logLevel ⟨none, false, false, false, 1⟩ = .warning := rfl
    rw [quiet, silent]
    dsimp only
    decide
  · exact tells ["p", "--max-iterations", "1"] _ _ (by decide) rfl fun _ _ _ => rfl
  · have asked : Verbosity.ofCall ⟨some "p", false, true, false, false, some (.turns 1)⟩ environ =
        ⟨true, .debug⟩ := by decide
    rw [← asked]
    exact tells ["--verbose", "p", "--max-iterations", "1"] _ _ (by decide) rfl
      fun _ _ other => if_neg other

end Task

end Script
