import Script.CommandLine.Call
import Script.Proofs.Grammar.Canonical
import Script.Proofs.Run.Joined
import Script.Proofs.Run.Scoping

/-!
Sessions. A line is answered by what its run comes to on the machine that the lines before it left,
and only a remainder that is no number breaks a session.
-/

namespace Script

namespace Machine

def left (limit : Int) (m : Machine) (sources : List String) : Machine :=
  sources.foldl (fun m source => ((m.ready limit).runSource source).1) m

theorem left_outermost (limit : Int) {m : Machine} (outermost : m.scopes.outer = [])
    (sources : List String) : (m.left limit sources).scopes.outer = [] := by
  induction sources generalizing m with
  | nil => exact outermost
  | cons source rest again =>
      have ready : (m.ready limit).scopes.outer = [] := outermost
      exact again (runSource_outermost ready source)

theorem runSources_append (limit : Int) (m : Machine) (before after : List String) :
    m.runSources limit (before ++ after) =
      m.runSources limit before ++ (m.left limit before).runSources limit after := by
  induction before generalizing m with
  | nil => rfl
  | cons source rest again =>
      rw [List.cons_append, runSources, runSources, again]
      rfl

theorem length_runSources (limit : Int) (m : Machine) (sources : List String) :
    (m.runSources limit sources).length = sources.length := by
  induction sources generalizing m with
  | nil => rfl
  | cons source rest again => rw [runSources, List.length_cons, List.length_cons, again]

end Machine

namespace Repl

variable {maxTurns : Nat} {m : Machine} {line : String} {texts before after rest : List String}

def met (texts : List String) : List String := texts.takeWhile (!isLeaving ·)

def entered (texts : List String) : List String := texts.filter (!isBlank ·)

def reply (step : Machine × Option Problem) : List String :=
  step.1.output.toList ++
    match step.2 with
    | none => echo step.1
    | some problem => [problem.report.text]

/-- What stands behind the prompts, if the lines are entered on the machine and none of them
leaves. -/
def dialogue (maxTurns : Nat) (m : Machine) : List String → String
  | [] => ""
  | line :: rest =>
    if isBlank line then prompt ++ dialogue maxTurns m rest
    else
      let step := (m.ready maxTurns).runSource line
      prompt ++ Outcome.joined (reply step) ++ dialogue maxTurns step.1 rest

theorem answer_eq (maxTurns : Nat) (m : Machine) (line : String) :
    let step := (m.ready maxTurns).runSource line
    let answered := answer maxTurns m line
    answered.machine = step.1 ∧ (answered.broken = true ↔ step.2 = some (.stop .domain)) ∧
      (step.2 ≠ some (.stop .domain) → answered.out = reply step) := by
  have reading : (Program.reading line).result = Program.read line := rfl
  dsimp only
  rw [answer, reading, Machine.runSource, Machine.runSourceWithin]
  cases result : Program.read line with
  | error problem =>
      refine ⟨rfl, iff_of_false Bool.false_ne_true ?_, fun _ => rfl⟩
      rintro ⟨⟩
      exact absurd result (Program.read_ne_stop line .domain)
  | ok p =>
      dsimp only
      rw [← Machine.runProgram]
      generalize (m.ready maxTurns).runProgram p = ran
      obtain ⟨m', stop?⟩ := ran
      cases stop? with
      | none => exact ⟨rfl, iff_of_false Bool.false_ne_true (by rintro ⟨⟩), fun _ => rfl⟩
      | some stop =>
          cases stop with
          | domain => exact ⟨rfl, ⟨fun _ => rfl, fun _ => rfl⟩, fun other => absurd rfl other⟩
          | fault | cancelled | unfinished =>
              exact ⟨rfl, iff_of_false Bool.false_ne_true (by rintro ⟨⟩), fun _ => rfl⟩

theorem session_leaving (leaves : isLeaving line = true) (rest : List String) :
    session maxTurns m (line :: rest) = ⟨prompt, [], false⟩ := by
  rw [session, if_pos leaves]

theorem session_blank (stays : isLeaving line = false) (blank : isBlank line = true)
    (rest : List String) :
    (session maxTurns m (line :: rest)).out = prompt ++ (session maxTurns m rest).out ∧
      (session maxTurns m (line :: rest)).broken = (session maxTurns m rest).broken := by
  rw [session, stays, blank]
  exact ⟨rfl, rfl⟩

theorem session_goes (stays : isLeaving line = false) (shown : isBlank line = false)
    (goes : ((m.ready maxTurns).runSource line).2 ≠ some (.stop .domain)) (rest : List String) :
    let step := (m.ready maxTurns).runSource line
    let more := session maxTurns step.1 rest
    (session maxTurns m (line :: rest)).out = prompt ++ Outcome.joined (reply step) ++ more.out ∧
      (session maxTurns m (line :: rest)).broken = more.broken := by
  obtain ⟨machine, broken, out⟩ := answer_eq maxTurns m line
  have unbroken : (answer maxTurns m line).broken = false :=
    Bool.eq_false_iff.mpr (mt broken.mp goes)
  rw [session, stays, shown]
  simp only [Bool.false_eq_true, if_false, unbroken, machine, out goes, and_self]

theorem session_breaks (stays : isLeaving line = false) (shown : isBlank line = false)
    (breaks : ((m.ready maxTurns).runSource line).2 = some (.stop .domain))
    (rest : List String) :
    (session maxTurns m (line :: rest)).broken = true := by
  obtain ⟨-, broken, -⟩ := answer_eq maxTurns m line
  rw [session, stays, shown]
  simp only [Bool.false_eq_true, if_false, broken.mpr breaks, if_true]

theorem entered_blank (blank : isBlank line = true) (rest : List String) :
    entered (line :: rest) = entered rest := by
  simp [entered, blank]

theorem entered_shown (shown : isBlank line = false) (rest : List String) :
    entered (line :: rest) = line :: entered rest := by
  simp [entered, shown]

theorem dialogue_blank (blank : isBlank line = true) (rest : List String) :
    dialogue maxTurns m (line :: rest) = prompt ++ dialogue maxTurns m rest := by
  rw [dialogue, if_pos blank]

theorem dialogue_shown (shown : isBlank line = false) (rest : List String) :
    let step := (m.ready maxTurns).runSource line
    dialogue maxTurns m (line :: rest) =
      prompt ++ (Outcome.joined (reply step) ++ dialogue maxTurns step.1 rest) := by
  rw [dialogue, if_neg (by simp [shown])]
  exact String.append_assoc

theorem session_append (stays : ∀ line ∈ before, isLeaving line = false)
    (goes : ∀ step ∈ m.runSources maxTurns (entered before), step.2 ≠ some (.stop .domain))
    (rest : List String) :
    let more := session maxTurns (m.left maxTurns (entered before)) rest
    (session maxTurns m (before ++ rest)).out = dialogue maxTurns m before ++ more.out ∧
      (session maxTurns m (before ++ rest)).broken = more.broken := by
  -- on the lines: as long as no run breaks it, a session goes on with the next line on the machine
  -- that the lines before left
  induction before generalizing m with
  | nil => exact ⟨String.empty_append.symm, rfl⟩
  | cons line before again =>
      have first := stays line List.mem_cons_self
      have others := fun line member => stays line (List.mem_cons_of_mem _ member)
      rw [List.cons_append]
      cases shown : isBlank line with
      | true =>
          rw [entered_blank shown] at goes ⊢
          obtain ⟨out, broken⟩ := again others goes
          obtain ⟨outs, breaks⟩ := session_blank first shown (before ++ rest)
          refine ⟨?_, breaks.trans broken⟩
          rw [outs, out, dialogue_blank shown]
          exact String.append_assoc.symm
      | false =>
          rw [entered_shown shown] at goes ⊢
          rw [Machine.runSources] at goes
          have unbroken := goes _ List.mem_cons_self
          obtain ⟨out, broken⟩ :=
            again others fun step member => goes step (List.mem_cons_of_mem _ member)
          obtain ⟨outs, breaks⟩ := session_goes first shown unbroken (before ++ rest)
          refine ⟨?_, breaks.trans broken⟩
          rw [outs, out, dialogue_shown shown]
          simp only [String.append_assoc]
          rfl

theorem session_rest (texts : List String) : ∃ rest, texts = met texts ++ rest ∧
    ∀ (maxTurns : Nat) (m : Machine), session maxTurns m rest = ⟨prompt, [], false⟩ := by
  refine ⟨texts.dropWhile (!isLeaving ·), List.takeWhile_append_dropWhile.symm, ?_⟩
  intro maxTurns m
  cases known : texts.dropWhile (!isLeaving ·) with
  | nil => rfl
  | cons line rest =>
      have stops := List.head?_dropWhile_not (!isLeaving ·) texts
      rw [known] at stops
      exact session_leaving (by simpa using stops) rest

theorem met_stays {line : String} (member : line ∈ met texts) : isLeaving line = false := by
  have stays := List.all_eq_true.mp List.all_takeWhile line member
  simpa using stays

/-- Unless a run breaks it, a session answers every line up to the first that leaves. -/
theorem session_eq
    (goes : ∀ step ∈ m.runSources maxTurns (entered (met texts)), step.2 ≠ some (.stop .domain)) :
    (session maxTurns m texts).out = dialogue maxTurns m (met texts) ++ prompt ∧
      (session maxTurns m texts).broken = false := by
  obtain ⟨rest, split, ends⟩ := session_rest texts
  obtain ⟨out, broken⟩ := session_append (fun _ member => met_stays member) goes rest
  rw [← split, ends] at out broken
  exact ⟨out, broken⟩

theorem session_broken (breaks : ∃ step ∈ m.runSources maxTurns (entered (met texts)),
    step.2 = some (.stop .domain)) : (session maxTurns m texts).broken = true := by
  induction texts generalizing m with
  | nil =>
      obtain ⟨step, member, -⟩ := breaks
      exact absurd member List.not_mem_nil
  | cons line rest again =>
      cases stays : isLeaving line with
      | true =>
          obtain ⟨step, member, -⟩ := breaks
          rw [met, List.takeWhile_cons_of_neg (by simp [stays])] at member
          exact absurd member List.not_mem_nil
      | false =>
          rw [met, List.takeWhile_cons_of_pos (by simp [stays])] at breaks
          cases shown : isBlank line with
          | true =>
              rw [entered_blank shown] at breaks
              rw [(session_blank stays shown rest).2]
              exact again breaks
          | false =>
              rw [entered_shown shown, Machine.runSources] at breaks
              obtain ⟨step, member, domain⟩ := breaks
              by_cases first : ((m.ready maxTurns).runSource line).2 = some (.stop .domain)
              · exact session_breaks stays shown first rest
              · rw [(session_goes stays shown first rest).2]
                refine again ⟨step, (List.mem_cons.mp member).resolve_left ?_, domain⟩
                rintro rfl
                exact first domain

/-- A session breaks exactly if one of its runs takes a remainder that is no number. -/
theorem session_broken_iff : (session maxTurns m texts).broken = true ↔
    ∃ step ∈ m.runSources maxTurns (entered (met texts)), step.2 = some (.stop .domain) := by
  refine ⟨fun broken => Classical.byContradiction fun none => ?_, session_broken⟩
  have goes := session_eq fun step member domain => none ⟨step, member, domain⟩
  rw [goes.2] at broken
  cases broken

theorem entered_append (before after : List String) :
    entered (before ++ after) = entered before ++ entered after := List.filter_append before after

theorem dialogue_append (maxTurns : Nat) (m : Machine) (before after : List String) :
    dialogue maxTurns m (before ++ after) = dialogue maxTurns m before ++
      dialogue maxTurns (m.left maxTurns (entered before)) after := by
  induction before generalizing m with
  | nil => exact String.empty_append.symm
  | cons line before again =>
      rw [List.cons_append]
      cases shown : isBlank line with
      | true =>
          rw [dialogue_blank shown, dialogue_blank shown, entered_blank shown, again,
            String.append_assoc]
      | false =>
          rw [dialogue_shown shown, dialogue_shown shown, entered_shown shown, again,
            String.append_assoc, String.append_assoc]
          rfl

theorem prompted (maxTurns : Nat) (m : Machine) (texts : List String) :
    ∃ more, dialogue maxTurns m texts ++ prompt = prompt ++ more := by
  cases texts with
  | nil => exact ⟨"", String.empty_append.trans String.append_empty.symm⟩
  | cons line rest =>
      cases shown : isBlank line with
      | true => exact ⟨_, by rw [dialogue_blank shown, String.append_assoc]⟩
      | false => exact ⟨_, by rw [dialogue_shown shown, String.append_assoc]⟩

inductive Reported : Problem → Prop
  | lex (e : LexError) : Reported (.lex e)
  | parse (e : ParseFailure) : Reported (.parse e)
  | fault (cause : Fault) (pos : Pos) : Reported (.stop (.fault cause pos))
  | cancelled (turns : Nat) (pos : Pos) : Reported (.stop (.cancelled turns pos))

/-- What comes of a line that is entered on the machine. -/
structure Answered (maxTurns : Nat) (left : Machine) (line said : String) : Prop where
  outermost : left.scopes.outer = []
  said : said = prompt ++ Outcome.joined (reply ((left.ready maxTurns).runSource line))
  reported : ∀ problem, ((left.ready maxTurns).runSource line).2 = some problem →
    problem = .stop .domain ∨ Reported problem

/-- If each run ends, a session is over with status zero unless one of them takes a remainder that
is no number. It answers every line before the first that leaves, in the outermost scope and on what
the lines before it bound; whatever is wrong with the line is printed, and the next prompt. -/
theorem finish_session (settings : Settings) (files : Files) (input : String)
    (ends : ∀ step ∈ Machine.start.runSources settings.maxTurns (entered (met (lines input))),
      step.2 ≠ some (.stop .unfinished)) :
    let steps := Machine.start.runSources settings.maxTurns (entered (met (lines input)))
    let finished := (Task.repl settings).finish files input
    let whole := dialogue settings.maxTurns .start (met (lines input))
    (finished.exit = .status 0 ↔ ∀ step ∈ steps, step.2 ≠ some (.stop .domain)) ∧
      (finished.exit = .status 0 → finished.out = Outcome.joined greeting ++ (whole ++ prompt)) ∧
      ∀ before line after, met (lines input) = before ++ line :: after → isBlank line = false →
        let left := Machine.start.left settings.maxTurns (entered before)
        let step := (left.ready settings.maxTurns).runSource line
        steps[(entered before).length]? = some step ∧
          ∃ said more, Answered settings.maxTurns left line said ∧
            whole ++ prompt =
              dialogue settings.maxTurns .start before ++ said ++ (prompt ++ more) := by
  have exit : ((Task.repl settings).finish files input).exit =
    if (session settings.maxTurns .start (lines input)).broken then .broken .domain
    else .status 0 := rfl
  have out : ((Task.repl settings).finish files input).out =
    Outcome.joined greeting ++ (session settings.maxTurns .start (lines input)).out := rfl
  have exits : ((Task.repl settings).finish files input).exit = .status 0 ↔
      ∀ step ∈ Machine.start.runSources settings.maxTurns (entered (met (lines input))),
        step.2 ≠ some (.stop .domain) := by
    rw [exit]
    split
    · next broken =>
        obtain ⟨step, member, domain⟩ := session_broken_iff.mp broken
        exact ⟨nofun, fun goes => absurd domain (goes step member)⟩
    · next goes =>
        exact ⟨fun _ step member domain => goes (session_broken ⟨step, member, domain⟩),
          fun _ => rfl⟩
  refine ⟨exits, fun done => ?_, fun before line after same shown => ?_⟩
  · rw [out, (session_eq (exits.mp done)).1]
  · have runs : entered (met (lines input)) = entered before ++ line :: entered after := by
      rw [same, entered_append, entered_shown shown]
    rw [runs, Machine.runSources_append, Machine.runSources] at ends ⊢
    have ended := ends _ (List.mem_append_right _ List.mem_cons_self)
    obtain ⟨more, next⟩ := prompted settings.maxTurns
      ((Machine.start.left settings.maxTurns (entered before)).ready settings.maxTurns |>.runSource
        line).1 after
    refine ⟨?_, _, more, ⟨Machine.left_outermost _ rfl _, rfl, fun problem fails => ?_⟩, ?_⟩
    · rw [List.getElem?_append_right (Nat.le_of_eq (Machine.length_runSources ..)),
        Machine.length_runSources, Nat.sub_self]
      rfl
    · cases problem with
      | lex e => exact .inr (.lex e)
      | parse e => exact .inr (.parse e)
      | stop cause =>
          cases cause with
          | fault cause pos => exact .inr (.fault cause pos)
          | cancelled turns pos => exact .inr (.cancelled turns pos)
          | domain => exact .inl rfl
          | unfinished => exact absurd fails ended
    · rw [same, dialogue_append, dialogue_shown shown, ← next]
      simp only [String.append_assoc]

theorem finish_session_missingName :
    lines "y\nexit\n#" = ["y", "exit", "#"] ∧
      ((Task.repl ⟨none, false, false, true, 1⟩).finish [] "y\nexit\n#").exit = .status 0 ∧
      ((Task.repl ⟨none, false, false, true, 1⟩).finish [] "y\nexit\n#").out =
        "Welcome to the gojo REPL\nType 'exit' or 'quit' to leave\n\n" ++
          ">>> RuntimeError(UnboundIdentifier) at line 1, column 1: 'y' is not defined\n>>> " := by
  have split : lines "y\nexit\n#" = ["y", "exit", "#"] := by decide
  have counts : entered (met ["y", "exit", "#"]) = ["y"] := by decide
  have ran : (Machine.start.ready 1).runSource "y" = _ :=
    Machine.runSourceWithin_of_read 2 Machine.read_name (Machine.start.ready 1)
  have every : ∀ step ∈ Machine.start.runSources 1 (entered (met (lines "y\nexit\n#"))),
      step.2 = some (.stop (.fault (.unbound "y") ⟨1, 1⟩)) := by
    rw [split, counts]
    intro step member
    rw [List.mem_singleton.mp member, ran]
    rfl
  obtain ⟨exits, out, -⟩ := finish_session ⟨none, false, false, true, 1⟩ [] "y\nexit\n#"
    fun step member => by rw [every step member]; nofun
  have done := exits.mpr fun step member => by rw [every step member]; nofun
  refine ⟨split, done, (out done).trans ?_⟩
  have said : dialogue 1 .start ["y"] =
      prompt ++ Outcome.joined (reply ((Machine.start.ready 1).runSource "y")) ++ "" := rfl
  rw [split, show met ["y", "exit", "#"] = ["y"] by decide, said, ran]
  decide

def huge : List Char := List.replicate 310 '9'

def one : List Char := ['1']

def hugeRemainder : List Char := huge ++ [' ', '%', ' ', '1']

def remainder (x y : Number) : Program :=
  [.expr ⟨1, 1⟩
    (.binary ⟨1, 312⟩ .rem (.literal ⟨1, 1⟩ (.number x)) (.literal ⟨1, 314⟩ (.number y)))]

theorem scan_hugeRemainder : Token.scan (String.ofList hugeRemainder) =
    ⟨[⟨.number (Lexeme.numberValue huge), String.ofList huge, ⟨1, 1⟩⟩,
      ⟨.operator .modulo, "%", ⟨1, 312⟩⟩, ⟨.number (Lexeme.numberValue one), "1", ⟨1, 314⟩⟩,
      ⟨.endOfInput, "", ⟨1, 315⟩⟩], none⟩ := by
  have whole : Lexeme.Numeral huge := .whole (by decide) fun c member => by
    rw [List.eq_of_mem_replicate member]
    rfl
  have width : Pos.start.after huge = ⟨1, 311⟩ := by decide +kernel
  have apart : Lexeme.Apart [' ', '%', ' ', '1'] := by
    rintro b ⟨⟩
    decide
  have sign : Lexeme.Reads ['%'] (.operator .modulo) [' ', '1'] ['%', ' ', '1'] := rfl
  have digit : Lexeme.Numeral one := .whole (by decide) fun c member => by
    rw [List.mem_singleton.mp member]
    rfl
  rw [Token.scan, String.toList_ofList, hugeRemainder,
    Token.scanFrom_alone _ whole.reads apart, width]
  rw [Token.scanFrom_space, Token.scanFrom_lexeme _ rfl (by decide) sign, Token.scanFrom_space,
    Token.scanFrom_lexeme _ rfl (by decide) digit.reads, Token.scanFrom_empty]
  rfl

theorem derived_remainder (x y : Number) (word : String) : Program.Derived
    [⟨.number x, word, ⟨1, 1⟩⟩, ⟨.operator .modulo, "%", ⟨1, 312⟩⟩, ⟨.number y, "1", ⟨1, 314⟩⟩,
      ⟨.endOfInput, "", ⟨1, 315⟩⟩] (remainder x y) := by
  have left : Grammar.Primary [⟨.number x, word, ⟨1, 1⟩⟩] _ := .literal (.number x)
  have right : Grammar.Primary [⟨.number y, "1", ⟨1, 314⟩⟩] _ := .literal (.number y)
  have whole := Grammar.Chained.connective (t := ⟨.operator .modulo, "%", ⟨1, 312⟩⟩)
    (.tighter (.postfixed (.primary left))) rfl .modulo (.postfixed (.primary right))
  exact @Program.Derived.mk (_ :: _) _ _ rfl
    (.cons (.unterminated (.expr (whole.mono (by decide))) (.stop rfl)) .nil)

theorem read_hugeRemainder : Program.read (String.ofList hugeRemainder) =
    .ok (remainder (Lexeme.numberValue huge) (Lexeme.numberValue one)) := by
  rw [Program.read_eq_ok_iff, scan_hugeRemainder]
  exact ⟨rfl, derived_remainder _ _ _⟩

theorem run_remainder {x y : Number} (refused : BinaryOp.rem.onNumbers x y = .error .domain)
    (fuel : Nat) (m : Machine) :
    ∃ m', (remainder x y).run fuel m = .error .domain m' := by
  have operation (pos : Pos) (m : Machine) :
      (Expr.binary pos .rem (.literal ⟨1, 1⟩ (.number x)) (.literal ⟨1, 314⟩ (.number y))).eval m =
        .error .domain m := by
    show Run.ofAnswer pos (BinaryOp.rem.onNumbers x y) m = _
    rw [refused]
    rfl
  have step (pos place : Pos) (m : Machine) : (Stmt.expr pos (.binary place .rem
      (.literal ⟨1, 1⟩ (.number x)) (.literal ⟨1, 314⟩ (.number y)))).exec fuel m =
        .error .domain { m with trace := m.trace.push (.statement pos.line "ExprStmt") } := by
    rw [Stmt.exec, Run.bind_ok (rfl : Run.note _ m = .ok () _)]
    exact Run.bind_error (operation _ _) _
  exact ⟨_, Run.bind_error (step _ _ _) _⟩

theorem lines_hugeRemainder :
    lines (String.ofList hugeRemainder) = [String.ofList hugeRemainder] := by
  have line : Text.newlineLines (Text.universal hugeRemainder) = [hugeRemainder] := by
    decide +kernel
  rw [lines, String.toList_ofList, line]
  rfl

theorem isBlank_hugeRemainder : isBlank (String.ofList hugeRemainder) = false := by
  rw [isBlank, String.toList_ofList]
  decide +kernel

theorem isLeaving_hugeRemainder : isLeaving (String.ofList hugeRemainder) = false := by
  have other (word : List Char) (differs : Text.trim hugeRemainder ≠ word) :
      String.ofList (Text.trim hugeRemainder) ≠ String.ofList word :=
    fun same => differs (String.ofList_injective same)
  rw [isLeaving, String.toList_ofList]
  have exit := other ['e', 'x', 'i', 't'] (by decide +kernel)
  have quit := other ['q', 'u', 'i', 't'] (by decide +kernel)
  show (decide (_ = String.ofList _) || decide (_ = String.ofList _)) = false
  rw [decide_eq_false exit, decide_eq_false quit]
  rfl

/-- Every run of this session ends, but the remainder of infinity takes the session down. -/
theorem finish_hugeRemainder :
    (∀ step ∈ Machine.start.runSources 0 (entered (met (lines (String.ofList hugeRemainder)))),
      step.2 ≠ some (.stop .unfinished)) ∧
      ((Task.repl ⟨none, false, false, true, 0⟩).finish [] (String.ofList hugeRemainder)).exit =
        .broken .domain := by
  have counts : entered (met [String.ofList hugeRemainder]) = [String.ofList hugeRemainder] := by
    simp [entered, met, isBlank_hugeRemainder, isLeaving_hugeRemainder]
  have refused : BinaryOp.rem.onNumbers (Lexeme.numberValue huge) (Lexeme.numberValue one) =
      .error .domain := by
    rw [BinaryOp.onNumbers, if_neg (by decide +kernel), if_pos (by decide +kernel)]
  have breaks : ((Machine.start.ready 0).runSource (String.ofList hugeRemainder)).2 =
      some (.stop .domain) := by
    obtain ⟨m, ran⟩ := run_remainder refused (Machine.start.ready 0).turns.fuel (.ready .start 0)
    rw [Machine.runSource, Machine.runSourceWithin_of_read _ read_hugeRemainder, ran]
    rfl
  have broken : (session 0 .start [String.ofList hugeRemainder]).broken = true :=
    session_breaks isLeaving_hugeRemainder isBlank_hugeRemainder breaks []
  have exit (input : String) : ((Task.repl ⟨none, false, false, true, 0⟩).finish [] input).exit =
      if (session 0 .start (lines input)).broken then .broken .domain else .status 0 := rfl
  refine ⟨?_, ?_⟩
  · rw [lines_hugeRemainder, counts, Machine.runSources, Machine.runSources]
    intro step member
    rw [List.mem_singleton.mp member, breaks]
    rintro ⟨⟩
  · rw [exit, lines_hugeRemainder, if_pos broken]

end Repl

end Script
