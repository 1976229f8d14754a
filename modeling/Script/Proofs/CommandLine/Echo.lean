import Script.Proofs.CommandLine.Session
import Script.Proofs.Run.Matching
import Script.Proofs.Run.Values

/-!
What a session shows of a line. Behind the lines that a program prints stands the value that its
last statement came to, and whatever was entered before shows in it only through the variables that
the program mentions. A line without statements has no such value, and shows that of a line before.
-/

namespace Script

namespace Repl

variable {maxTurns : Nat} {m m' : Machine} {line : String} {p : Program}

/-- What is shown of values: the last of them, unless it is `undefined`. -/
def shownOf (h : Heap) (values : List Value) : List String :=
  match values.getLast? with
  | some v => if v = .undefined then [] else [v.inspect h]
  | none => []

theorem echo_eq {values : List Value} (last : m.last = values.getLast?.getD .undefined) :
    echo m = shownOf m.heap values := by
  rw [echo, shownOf, last]
  cases values.getLast? <;> rfl

theorem reply_eq (reads : Program.read line = .ok p) (some : p ≠ [])
    (ends : (m.runSource line).2 = none) :
    reply (m.runSource line) = (m.runSource line).1.output.toList ++
      shownOf (m.runSource line).1.heap (p.lastValues m.turns.fuel m) := by
  rw [reply, ends]
  dsimp only
  rw [Machine.runSource, Machine.runSourceWithin_of_read _ reads] at ends ⊢
  cases ran : p.run m.turns.fuel m with
  | error stop m' =>
      rw [ran] at ends
      cases ends
  | ok _ m' => exact congrArg (m'.output.toList ++ ·) (echo_eq (Program.run_last some ran))

theorem echo_matches {pairs : Ref → Ref → Prop} (machines : m.Matches p pairs m') :
    echo m = echo m' := by
  have shown := Value.inspect_alike machines.heap machines.last
  rw [echo, echo, shown]
  simp only [machines.last.undefined_iff]

theorem reply_shares (reads : Program.read line = .ok p) (some : p ≠ []) (shares : m.Shares p m')
    (limit : Int) :
    reply ((m'.ready limit).runSource line) = reply ((m.ready limit).runSource line) := by
  have turns : (m'.ready limit).turns.fuel = (m.ready limit).turns.fuel := rfl
  rw [Machine.runSource, Machine.runSource, Machine.runSourceWithin_of_read _ reads,
    Machine.runSourceWithin_of_read _ reads, turns]
  obtain ⟨pairs, ends⟩ := shares.run some limit (m.ready limit).turns.fuel
  generalize p.run _ (m.ready limit) = result at ends ⊢
  generalize p.run _ (m'.ready limit) = result' at ends ⊢
  cases ends with
  | error rel after => rw [Machine.answer, Machine.answer, reply, reply, rel, after.output]
  | ok rel after =>
      rw [Machine.answer, Machine.answer, reply, reply, after.output]
      exact congrArg (_ ++ ·) (echo_matches after).symm

/-- Behind the lines that a line prints, a session shows the value of the last expression statement
that its last statement carried out, if there is one. On every other machine that binds what the
line mentions, and binds what it reads to the same values, the line is answered alike. -/
theorem finish_echoes (settings : Settings) (files : Files) (input : String)
    {before after : List String} (split : lines input = before ++ line :: after)
    (stays : ∀ text ∈ before ++ [line], isLeaving text = false)
    (goes : ∀ step ∈ Machine.start.runSources settings.maxTurns (entered before),
      step.2 ≠ some (.stop .domain))
    (shown : isBlank line = false) (reads : Program.read line = .ok p) (some : p ≠ [])
    (ends : (((Machine.start.left settings.maxTurns (entered before)).ready
      settings.maxTurns).runSource line).2 = none) :
    let left := Machine.start.left settings.maxTurns (entered before)
    let ready := left.ready settings.maxTurns
    let ran := ready.runSource line
    let values := p.lastValues ready.turns.fuel ready
    ((Task.repl settings).finish files input).out =
        Outcome.joined greeting ++ dialogue settings.maxTurns .start before ++ prompt ++
          Outcome.joined (ran.1.output.toList ++ shownOf ran.1.heap values) ++
          (session settings.maxTurns ran.1 after).out ∧
      ∀ other : Machine, left.Shares p other →
        reply ((other.ready settings.maxTurns).runSource line) =
          ran.1.output.toList ++ shownOf ran.1.heap values := by
  have own := reply_eq reads some ends
  refine ⟨?_, fun other shares => (reply_shares reads some shares _).trans own⟩
  have out : ((Task.repl settings).finish files input).out =
    Outcome.joined greeting ++ (session settings.maxTurns .start (lines input)).out := rfl
  have stayed := stays line (List.mem_append_right _ List.mem_cons_self)
  have first := (session_append (fun text member => stays text (List.mem_append_left _ member))
    goes (line :: after)).1
  have second := (session_goes stayed shown (by rw [ends]; nofun) after).1
  rw [out, split, first, second, own]
  simp only [String.append_assoc]

theorem scan_true : Token.scan "true" =
    ⟨[⟨.keyword .true, "true", ⟨1, 1⟩⟩, ⟨.endOfInput, "", ⟨1, 5⟩⟩], none⟩ := by
  have word : Lexeme.Reads ['t', 'r', 'u', 'e'] (.keyword .true) [] ['t', 'r', 'u', 'e'] := rfl
  show Token.scanFrom .start ['t', 'r', 'u', 'e'] = _
  rw [Token.scanFrom_lexeme .start rfl (by decide) word, Token.scanFrom_empty]
  rfl

theorem read_true : Program.read "true" = .ok [.expr ⟨1, 1⟩ (.literal ⟨1, 1⟩ (.boolean true))] := by
  rw [Program.read_eq_ok_iff, scan_true]
  have literal : Grammar.Primary [⟨.keyword .true, "true", ⟨1, 1⟩⟩] _ := .literal .true
  have whole : Grammar.Expression [⟨.keyword .true, "true", ⟨1, 1⟩⟩] _ :=
    Grammar.Chained.mono (.postfixed (.primary literal)) (Nat.zero_le _)
  exact ⟨rfl, @Program.Derived.mk [_] _ _ rfl
    (.cons (.unterminated (.expr whole) (.stop rfl)) .nil)⟩

theorem scan_comment : Token.scan "//" = ⟨[⟨.endOfInput, "", ⟨1, 3⟩⟩], none⟩ := by
  have nothing : filler [] = .none [] := by rw [filler]
  have gap : filler ['/', '/'] = (((lineComment []).append (filler [])).cons '/').cons '/' :=
    filler_line []
  rw [nothing] at gap
  show Token.scanFrom .start ['/', '/'] = _
  rw [Token.scanFrom_nil .start (congrArg Cut.rest gap), gap]
  rfl

theorem read_comment : Program.read "//" = .ok [] := by
  rw [Program.read_eq_ok_iff, scan_comment]
  exact ⟨rfl, @Program.Derived.mk [] _ _ rfl .nil⟩

theorem finish_echoes_true :
    ((Task.repl ⟨none, false, false, true, 1⟩).finish [] "y\ntrue").out =
        "Welcome to the gojo REPL\nType 'exit' or 'quit' to leave\n\n" ++
          ">>> RuntimeError(UnboundIdentifier) at line 1, column 1: 'y' is not defined\n" ++
          ">>> true\n>>> " ∧
      reply ((Machine.start.ready 1).runSource "true") = ["true"] := by
  have split : lines "y\ntrue" = ["y"] ++ "true" :: [] := by decide
  have counts : entered ["y"] = ["y"] := by decide
  have first : (Machine.start.ready 1).runSource "y" = _ :=
    Machine.runSourceWithin_of_read 2 Machine.read_name (Machine.start.ready 1)
  have before : Machine.start.runSources 1 (entered ["y"]) =
      [(Machine.start.ready 1).runSource "y"] := by rw [counts]; rfl
  have left : Machine.start.left 1 (entered ["y"]) = ((Machine.start.ready 1).runSource "y").1 := by
    rw [counts]; rfl
  have second (m : Machine) : (m.ready 1).runSource "true" = _ :=
    Machine.runSourceWithin_of_read 2 read_true (m.ready 1)
  have stays : ∀ text ∈ ["y"] ++ ["true"], isLeaving text = false := by decide
  have whole := finish_echoes ⟨none, false, false, true, 1⟩ [] "y\ntrue" split stays (by
    intro step member
    have known : step ∈ Machine.start.runSources 1 (entered ["y"]) := member
    rw [before] at known
    rw [List.mem_singleton.mp known, first]
    nofun) (by decide) read_true (List.cons_ne_nil _ _) (congrArg Prod.snd (second _))
  have said : dialogue 1 .start ["y"] =
      prompt ++ Outcome.joined (reply ((Machine.start.ready 1).runSource "y")) ++ "" := rfl
  have shares : Machine.Shares [.expr ⟨1, 1⟩ (.literal ⟨1, 1⟩ (.boolean true))]
      (Machine.start.left 1 (entered ["y"])) .start := by
    rw [left, first]
    exact ⟨fun _ _ => False, ⟨nofun, ⟨nofun, nofun⟩, nofun⟩, ⟨.nil, .nil⟩⟩
  have ran : ((Machine.start.left 1 (entered ["y"])).ready 1).runSource "true" = _ := second _
  have turns : ((1 : Nat) : Int) = 1 := rfl
  refine ⟨whole.1.trans ?_, (whole.2 .start shares).trans ?_⟩
  · dsimp only
    rw [turns, ran, said, left, first]
    decide
  · dsimp only
    rw [turns, ran, left, first]
    decide

/-- The line of a comment runs to its end and has no statements, and the value of the line before it
is shown again. -/
theorem finish_echoes_comment :
    lines "true\n//" = ["true", "//"] ∧ Program.read "//" = .ok [] ∧
      (∀ m : Machine, (m.runSource "//").2 = none) ∧
      ((Task.repl ⟨none, false, false, true, 1⟩).finish [] "true\n//").out =
        "Welcome to the gojo REPL\nType 'exit' or 'quit' to leave\n\n" ++
          ">>> true\n>>> true\n>>> " := by
  have split : lines "true\n//" = ["true", "//"] := by decide
  have first (m : Machine) : (m.ready 1).runSource "true" = _ :=
    Machine.runSourceWithin_of_read 2 read_true (m.ready 1)
  have second (m : Machine) : m.runSource "//" = (m, none) :=
    Machine.runSourceWithin_of_read _ read_comment m
  have leaves : met ["true", "//"] = ["true", "//"] := by decide
  have counts : entered (met ["true", "//"]) = ["true", "//"] := by decide
  have goes : ∀ step ∈ Machine.start.runSources 1 (entered (met ["true", "//"])),
      step.2 ≠ some (.stop .domain) := by
    rw [counts, Machine.runSources, Machine.runSources, Machine.runSources, first, second]
    intro step member
    rcases List.mem_pair.mp member with rfl | rfl <;> rintro ⟨⟩
  have whole : (session 1 .start ["true", "//"]).out = _ := (session_eq goes).1
  have said : dialogue 1 .start ["true", "//"] =
      prompt ++ Outcome.joined (reply ((Machine.start.ready 1).runSource "true")) ++
        (prompt ++ Outcome.joined (reply
          ((((Machine.start.ready 1).runSource "true").1.ready 1).runSource "//")) ++ "") := rfl
  have out (input : String) : ((Task.repl ⟨none, false, false, true, 1⟩).finish [] input).out =
    Outcome.joined greeting ++ (session 1 .start (lines input)).out := rfl
  refine ⟨split, read_comment, fun m => congrArg Prod.snd (second m), ?_⟩
  rw [out, split, whole, leaves, said, second, first]
  decide

end Repl

end Script
