import Script.Proofs.Grammar.Reading
import Script.Proofs.Run.Echoes
import Script.Proofs.Run.Limit

/-!
A session as one text. Texts that are run one after another, without a limit, come to the same as
their program in one piece, if each of them closes its last statement.
-/

namespace Script

def Program.reads (source : String) : Bool := (Program.read source).isOk

theorem Program.read_of_reads {source : String} (reads : Program.reads source) :
    ∃ p, Program.read source = .ok p := by
  unfold Program.reads at reads
  cases known : Program.read source with
  | ok p => exact ⟨p, rfl⟩
  | error problem =>
      rw [known] at reads
      cases reads

theorem Program.run_append (fuel : Nat) (p q : Program) :
    Program.run fuel (p ++ q) = p.run fuel >>= fun _ => q.run fuel := by
  induction p with
  | nil => rfl
  | cons s rest again => simp only [List.cons_append, run, again, bind_assoc]

theorem Turns.answers_unlimited {t : Turns} (unlimited : t.limit = none) (n : Nat) :
    t.answers n = List.replicate n false := by
  induction n generalizing t with
  | zero => rfl
  | succ n again =>
      have goes : t.ask.isOver = false := by simp [isOver, ask, unlimited]
      rw [answers, goes, again (t := t.ask) unlimited]
      rfl

namespace Machine

def runSourcesWithin (fuel : Nat) (limit : Int) (m : Machine) :
    List String → List (Machine × Option Problem)
  | [] => []
  | source :: rest =>
    let step := (m.ready limit).runSourceWithin fuel source
    step :: step.1.runSourcesWithin fuel limit rest

variable {fuel : Nat} {limit : Int}

theorem runSources_eq_within (unlimited : limit ≤ 0) (m : Machine) (sources : List String) :
    m.runSources limit sources = m.runSourcesWithin (Nat.pow 2 62) limit sources := by
  have turns (m : Machine) : (m.ready limit).turns.fuel = Nat.pow 2 62 := by
    simp only [ready, Turns.ofLimit, Turns.fuel, if_pos unlimited]
  induction sources generalizing m with
  | nil => rfl
  | cons source rest again =>
      rw [runSources, runSourcesWithin, runSource, turns, again]

theorem runSourcesWithin_ready (m : Machine) (sources : List String) :
    (m.ready limit).runSourcesWithin fuel limit sources =
      m.runSourcesWithin fuel limit sources := by
  cases sources <;> rfl

theorem runSourcesWithin_filter (m : Machine) (sources : List String) :
    ((sources.zip (m.runSourcesWithin fuel limit sources)).filter (Program.reads ·.1)).map (·.2) =
      m.runSourcesWithin fuel limit (sources.filter Program.reads) := by
  induction sources generalizing m with
  | nil => rfl
  | cons source rest again =>
      rw [runSourcesWithin, List.zip_cons_cons, List.filter_cons, List.filter_cons]
      by_cases reads : Program.reads source
      · rw [if_pos reads, if_pos reads, List.map_cons, again]
        rfl
      · have same : ((m.ready limit).runSourceWithin fuel source).1 = m.ready limit := by
          rw [runSourceWithin_eq]
          cases known : Program.read source with
          | error problem => rfl
          | ok p =>
              rw [Program.reads, known] at reads
              exact absurd rfl reads
        rw [if_neg reads, if_neg reads, again, same, runSourcesWithin_ready]

/-- The machine and the problem that a run ends with. -/
def answer : EStateM.Result Stop Machine Unit → Machine × Option Problem
  | .ok () m => (m, none)
  | .error stop m => (m, some (.stop stop))

theorem runSourceWithin_of_read (fuel : Nat) {source : String} {p : Program}
    (reads : Program.read source = .ok p) (m : Machine) :
    m.runSourceWithin fuel source = answer (p.run fuel m) := by
  rw [runSourceWithin_eq, reads]
  simp only [runProgramWithin_eq]
  cases p.run fuel m <;> rfl

/-- The run `whole` of a text in one piece comes to the same as the last of the steps, and prints
the lines of all of them; `step` is `n` lines further down in it. -/
structure Joins (n : Nat) (steps : List (Machine × Option Problem))
    (step whole : Machine × Option Problem) : Prop where
  output : whole.1.output.toList = steps.flatMap (·.1.output.toList)
  scopes : whole.1.scopes = step.1.scopes
  heap : whole.1.heap = step.1.heap
  last : whole.1.last = step.1.last
  stop : ∃ stop? : Option Stop, step.2 = stop?.map .stop ∧
    whole.2 = stop?.map fun stop => .stop (stop.moved (.down n))

def newlines : List String → Nat
  | [] => 0
  | source :: rest => (source ++ "\n").toList.count '\n' + newlines rest

theorem moved_zero (stop : Stop) : stop.moved (.down 0) = stop := by
  cases stop <;> rfl

theorem moved_down (stop : Stop) (n k : Nat) :
    (stop.moved (.down n)).moved (.down k) = stop.moved (.down (k + n)) := by
  have down (pos : Pos) : (pos.down n).down k = pos.down (k + n) := by
    simp only [Pos.down, Nat.add_assoc, Nat.add_comm n k]
  cases stop <;> simp only [Stop.moved, down]

theorem Joins.single (result : EStateM.Result Stop Machine Unit) :
    Joins 0 [answer result] (answer result) (answer result) := by
  refine ⟨by simp, rfl, rfl, rfl, ?_⟩
  cases result with
  | ok a m => exact ⟨none, rfl, rfl⟩
  | error stop m => exact ⟨some stop, rfl, by simp only [Option.map_some, moved_zero, answer]⟩

theorem Joins.of_echo {n k : Nat} {steps : List (Machine × Option Problem)}
    {first step : Machine × Option Problem} {later whole : EStateM.Result Stop Machine Unit}
    (joins : Joins n steps step (answer later))
    (echo : Echo (.down k) first.1.output later whole) :
    Joins (k + n) (first :: steps) step (answer whole) := by
  obtain ⟨output, scopes, heap, last, stop?, same, stopped⟩ := joins
  have lines {m m' : Machine} (echoes : m.Echoes first.1.output m')
      (output : m.output.toList = steps.flatMap (·.1.output.toList)) :
      m'.output.toList = (first :: steps).flatMap (·.1.output.toList) := by
    rw [echoes.output, Array.toList_append, output, List.flatMap_cons]
  cases echo with
  | ok a echoes =>
      refine ⟨lines echoes output, echoes.scopes.trans scopes, echoes.heap.trans heap,
        echoes.last.trans last, none, ?_, rfl⟩
      rw [same]
      cases stop? with
      | none => rfl
      | some cause => cases stopped
  | error stop echoes =>
      refine ⟨lines echoes output, echoes.scopes.trans scopes, echoes.heap.trans heap,
        echoes.last.trans last, stop?, same, ?_⟩
      cases stop? with
      | none => cases stopped
      | some cause =>
          obtain rfl : stop = cause.moved (.down n) := Problem.stop.inj (Option.some.inj stopped)
          exact congrArg (fun stop => some (Problem.stop stop)) (moved_down cause n k)

theorem ready_echoes (unlimited : limit ≤ 0) {p : Program} {m m' : Machine}
    (ran : p.run fuel (m.ready limit) = .ok () m') : (m'.ready limit).Echoes m'.output m' := by
  have endless (m : Machine) : (m.ready limit).turns.limit = none := if_pos unlimited
  have grows := (p.run_follows (.refl none) (Nat.le_refl fuel)).grows (m.ready limit)
  rw [ran] at grows
  have kept : m'.turns.limit = none := grows.limit.trans (endless m)
  refine ⟨rfl, rfl, rfl, Array.append_empty.symm, fun n => ?_⟩
  rw [Turns.answers_unlimited kept, Turns.answers_unlimited (endless m')]

theorem intercalate_cons_concat (first source : String) (rest : List String) :
    "\n".intercalate (first :: (rest ++ [source])) =
      first ++ "\n" ++ "\n".intercalate (rest ++ [source]) := by
  cases rest <;> exact String.intercalate_cons_cons

theorem runSourcesWithin_joins (unlimited : limit ≤ 0) {source : String} {q : Program}
    (reads : Program.read source = .ok q) (after before : List String) :
    ∀ m : Machine, (∀ text ∈ before, Program.reads text ∧ Token.Closed text) →
      (∀ step ∈ (m.runSourcesWithin fuel limit (before ++ source :: after)).take before.length,
        step.2 = none) →
      ∃ p step, Program.read ("\n".intercalate (before ++ [source])) = .ok p ∧
        (m.runSourcesWithin fuel limit (before ++ source :: after))[before.length]? = some step ∧
        Joins (newlines before)
          ((m.runSourcesWithin fuel limit (before ++ source :: after)).take (before.length + 1))
          step (answer (p.run fuel (m.ready limit))) := by
  -- on the texts before: the first one is run, then the program of the others on the machine it
  -- leaves
  induction before with
  | nil =>
      intro m _ _
      have step := runSourceWithin_of_read fuel reads (m.ready limit)
      have single := Joins.single (q.run fuel (m.ready limit))
      rw [← step] at single
      exact ⟨q, _, reads, rfl, step ▸ single⟩
  | cons first rest again =>
      intro m known goes
      obtain ⟨readsFirst, closed⟩ := known first List.mem_cons_self
      obtain ⟨p, readsFirst⟩ := Program.read_of_reads readsFirst
      have step := runSourceWithin_of_read fuel readsFirst (m.ready limit)
      have ended : ((m.ready limit).runSourceWithin fuel first).2 = none :=
        goes _ List.mem_cons_self
      rw [step] at ended
      cases ran : p.run fuel (m.ready limit) with
      | error stop m' =>
          rw [ran] at ended
          cases ended
      | ok _ m' =>
          rw [ran] at step
          have steps : m.runSourcesWithin fuel limit (first :: rest ++ source :: after) =
              (m', none) :: m'.runSourcesWithin fuel limit (rest ++ source :: after) := by
            rw [List.cons_append, runSourcesWithin, step]
            rfl
          rw [steps] at goes ⊢
          obtain ⟨others, last, readsOthers, found, joins⟩ := again m'
            (fun text member => known text (List.mem_cons_of_mem _ member))
            (fun later member => goes later (List.mem_cons_of_mem _ member))
          have readsWhole := Program.read_join readsFirst closed readsOthers
          rw [← intercalate_cons_concat] at readsWhole
          refine ⟨_, last, readsWhole, found, joins.of_echo ?_⟩
          rw [Program.run_append, Run.bind_ok ran]
          exact (others.run_echoes fuel).goes (ready_echoes unlimited ran)

/-- The texts of a session that are no programs change no other step. Of those that are, the ones up
to a text make one program with it, if each before it closes its last statement and ends well; and
in one piece they come to the same as in steps, on any fuel. -/
theorem runSources_joined (fuel : Nat) {limit : Int} (unlimited : limit ≤ 0) (m : Machine)
    (sources : List String) :
    m.runSources limit sources = m.runSourcesWithin (Nat.pow 2 62) limit sources ∧
    let kept := sources.filter Program.reads
    let steps := m.runSourcesWithin fuel limit kept
    ((sources.zip (m.runSourcesWithin fuel limit sources)).filter (Program.reads ·.1)).map (·.2) =
        steps ∧
      ∀ before source after, kept = before ++ source :: after →
        (∀ text ∈ before, Token.Closed text) →
        (∀ step ∈ steps.take before.length, step.2 = none) →
        ∃ p step, Program.read ("\n".intercalate (before ++ [source])) = .ok p ∧
          steps[before.length]? = some step ∧
          Joins (newlines before) (steps.take (before.length + 1)) step
            ((m.ready limit).runSourceWithin fuel ("\n".intercalate (before ++ [source]))) := by
  refine ⟨runSources_eq_within unlimited m sources, runSourcesWithin_filter m sources, ?_⟩
  intro before source after same closed goes
  have reads {text : String} (member : text ∈ before ++ source :: after) : Program.reads text := by
    rw [← same] at member
    exact (List.mem_filter.mp member).2
  obtain ⟨q, readsSource⟩ := Program.read_of_reads
    (reads (List.mem_append_right _ List.mem_cons_self))
  rw [same] at goes ⊢
  obtain ⟨p, step, readsWhole, found, joins⟩ :=
    runSourcesWithin_joins unlimited readsSource after before m
      (fun text member => ⟨reads (List.mem_append_left _ member), closed text member⟩) goes
  rw [← runSourceWithin_of_read fuel readsWhole] at joins
  exact ⟨p, step, readsWhole, found, joins⟩

theorem scan_mark : Token.scan ";" =
    ⟨[⟨.punct .semicolon, ";", ⟨1, 1⟩⟩, ⟨.endOfInput, "", ⟨1, 2⟩⟩], none⟩ := by
  have reads : Lexeme.Reads [';'] (.punct .semicolon) [] [';'] := rfl
  show Token.scanFrom .start [';'] = _
  rw [Token.scanFrom_lexeme .start rfl (by decide) reads, Token.scanFrom_empty]
  rfl

theorem scan_name : Token.scan "y" =
    ⟨[⟨.identifier "y", "y", ⟨1, 1⟩⟩, ⟨.endOfInput, "", ⟨1, 2⟩⟩], none⟩ := by
  have reads : Lexeme.Reads ['y'] (.identifier "y") [] ['y'] := rfl
  show Token.scanFrom .start ['y'] = _
  rw [Token.scanFrom_lexeme .start rfl (by decide) reads, Token.scanFrom_empty]
  rfl

theorem scan_stray : (Token.scan "#").error = some ⟨.stray '#', ⟨1, 1⟩⟩ := by
  show (Token.scanFrom .start ['#']).error = _
  have gap : filler ['#'] = .none _ := filler_none rfl (by decide)
  have refused : Lexeme.read '#' [] = .error (.stray '#') := rfl
  rw [Token.scanFrom_error_of .start (by rw [gap]; rfl) refused, gap]
  rfl

theorem read_mark : Program.read ";" = .ok [.block ⟨1, 1⟩ []] := by
  rw [Program.read_eq_ok_iff, scan_mark]
  exact ⟨rfl, @Program.Derived.mk [_] _ _ rfl (.cons (.empty rfl) .nil)⟩

theorem read_name : Program.read "y" = .ok [.expr ⟨1, 1⟩ (.name ⟨1, 1⟩ "y")] := by
  rw [Program.read_eq_ok_iff, scan_name]
  have whole : Grammar.Simple ⟨false, false⟩ [⟨.identifier "y", "y", ⟨1, 1⟩⟩] _ :=
    .expr (Grammar.Expression.name "y" ⟨1, 1⟩)
  exact ⟨rfl, @Program.Derived.mk [_] _ _ rfl (.cons (.unterminated whole (.stop rfl)) .nil)⟩

theorem reads_stray : Program.reads "#" = false := by
  rw [← Bool.not_eq_true]
  intro reads
  obtain ⟨p, reads⟩ := Program.read_of_reads reads
  have ends := (Program.read_eq_ok_iff.mp reads).1
  rw [scan_stray] at ends
  cases ends

theorem runSources_joined_missingName :
    [";", "#", "y"].filter Program.reads = [";", "y"] ∧
    ∃ p step, Program.read ("\n".intercalate ([";"] ++ ["y"])) = .ok p ∧
      (start.runSourcesWithin 1 0 ([";", "#", "y"].filter Program.reads))[1]? = some step ∧
      Joins (newlines [";"])
        ((start.runSourcesWithin 1 0 ([";", "#", "y"].filter Program.reads)).take 2) step
        ((start.ready 0).runSourceWithin 1 ("\n".intercalate ([";"] ++ ["y"]))) := by
  have mark : Program.reads ";" = true := by rw [Program.reads, read_mark]; rfl
  have name : Program.reads "y" = true := by rw [Program.reads, read_name]; rfl
  have kept : [";", "#", "y"].filter Program.reads = [";"] ++ "y" :: [] := by
    simp [List.filter, mark, name, reads_stray]
  refine ⟨kept, (runSources_joined 1 (Int.le_refl 0) start [";", "#", "y"]).2.2 [";"] "y" [] kept
    ?_ ?_⟩
  · intro text member
    rw [List.mem_singleton.mp member, Token.Closed, scan_mark]
    rintro t ⟨⟩
    exact .inl rfl
  · intro step member
    have ran := runSourceWithin_of_read 1 read_mark (start.ready 0)
    rw [kept, List.singleton_append, runSourcesWithin, ran] at member
    rw [List.mem_singleton.mp member]
    rfl

end Machine

end Script
