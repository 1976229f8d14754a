import Script.Proofs.Run.Invariant
import Script.Proofs.Run.Truncation

/-!
Runs under a limit. They end whatever they run, and a wider limit only lets them go on where they
were cancelled.
-/

namespace Script

/-- As many turns were begun as were asked for, and no more than the limit. -/
structure Machine.Within (limit : Nat) (m : Machine) : Prop where
  known : m.turns.limit = some limit
  asked : m.turns.asked ≤ limit
  begun : m.turns.begun = m.turns.asked

def StopsWithin (limit : Nat) : Stop → Machine → Prop
  | .cancelled .., m => m.turns.asked = limit + 1 ∧ m.turns.begun = limit
  | .fault .., m | .domain, m => m.Within limit
  | .unfinished, _ => False

section Limit

variable {limit fuel : Nat} {m m' : Machine}

theorem Machine.Within.of_eq (within : m.Within limit) (same : m'.turns = m.turns) :
    m'.Within limit where
  known := by rw [same, within.known]
  asked := by
    rw [same]
    exact within.asked
  begun := by rw [same, within.begun]

theorem Machine.Within.isOver (within : m.Within limit) :
    m.turns.ask.isOver ↔ m.turns.asked = limit := by
  have bound := within.asked
  simp only [Turns.isOver, Turns.ask, within.known, Option.any_some, decide_eq_true_eq]
  omega

theorem Machine.Within.begins (within : m.Within limit) (free : ¬ m.turns.ask.isOver) :
    Machine.Within limit { m with turns := m.turns.ask.begin } where
  known := within.known
  asked := Nat.lt_of_le_of_ne within.asked fun same => free (within.isOver.mpr same)
  begun := congrArg (· + 1) within.begun

/-- A turn is cancelled if all turns were begun; every other turn leaves fewer to begin. -/
theorem Run.loop_within (pos : Pos) {test : Run Value} {body : Run Signal} (grows : Growing test)
    (tests : ∀ m, m.Within limit → Meets (·.Within limit) (StopsWithin limit) (test m))
    (growsBody : Growing body)
    (runs : ∀ m, m.Within limit → Meets (·.Within limit) (StopsWithin limit) (body m))
    (fuel : Nat) : ∀ turns {m : Machine}, m.Within limit → limit < m.turns.asked + fuel →
      Meets (·.Within limit) (StopsWithin limit) (Run.loop pos test body turns fuel m) := by
  induction fuel with
  | zero =>
      intro turns m within enough
      exact absurd within.asked (Nat.not_le_of_lt enough)
  | succ fuel again =>
      intro turns m within enough
      rw [Run.loop]
      apply Meets.bind (tests m within)
      intro v m₁ ran within₁
      have asked₁ := (grows m).asked
      rw [ran] at asked₁
      split
      · by_cases past : m₁.turns.ask.isOver
        · have polled : poll pos turns m₁ = .error (.cancelled turns pos)
              { m₁ with turns := m₁.turns.ask } := by rw [poll_apply, if_pos past]
          rw [bind_error polled]
          have same := within₁.isOver.mp past
          exact ⟨congrArg (· + 1) same, within₁.begun.trans same⟩
        · have polled : poll pos turns m₁ = .ok () { m₁ with turns := m₁.turns.ask } := by
            rw [poll_apply, if_neg past]
          rw [bind_ok polled]
          have within₂ := within₁.begins past
          rw [bind_ok (show begin { m₁ with turns := m₁.turns.ask } =
            .ok () { m₁ with turns := m₁.turns.ask.begin } from rfl)]
          apply Meets.bind (runs _ within₂)
          intro signal m₃ ran within₃
          have asked₃ := (growsBody { m₁ with turns := m₁.turns.ask.begin }).asked
          rw [ran] at asked₃
          have fewer : limit < m₃.turns.asked + fuel := by
            have step : m₁.turns.asked + 1 ≤ m₃.turns.asked := asked₃
            have before : m.turns.asked ≤ m₁.turns.asked := asked₁
            omega
          cases signal with
          | normal | «continue» => exact again (turns + 1) within₃ fewer
          | «break» => exact within₃
      · exact within₁

theorem execSteps_within (enough : limit < fuel) :
    ExecSteps fuel (·.Within limit) (StopsWithin limit) (fun _ => True) (fun _ => True) where
  operand := fun _ _ _ => trivial
  print := fun _ _ within => within.of_eq rfl
  alloc := fun _ within => within.of_eq rfl
  fault := fun _ _ _ within => within
  domain := fun _ _ _ _ _ _ within => within
  uses := fun _ _ => trivial
  inner := fun _ _ => trivial
  refuse := fun _ _ _ within => within
  note := fun _ within => within.of_eq rfl
  last := fun _ within => within.of_eq rfl
  define := fun _ within => within.of_eq rfl
  assign := fun _ within => within.of_eq rfl
  write := fun _ _ within => within.of_eq rfl
  scope := by
    intro run m runs within
    refine .inScope (within.of_eq rfl) (fun within => within.of_eq rfl) ?_ runs
    intro stop m stops
    cases stop with
    | cancelled => exact stops
    | fault | domain => exact stops.of_eq rfl
    | unfinished => exact stops
  loop := by
    intro pos test body _ tests runs m within
    have growing := ((body.exec_follows (.refl none) (Nat.le_refl fuel)).branch body).grows
    have left : limit < m.turns.asked + fuel := Nat.lt_add_left _ enough
    exact Run.loop_within pos test.eval_timeless.grows tests growing runs fuel 0 within left

theorem Program.run_within (enough : limit < fuel) (within : m.Within limit) (p : Program) :
    Meets (·.Within limit) (StopsWithin limit) (p.run fuel m) :=
  p.run_meets (execSteps_within enough) (fun _ _ => trivial) within

theorem Program.run_ends (enough : limit < fuel) (within : m.Within limit) (p : Program)
    (m' : Machine) : p.run fuel m ≠ .error .unfinished m' := by
  intro ran
  have stops := p.run_within enough within
  rw [ran] at stops
  exact stops

end Limit

namespace Machine

theorem ready_within (m : Machine) {limit : Int} (positive : 0 < limit) :
    (m.ready limit).Within limit.toNat where
  known := by
    show (if limit ≤ 0 then none else some limit.toNat) = some limit.toNat
    rw [if_neg (Int.not_le.mpr positive)]
  asked := Nat.zero_le _
  begun := rfl

theorem ready_fuel (m : Machine) {limit : Int} (positive : 0 < limit) :
    (m.ready limit).turns.fuel = limit.toNat + 1 := by
  rw [Turns.fuel, (m.ready_within positive).known]

theorem ready_wider (m : Machine) {short long : Int} (positive : 0 < short)
    (wider : long ≤ 0 ∨ short ≤ long) :
    Wider (m.ready short).turns.limit (m.ready long).turns.limit := by
  intro asked past
  rw [(m.ready_within positive).known]
  by_cases unlimited : long ≤ 0
  · have none : (m.ready long).turns.limit = none := if_pos unlimited
    rw [none] at past
    cases past
  · have some : (m.ready long).turns.limit = some long.toNat := if_neg unlimited
    rw [some] at past
    simp only [Option.any_some, decide_eq_true_eq] at past ⊢
    omega

def outcome : EStateM.Result Stop Machine Unit → Machine × Option Stop
  | .ok () m => (m, none)
  | .error stop m => (m, some stop)

theorem runProgramWithin_eq (fuel : Nat) (m : Machine) (p : Program) :
    m.runProgramWithin fuel p = outcome (p.run fuel m) := by
  unfold runProgramWithin apply
  cases p.run fuel m <;> rfl

theorem run_ends_of (m : Machine) (p : Program) {limit : Int} {fuel : Nat}
    (ends : (0 < limit ∧ limit < fuel) ∨
      ((m.ready limit).runProgramWithin fuel p).2 ≠ some .unfinished) (m' : Machine) :
    p.run fuel (m.ready limit) ≠ .error .unfinished m' := by
  rcases ends with ⟨positive, enough⟩ | ends
  · exact p.run_ends (by omega) (m.ready_within positive) m'
  · intro ran
    rw [runProgramWithin_eq, ran] at ends
    exact ends rfl

end Machine

def IsCancelled : Option Stop → Prop
  | some (.cancelled ..) => True
  | _ => False

/-- Of two results in step the first is the second but for the limit, or it is cancelled after the
last turn that its limit allows. -/
theorem outcome_of_truncates {limit : Nat} {narrow wide : Option Nat}
    {short long : EStateM.Result Stop Machine Unit} (truncates : Truncates narrow wide short long)
    (stops : Meets (·.Within limit) (StopsWithin limit) short) :
    let (cut, stop) := Machine.outcome short
    let (whole, stopWhole) := Machine.outcome long
    (¬ IsCancelled stop ∧ ¬ limit < whole.turns.asked ∧ stopWhole = stop ∧
        whole = cut.limited whole.turns.limit) ∨
      (IsCancelled stop ∧ limit < whole.turns.asked ∧
        cut.output.toList <+: whole.output.toList ∧ cut.turns.begun = limit) := by
  cases truncates with
  | same =>
      cases short with
      | ok _ cut => exact .inl ⟨id, Nat.not_lt_of_le stops.asked, rfl, rfl⟩
      | error stop cut =>
          cases stop with
          | cancelled =>
              have further : limit < cut.turns.asked := by
                rw [stops.1]
                exact Nat.lt_succ_self limit
              exact .inr ⟨trivial, further, List.prefix_refl _, stops.2⟩
          | fault | domain => exact .inl ⟨id, Nat.not_lt_of_le stops.asked, rfl, rfl⟩
          | unfinished => exact stops.elim
  | @cut stop cut _ cuts grows =>
      cases stop with
      | cancelled =>
          have further : limit < (Run.after long).turns.asked := by
            calc
              limit < cut.turns.asked := by
                rw [stops.1]
                exact Nat.lt_succ_self limit
              _ ≤ (Run.after long).turns.asked := grows.asked
          cases long <;> exact .inr ⟨trivial, further, grows.output, stops.2⟩
      | unfinished => exact stops.elim
      | fault | domain => exact cuts.elim

/-- A limit only cuts a run. If it does not cancel it, the run under a wider limit is the same but
for the limit. If it does, all the turns it allows were begun, and the run under a wider limit
prints the same lines first. It does exactly if that run asks for a further turn. -/
theorem Machine.runProgram_cuts (m : Machine) (p : Program) {short long : Int} {fuel : Nat}
    (positive : 0 < short) (wider : long ≤ 0 ∨ short ≤ long)
    (ends : (0 < long ∧ long < fuel) ∨
      ((m.ready long).runProgramWithin fuel p).2 ≠ some .unfinished) :
    let (cut, stop) := (m.ready short).runProgram p
    let (whole, stopWhole) := (m.ready long).runProgramWithin fuel p
    (¬ IsCancelled stop → stopWhole = stop ∧ whole = cut.limited whole.turns.limit) ∧
      (IsCancelled stop →
        cut.output.toList <+: whole.output.toList ∧ cut.turns.begun = short) ∧
      (IsCancelled stop ↔ short < whole.turns.asked) := by
  have within := m.ready_within positive
  have ending := m.run_ends_of p ends
  have shortEnds := p.run_ends (Nat.lt_succ_self _) within
  have stops := p.run_within (Nat.lt_succ_self _) within
  -- Both runs are brought to the same fuel, on which they go in step.
  have truncates : Truncates (m.ready short).turns.limit (m.ready long).turns.limit
      (p.run (short.toNat + 1) (m.ready short)) (p.run fuel (m.ready long)) := by
    rw [← p.run_of_le (Nat.le_max_left _ fuel) _ shortEnds,
      ← p.run_of_le (Nat.le_max_right (short.toNat + 1) _) _ ending]
    exact (p.run_follows (m.ready_wider positive wider) (Nat.le_refl _)).truncates _ rfl
  have outcomes := outcome_of_truncates truncates stops
  rw [runProgram, m.ready_fuel positive, runProgramWithin_eq, runProgramWithin_eq]
  generalize outcome (p.run (short.toNat + 1) (m.ready short)) = first at outcomes
  generalize outcome (p.run fuel (m.ready long)) = second at outcomes
  obtain ⟨cut, stop⟩ := first
  obtain ⟨whole, stopWhole⟩ := second
  have count : (short.toNat : Int) = short := Int.toNat_of_nonneg (Int.le_of_lt positive)
  rcases outcomes with ⟨free, enough, same⟩ | ⟨cancelled, further, lines, begun⟩
  · have enough : ¬ short < whole.turns.asked := by omega
    exact ⟨fun _ => same, fun cancelled => absurd cancelled free,
      fun cancelled => absurd cancelled free, fun further => absurd further enough⟩
  · have further : short < whole.turns.asked := by omega
    have begun : (cut.turns.begun : Int) = short := by omega
    exact ⟨fun free => absurd cancelled free, fun _ => ⟨lines, begun⟩, fun _ => further,
      fun _ => cancelled⟩

def endless : Program := [.while ⟨1, 1⟩ (.literal ⟨1, 8⟩ (.boolean true)) (.block ⟨1, 14⟩ [])]

theorem runProgram_endless :
    IsCancelled ((Machine.start.ready 1).runProgram endless).2 ∧
      ((Machine.start.ready 1).runProgram endless).1.turns.begun = (1 : Int) ∧
      (1 : Int) < ((Machine.start.ready 2).runProgramWithin 3 endless).1.turns.asked := by
  have cuts := Machine.runProgram_cuts .start endless (show (0 : Int) < 1 by decide)
    (.inr (show (1 : Int) ≤ 2 by decide)) (.inl ⟨by decide, show (2 : Int) < (3 : Nat) by decide⟩)
  have cancelled : IsCancelled ((Machine.start.ready 1).runProgram endless).2 := trivial
  exact ⟨cancelled, (cuts.2.1 cancelled).2, cuts.2.2.mp cancelled⟩

theorem Program.read_ne_stop (source : String) (stop : Stop) :
    Program.read source ≠ .error (.stop stop) := by
  intro read
  unfold Program.read Program.reading at read
  split at read
  · cases read
  · split at read <;> cases read

namespace Machine

theorem runSourceWithin_eq (fuel : Nat) (m : Machine) (source : String) :
    m.runSourceWithin fuel source =
      match Program.read source with
      | .error problem => (m, some problem)
      | .ok p => ((m.runProgramWithin fuel p).1, (m.runProgramWithin fuel p).2.map .stop) := rfl

theorem runProgramWithin_ready (m : Machine) {limit : Int} (positive : 0 < limit) {fuel : Nat}
    (enough : limit < fuel) (p : Program) :
    (m.ready limit).runProgramWithin fuel p = (m.ready limit).runProgram p ∧
      ((m.ready limit).runProgramWithin fuel p).2 ≠ some .unfinished ∧
      ((m.ready limit).runProgramWithin fuel p).1.turns.begun ≤ limit := by
  have within := m.ready_within positive
  have ends := p.run_ends (Nat.lt_succ_self _) within
  have stops := p.run_within (show limit.toNat < fuel by omega) within
  rw [runProgram, m.ready_fuel positive, runProgramWithin_eq, runProgramWithin_eq,
    ← p.run_of_le (show limit.toNat + 1 ≤ fuel by omega) _ ends]
  refine ⟨rfl, ?_⟩
  cases ran : p.run fuel (m.ready limit) with
  | ok _ m' =>
      rw [ran] at stops
      have bound : m'.turns.begun ≤ limit.toNat := stops.begun ▸ stops.asked
      exact ⟨nofun, show (m'.turns.begun : Int) ≤ limit by omega⟩
  | error stop m' =>
      rw [ran] at stops
      have bound : m'.turns.begun ≤ limit.toNat := by
        cases stop with
        | cancelled => exact Nat.le_of_eq stops.2
        | fault | domain => exact stops.begun ▸ stops.asked
        | unfinished => exact stops.elim
      refine ⟨?_, show (m'.turns.begun : Int) ≤ limit by omega⟩
      rintro ⟨⟩
      exact stops

theorem runSourceWithin_ready (m : Machine) {limit : Int} (positive : 0 < limit) {fuel : Nat}
    (enough : limit < fuel) (source : String) :
    (m.ready limit).runSourceWithin fuel source = (m.ready limit).runSource source ∧
      ((m.ready limit).runSourceWithin fuel source).2 ≠ some (.stop .unfinished) ∧
      ((m.ready limit).runSourceWithin fuel source).1.turns.begun ≤ limit := by
  rw [runSource, runSourceWithin_eq, runSourceWithin_eq]
  cases result : Program.read source with
  | error problem =>
      refine ⟨rfl, ?_, Int.le_of_lt positive⟩
      rintro ⟨⟩
      exact Program.read_ne_stop source _ result
  | ok p =>
      obtain ⟨same, ends, bound⟩ := m.runProgramWithin_ready positive enough p
      refine ⟨?_, ?_, bound⟩
      · rw [runProgram] at same
        simp only [same]
      · intro unfinished
        simp only [Option.map_eq_some_iff, Problem.stop.injEq, exists_eq_right] at unfinished
        exact ends unfinished

theorem runSource_ends (m : Machine) {limit : Int} (positive : 0 < limit)
    (source : String) : ((m.ready limit).runSource source).2 ≠ some (.stop .unfinished) := by
  have enough : limit < (limit.toNat + 1 : Nat) := by omega
  obtain ⟨same, ends, -⟩ := m.runSourceWithin_ready positive enough source
  rwa [same] at ends

/-- Under a limit every text of a session ends, whatever the texts before it left, with no more
turns begun than the limit, and in the same way on any fuel above the limit. -/
theorem runSources_ends (m : Machine) {limit : Int} (positive : 0 < limit)
    (sources : List String) :
    (∀ step ∈ m.runSources limit sources,
      step.2 ≠ some (.stop .unfinished) ∧ step.1.turns.begun ≤ limit) ∧
    ∀ (m : Machine) (source : String) (fuel : Nat), limit < fuel →
      (m.ready limit).runSourceWithin fuel source = (m.ready limit).runSource source := by
  refine ⟨?_, fun m source fuel enough => (m.runSourceWithin_ready positive enough source).1⟩
  induction sources generalizing m with
  | nil =>
      intro step member
      rw [runSources] at member
      exact absurd member List.not_mem_nil
  | cons source rest again =>
      intro step member
      rw [runSources, List.mem_cons] at member
      rcases member with rfl | later
      · have enough : limit < (limit.toNat + 1 : Nat) := by omega
        obtain ⟨same, ends, bound⟩ := m.runSourceWithin_ready positive enough source
        rw [same] at ends bound
        exact ⟨ends, bound⟩
      · exact again _ step later

theorem runSources_endless :
    (0 : Int) < 3 ∧
      ((Machine.start.ready 3).runSource "while (true) ;").2 ≠ some (.stop .unfinished) ∧
      ((Machine.start.ready 3).runSource "while (true) ;").1.turns.begun ≤ (3 : Int) :=
  ⟨by decide, (runSources_ends .start (by decide) ["while (true) ;"]).1 _ List.mem_cons_self⟩

end Machine

end Script
