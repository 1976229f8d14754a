import Script.Proofs.Grammar.Acceptance
import Script.Proofs.Grammar.Blame
import Script.Proofs.Grammar.Places
import Script.Proofs.Grammar.Reading
import Script.Proofs.Run.Limit
import Script.Proofs.Token.Scanning
import Script.Proofs.Value.Equality

/-!
Why a run stops. Each way to stop has its place among the tokens, but for a remainder that is no
number; nothing else stops a run.
-/

namespace Script

/-- The operands of a remainder in `p`, evaluated one after the other, left the machine as it is but
for its scopes, and gave an infinite number and one that is neither zero nor no number. -/
def RemainderOfInfinity (p : Program) (m : Machine) : Prop :=
  ∃ pos left right before between after x y, p.Uses (.binary pos .rem left right) ∧
    left.eval before = .ok (.number x) between ∧ right.eval between = .ok (.number y) after ∧
    x.isInf ∧ (y == 0) = false ∧ y.isNaN = false ∧ m = { after with scopes := m.scopes }

def StopsAt (tokens : List Token) (p : Program) : Stop → Machine → Prop
  | .fault _ pos, _ | .cancelled _ pos, _ => Grammar.Marked tokens pos
  | .domain, m => RemainderOfInfinity p m
  | .unfinished, _ => True

theorem StopsAt.leave {tokens : List Token} {p : Program} {stop : Stop} {m : Machine}
    (stops : StopsAt tokens p stop m) :
    StopsAt tokens p stop { m with scopes := m.scopes.leave } := by
  cases stop with
  | domain =>
      obtain ⟨pos, left, right, before, between, after, x, y, uses, lefts, rights, infinite,
        nonzero, number, same⟩ := stops
      refine ⟨pos, left, right, before, between, after, x, y, uses, lefts, rights, infinite,
        nonzero, number, ?_⟩
      rw [same]
  | fault | cancelled | unfinished => exact stops

theorem execSteps_stopsAt {tokens : List Token} {p : Program}
    (derived : Program.Derived tokens p) (fuel : Nat) :
    ExecSteps fuel (fun _ => True) (StopsAt tokens p) p.Uses p.Has where
  operand := fun uses _ inside => uses.operand inside
  print := fun _ _ _ => trivial
  alloc := fun _ _ => trivial
  fault := fun uses place _ _ => derived.placed uses _ place
  domain := fun uses lefts rights infinite nonzero number _ =>
    ⟨_, _, _, _, _, _, _, _, uses, lefts, rights, infinite, nonzero, number, rfl⟩
  uses := Program.Uses.of_operand
  inner := Program.Has.inner
  refuse := fun _ has place _ => (derived.laid has).1 _ place
  note := fun _ _ => trivial
  last := fun _ _ => trivial
  define := fun _ _ => trivial
  assign := fun _ _ => trivial
  write := fun _ _ _ => trivial
  scope := fun runs _ => .inScope trivial (fun _ => trivial) StopsAt.leave runs
  loop := by
    intro pos test body has tests runs m _
    refine .loop (fun _ => trivial) ?_ (fun _ => trivial) tests runs fuel 0 trivial
    intro m turns _
    rw [Run.poll_apply]
    split
    · exact (derived.laid has).1 pos List.mem_cons_self
    · exact trivial

theorem Program.run_stopsAt {tokens : List Token} {p : Program}
    (derived : Program.Derived tokens p) (fuel : Nat) (m : Machine) :
    Meets (fun _ => True) (StopsAt tokens p) (p.run fuel m) :=
  p.run_meets (execSteps_stopsAt derived fuel) (fun _ => .of_mem) trivial

/-- What a problem of a text is, and where, if the text was run under the limit on the fuel and left
`m`. -/
def Explains (source : String) (limit : Int) (fuel : Nat) (m : Machine) : Problem → Prop
  | .lex e => Token.Within source.toList .start e.pos
  | .parse .noEnd => False
  | .parse (.wrong e) => ∃ tokens, (Token.scan source).toExcept = .ok tokens ∧ e.found ∈ tokens
  | .stop (.fault _ pos) | .stop (.cancelled _ pos) =>
    ∃ tokens, (Token.scan source).toExcept = .ok tokens ∧ Grammar.Marked tokens pos
  | .stop .domain => ∃ p, Program.read source = .ok p ∧ RemainderOfInfinity p m
  | .stop .unfinished => limit ≤ 0 ∨ fuel ≤ limit

theorem Program.ofTokens_ne_noEnd {tokens : List Token} (once : Token.EndOnce tokens) :
    Program.ofTokens tokens ≠ .error .noEnd := by
  obtain ⟨body, stop, rfl, stops, -⟩ := once
  intro fails
  simp only [Program.ofTokens, Cursor.ofTokens?_concat stops] at fails
  split at fails <;> cases fails

theorem Machine.runSourceWithin_explains {m m' : Machine} {source : String} {limit : Int}
    {fuel : Nat} {problem : Problem}
    (ran : (m.ready limit).runSourceWithin fuel source = (m', some problem)) :
    Explains source limit fuel m' problem := by
  rw [runSourceWithin_eq] at ran
  rcases Program.read_cases source with ⟨e, fails, read⟩ | ⟨tokens, scanned, parsed⟩
  · rw [read] at ran
    cases ran
    exact Token.scan_error fails
  · have once := Token.scan_endOnce scanned
    rcases parsed with ⟨e, fails, read⟩ | ⟨p, reads, read⟩
    · rw [read] at ran
      cases ran
      cases e with
      | noEnd => exact Program.ofTokens_ne_noEnd once fails
      | wrong e => exact ⟨tokens, scanned, Program.ofTokens_blames fails⟩
    · rw [read] at ran
      have derived := Program.Derived.of_reads once reads
      have stops := Program.run_stopsAt derived fuel (m.ready limit)
      simp only [runProgramWithin_eq] at ran
      cases result : p.run fuel (m.ready limit) with
      | ok _ after =>
          rw [result] at ran
          cases ran
      | error stop after =>
          rw [result] at ran stops
          cases ran
          cases stop with
          | fault | cancelled => exact ⟨tokens, scanned, stops⟩
          | domain => exact ⟨p, read, stops⟩
          | unfinished =>
              by_cases unlimited : limit ≤ 0
              · exact .inl unlimited
              · refine .inr (Int.not_lt.mp fun enough => ?_)
                have within := m.ready_within (Int.not_le.mp unlimited)
                exact p.run_ends (by omega) within after result

/-- Whatever was run before, a text runs to its end or has a problem that is explained; and no
comparison asks a value for a number that it does not have. -/
theorem Machine.runSource_explained (m : Machine) (source : String) (limit : Int) (fuel : Nat) :
    (match (m.ready limit).runSourceWithin fuel source with
      | (_, none) => True
      | (m', some problem) => Explains source limit fuel m' problem) ∧
    ∀ left right : Value, (left.looseEquals? right).isSome := by
  refine ⟨?_, Value.looseEquals?_isSome⟩
  split
  · trivial
  · next ran => exact runSourceWithin_explains ran

end Script
