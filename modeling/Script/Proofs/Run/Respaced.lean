import Mathlib
import Script.Proofs.Grammar.Acceptance
import Script.Proofs.Grammar.Likeness
import Script.Proofs.Run.Echoes
import Script.Proofs.Run.Limit

/-!
Further line breaks. A row of tokens with line breaks wherever the first row has them, and perhaps
with more, is the same program, and it runs the same.
-/

namespace Script

/-- The second row has the same tokens, and a line break wherever the first one has one. -/
structure Token.Respaced (tokens tokens' : List Token) : Prop where
  alike : tokens'.map (fun t => (t.kind, t.lexeme)) = tokens.map (fun t => (t.kind, t.lexeme))
  breaks : ∀ (n : Nat) (t u t' u' : Token), tokens[n]? = some t → tokens[n + 1]? = some u →
    tokens'[n]? = some t' → tokens'[n + 1]? = some u' → t.pos.line < u.pos.line →
      t'.pos.line < u'.pos.line

namespace Token.Respaced

variable {t t' next next' : Token} {w w' : List Token}

theorem tail (respaced : Respaced (t :: w) (t' :: w')) : Respaced w w' where
  alike := (List.cons.inj respaced.alike).2
  breaks := fun n => respaced.breaks (n + 1)

theorem kind (respaced : Respaced (t :: w) (t' :: w')) : t'.kind = t.kind :=
  congrArg Prod.fst (List.cons.inj respaced.alike).1

theorem beside (respaced : Respaced (w ++ [next]) (w' ++ [next'])) :
    Grammar.Beside w next w' next' := by
  induction w generalizing w' with
  | nil =>
      have length := congrArg List.length respaced.alike
      cases w' with
      | nil => exact .nil respaced.kind
      | cons t' w' => simp at length
  | cons t w again =>
      have length := congrArg List.length respaced.alike
      cases w' with
      | nil => simp at length
      | cons t' w' =>
          refine .cons respaced.kind (fun before => ?_) (again respaced.tail)
          have second (v : List Token) (last : Token) : (v ++ [last])[0]? = some (v.headD last) := by
            cases v <;> rfl
          exact respaced.breaks 0 t (w.headD next) t' (w'.headD next') rfl (second w next) rfl
            (second w' next') before

end Token.Respaced

theorem Stop.report_moved (f : Pos → Pos) (stop : Stop) :
    (stop.moved f).report.label = stop.report.label ∧
      (stop.moved f).report.message = stop.report.message := by
  cases stop <;> exact ⟨rfl, rfl⟩

/-- Two runs ended alike: on the same bindings and arrays, with the same lines printed and the same
last value, and for the same reason, whatever its place. -/
structure Machine.EndsAs (end' ended : Machine × Option Stop) : Prop where
  output : end'.1.output = ended.1.output
  scopes : end'.1.scopes = ended.1.scopes
  heap : end'.1.heap = ended.1.heap
  last : end'.1.last = ended.1.last
  stop : end'.2.map (·.moved .nowhere) = ended.2.map (·.moved .nowhere)
  label : end'.2.map (·.report.label) = ended.2.map (·.report.label)
  message : end'.2.map (·.report.message) = ended.2.map (·.report.message)

theorem Echo.endsAs {result result' common : EStateM.Result Stop Machine Unit}
    (first : Echo .nowhere #[] result common) (second : Echo .nowhere #[] result' common) :
    Machine.EndsAs (Machine.outcome result') (Machine.outcome result) := by
  have output {m m' last : Machine} (first : m.Echoes #[] last) (second : m'.Echoes #[] last) :
      m'.output = m.output := by
    have same := second.output.symm.trans first.output
    rwa [Array.empty_append, Array.empty_append] at same
  cases first with
  | ok _ echoes =>
      cases second with
      | ok _ echoes' =>
          exact ⟨output echoes echoes', echoes'.scopes.symm.trans echoes.scopes,
            echoes'.heap.symm.trans echoes.heap, echoes'.last.symm.trans echoes.last, rfl, rfl, rfl⟩
  | error stop echoes =>
      generalize moved : stop.moved .nowhere = place at second
      cases second with
      | error stop' echoes' =>
          have told := stop.report_moved .nowhere
          rw [moved] at told
          have told' := stop'.report_moved .nowhere
          exact ⟨output echoes echoes', echoes'.scopes.symm.trans echoes.scopes,
            echoes'.heap.symm.trans echoes.heap, echoes'.last.symm.trans echoes.last,
            congrArg some moved.symm, congrArg some (told'.1.symm.trans told.1),
            congrArg some (told'.2.symm.trans told.2)⟩

theorem Program.endsAs_of_moved {p p' : Program} (alike : p'.moved .nowhere = p.moved .nowhere)
    (fuel : Nat) (m : Machine) :
    Machine.EndsAs (m.runProgramWithin fuel p') (m.runProgramWithin fuel p) := by
  have same : m.Echoes #[] m := ⟨rfl, rfl, rfl, Array.empty_append.symm, fun _ => rfl⟩
  rw [Machine.runProgramWithin_eq, Machine.runProgramWithin_eq]
  have second := (p'.run_echoes (f := .nowhere) fuel).goes same
  rw [alike] at second
  exact ((p.run_echoes fuel).goes same).endsAs second

/-- Further line breaks leave a program as it is, but for its places, and what a run of it comes
to. -/
theorem Program.ofTokens_respaced {tokens tokens' : List Token} (once : Token.EndOnce tokens)
    (once' : Token.EndOnce tokens') (respaced : Token.Respaced tokens tokens') {p : Program}
    (reads : Program.ofTokens tokens = .ok p) :
    ∃ p', Program.ofTokens tokens' = .ok p' ∧ p'.moved .nowhere = p.moved .nowhere ∧
      ∀ (fuel : Nat) (m : Machine),
        Machine.EndsAs (m.runProgramWithin fuel p') (m.runProgramWithin fuel p) := by
  obtain ⟨stops, whole⟩ := Derived.of_reads once reads
  obtain ⟨body', stop', rfl, stops', -⟩ := once'
  obtain ⟨p', whole', alike⟩ := Grammar.Statements.like whole respaced.beside
  exact ⟨p', Derived.reads (.mk stops' whole'), alike, Program.endsAs_of_moved alike⟩

/-- `a` and, on the next line, `b.c`. -/
def twoLines : List Token :=
  [⟨.identifier "a", "a", ⟨1, 1⟩⟩, ⟨.identifier "b", "b", ⟨2, 1⟩⟩, ⟨.punct .dot, ".", ⟨2, 2⟩⟩,
    ⟨.identifier "c", "c", ⟨2, 3⟩⟩, ⟨.endOfInput, "", ⟨2, 4⟩⟩]

def fourLines : List Token :=
  [⟨.identifier "a", "a", ⟨1, 1⟩⟩, ⟨.identifier "b", "b", ⟨3, 1⟩⟩, ⟨.punct .dot, ".", ⟨4, 1⟩⟩,
    ⟨.identifier "c", "c", ⟨4, 2⟩⟩, ⟨.endOfInput, "", ⟨4, 3⟩⟩]

theorem ofTokens_twoLines : Program.ofTokens twoLines =
    .ok [.expr ⟨1, 1⟩ (.name ⟨1, 1⟩ "a"),
      .expr ⟨2, 1⟩ (.member ⟨2, 2⟩ (.name ⟨2, 1⟩ "b") "c" ⟨2, 3⟩)] := by
  unfold twoLines
  cbv

theorem ofTokens_fourLines :
    Token.EndOnce twoLines ∧ Token.EndOnce fourLines ∧ Token.Respaced twoLines fourLines ∧
      ∃ p, Program.ofTokens twoLines = .ok p ∧
        ∃ p', Program.ofTokens fourLines = .ok p' ∧ p'.moved .nowhere = p.moved .nowhere ∧
          ∀ (fuel : Nat) (m : Machine),
            Machine.EndsAs (m.runProgramWithin fuel p') (m.runProgramWithin fuel p) := by
  have once : Token.EndOnce twoLines := ⟨twoLines.dropLast, _, rfl, rfl, by simp [twoLines]⟩
  have once' : Token.EndOnce fourLines := ⟨fourLines.dropLast, _, rfl, rfl, by simp [fourLines]⟩
  have respaced : Token.Respaced twoLines fourLines := by
    refine ⟨rfl, fun n t u t' u' first second first' second' later => ?_⟩
    match n with
    | 0 | 1 | 2 | 3 =>
        cases first
        cases second
        cases first'
        cases second'
        revert later
        decide
    | n + 4 => cases second
  exact ⟨once, once', respaced, _, ofTokens_twoLines,
    Program.ofTokens_respaced once once' respaced ofTokens_twoLines⟩

end Script
