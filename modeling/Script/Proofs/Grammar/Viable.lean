import Script.Proofs.Grammar.Completeness

/-!
What a wrong token is. The tokens before it can be gone on with, on the line of the last of them, to
tokens that are right; and it is wrong whatever follows it.
-/

namespace Script

def OnLine (line : Nat) (more : List Token) : Prop :=
  ∀ t ∈ more, t.pos.line = line ∧ t.kind ≠ .endOfInput

theorem OnLine.append {line : Nat} {more others : List Token} (first : OnLine line more)
    (second : OnLine line others) : OnLine line (more ++ others) := by
  intro t member
  rcases List.mem_append.mp member with before | after
  · exact first t before
  · exact second t after

inductive PutIn
  | mark (mark : Punct)
  | name
  | equals

def PutIn.token (line : Nat) : PutIn → Token
  | .mark m => ⟨.punct m, String.singleton m.spelling, ⟨line, 1⟩⟩
  | .name => ⟨.identifier "x", "x", ⟨line, 1⟩⟩
  | .equals => ⟨.operator .assign, "=", ⟨line, 1⟩⟩

theorem OnLine.putIn (line : Nat) (more : List PutIn) :
    OnLine line (more.map (PutIn.token line)) := by
  intro t member
  obtain ⟨put, -, rfl⟩ := List.mem_map.mp member
  cases put <;> exact ⟨rfl, nofun⟩

/-- A reader fails wherever, from the line of `c` on, it passes `w` and comes to the token. -/
def Cursor.FailsAt (c : Cursor) (w : List Token) (t : Token) (fails : Cursor → Prop) : Prop :=
  ∀ ⦃c' d' : Cursor⦄, c'.Closed → c'.line = c.line → c'.Passes w d' → d'.token = t → fails c'

/-- From `c` on a reader goes wrong at the token that `e` names: what it passes before can be gone on
with to a `whole`, and it `fails` wherever it passes the same tokens up to that one. -/
inductive Cursor.GoesWrong (c : Cursor) (e : ParseError) (fails : Cursor → Prop)
    (whole : List Token → Prop) : Prop
  | mk {w more : List Token} {d : Cursor} (passes : c.Passes w d) (found : d.token = e.found)
      (beside : OnLine (lineAfter c.line w) more) (mends : whole (w ++ more))
      (again : c.FailsAt w e.found fails) : GoesWrong c e fails whole

/-- An error of the reader from `c` on names the token where it goes wrong. -/
def Parse.Pinpoints {α : Type} (read : (c : Cursor) → Parse α c.remaining)
    (whole : List Token → Prop) (c : Cursor) : Prop :=
  ∀ ⦃e : ParseError⦄, read c = .error e → c.GoesWrong e (fun c' => read c' = .error e) whole

namespace Cursor

section Takes

variable {α : Type} {c c' d : Cursor} {t : Token}

theorem kind_of_token (same : c'.token = c.token) : c'.kind = c.kind := congrArg Token.kind same

theorem takeAs_one {read : Kind → Option α} {a : α} (passes : c.Passes [t] d)
    (known : read t.kind = some a) : ∃ shorter, c.takeAs read = some ⟨(t, a), d, shorter⟩ := by
  obtain ⟨m, shorter, taken, last⟩ := takeAs_of_passes passes known
  cases last.unique (.refl m)
  exact ⟨shorter, taken⟩

theorem take?_one {kind : Kind} (passes : c.Passes [t] d) (same : t.kind = kind) :
    ∃ shorter, c.take? kind = some ⟨t, d, shorter⟩ := by
  obtain ⟨m, shorter, taken, last⟩ := take?_of_passes passes same
  cases last.unique (.refl m)
  exact ⟨shorter, taken⟩

theorem expectMark_one {mark : Punct} (passes : c.Passes [t] d) (same : t.kind = .punct mark) :
    ∃ shorter, c.expectMark mark = .ok ⟨t, d, shorter⟩ := by
  obtain ⟨m, shorter, taken, last⟩ := expectMark_of_passes passes same
  cases last.unique (.refl m)
  exact ⟨shorter, taken⟩

theorem expectAs_one {read : Kind → Option α} {a : α} (passes : c.Passes [t] d)
    (known : read t.kind = some a) (expected : Expected) :
    ∃ shorter, c.expectAs read expected = .ok ⟨(t, a), d, shorter⟩ := by
  obtain ⟨m, shorter, taken, last⟩ := expectAs_of_passes passes known expected
  cases last.unique (.refl m)
  exact ⟨shorter, taken⟩

theorem take?_again {kind : Kind} (untaken : c.take? kind = none) (closed : c.Closed)
    (same : c'.token = c.token) (inside : kind ≠ .endOfInput := by simp) :
    c'.take? kind = none := by
  apply take?_of_ne
  rw [Cursor.kind, same]
  exact take?_eq_none untaken closed inside

theorem takeAs_again {read : Kind → Option α} (unread : c.takeAs read = none) (closed : c.Closed)
    (refused : read .endOfInput = none) (same : c'.token = c.token) : c'.takeAs read = none := by
  apply takeAs_of_refused
  rw [Cursor.kind, same]
  exact takeAs_eq_none unread closed refused

theorem take?_of_closed {kind : Kind} (closed : c.Closed) (same : c.kind = kind)
    (inside : kind ≠ .endOfInput := by simp) : ∃ m shorter, c.take? kind = some ⟨c.token, m, shorter⟩ := by
  obtain ⟨ahead, stop, line⟩ := c
  cases ahead with
  | nil => exact absurd (same.symm.trans closed) inside
  | cons t rest =>
      have passes : Passes ⟨t :: rest, stop, line⟩ [t] ⟨rest, stop, t.pos.line⟩ := ⟨rfl, rfl, rfl⟩
      obtain ⟨shorter, taken⟩ := take?_one passes same
      exact ⟨_, shorter, taken⟩

end Takes

section Wrong

variable {c m d : Cursor} {e : ParseError} {fails failsIn : Cursor → Prop}
  {whole wholeIn : List Token → Prop} {w u : List Token}

theorem FailsAt.after {t : Token} (inner : m.FailsAt u t failsIn) (passes : c.Passes w m)
    (within : m.Passes u d) (found : d.token = t)
    (again : ∀ {c' m' : Cursor}, c'.token = c.token → c'.Passes w m' → m'.token = m.token →
      failsIn m' → fails c') : c.FailsAt (w ++ u) t fails := by
  intro c' d' closed line passes' same
  obtain ⟨m', first, second⟩ := passes'.split
  have next : m'.token = m.token := by rw [second.token, within.token, same, found]
  have start : c'.token = c.token := by rw [first.token, passes.token, next]
  refine again start first next (inner (closed.passes first) ?_ second same)
  rw [first.line, passes.line, line]

namespace GoesWrong

theorem here (found : e.found = c.token) (more : List PutIn)
    (mends : ∀ line, whole (more.map (PutIn.token line)))
    (again : ∀ {c' : Cursor}, c'.Closed → c'.line = c.line → c'.token = c.token → fails c') :
    c.GoesWrong e fails whole := by
  refine .mk (.refl c) found.symm (.putIn _ more) (mends _) fun c' d' closed line passes named => ?_
  cases passes.unique (.refl c')
  exact again closed line (named.trans found)

theorem after (passes : c.Passes w m) (inner : m.GoesWrong e failsIn wholeIn) (more : List PutIn)
    (mends : ∀ v line, wholeIn v → whole (w ++ v ++ more.map (PutIn.token line)))
    (again : ∀ {c' m' : Cursor}, c'.token = c.token → c'.Passes w m' → m'.token = m.token →
      failsIn m' → fails c') : c.GoesWrong e fails whole := by
  obtain @⟨u, others, d, within, found, beside, complete, failsIn⟩ := inner
  have line : lineAfter c.line (w ++ u) = lineAfter m.line u := by
    rw [passes.line, lineAfter_append]
  have online := beside.append (.putIn (lineAfter m.line u) more)
  rw [← line] at online
  have failsAfter := failsIn.after passes within found again
  refine .mk (passes.trans within) found online ?_ failsAfter
  simpa only [List.append_assoc, line] using mends (u ++ others) (lineAfter m.line u) complete

theorem through (passes : c.Passes w m) (inner : m.GoesWrong e failsIn wholeIn)
    (mends : ∀ v, wholeIn v → whole (w ++ v))
    (again : ∀ {c' m' : Cursor}, c'.token = c.token → c'.Passes w m' → m'.token = m.token →
      failsIn m' → fails c') : c.GoesWrong e fails whole :=
  after passes inner [] (fun v _ complete => by simpa using mends v complete) again

theorem first (inner : c.GoesWrong e failsIn wholeIn) (more : List PutIn)
    (mends : ∀ v line, wholeIn v → whole (v ++ more.map (PutIn.token line)))
    (again : ∀ {c' : Cursor}, c'.token = c.token → failsIn c' → fails c') :
    c.GoesWrong e fails whole := by
  refine after (.refl c) inner more mends fun {c' m'} same passes _ failsIn => ?_
  cases passes.unique (.refl c')
  exact again same failsIn

theorem imp (inner : c.GoesWrong e failsIn wholeIn) (mends : ∀ v, wholeIn v → whole v)
    (again : ∀ {c' : Cursor}, c'.token = c.token → failsIn c' → fails c') :
    c.GoesWrong e fails whole :=
  first inner [] (fun v _ complete => by simpa using mends v complete) again

theorem afterStatements (passes : c.Passes w m) (inner : m.GoesWrong e failsIn wholeIn)
    (more : List PutIn) (ends : ∀ line, whole (w ++ more.map (PutIn.token line)))
    (mends : ∀ v, wholeIn (m.token :: v) → whole (w ++ m.token :: v))
    (again : ∀ {c' m' : Cursor}, c'.token = c.token → c'.Passes w m' → m'.token = m.token →
      failsIn m' → fails c') : c.GoesWrong e fails whole := by
  obtain @⟨u, others, d, within, found, beside, complete, failsIn⟩ := inner
  have failsAfter := failsIn.after passes within found again
  cases u with
  | nil => exact .mk (passes.trans within) found (.putIn _ more) (by simpa using ends _) failsAfter
  | cons t u =>
      have line : lineAfter c.line (w ++ t :: u) = lineAfter m.line (t :: u) := by
        rw [passes.line, lineAfter_append]
      have next : m.token = t := within.token
      refine .mk (passes.trans within) found (line ▸ beside) ?_ failsAfter
      subst next
      simpa only [List.append_assoc, List.cons_append] using mends (u ++ others) complete

theorem missing (found : e.found = c.token) (more : List PutIn) :
    c.GoesWrong e (fun _ => True) fun v => ∃ line, v = more.map (PutIn.token line) :=
  here found more (fun line => ⟨line, rfl⟩) fun _ _ _ => trivial

end GoesWrong

theorem expectMark_wrong {mark : Punct} (closed : c.Closed) (fails : c.expectMark mark = .error e) :
    c.GoesWrong e (fun c' => c'.expectMark mark = .error e)
      fun v => ∃ t, v = [t] ∧ t.kind = .punct mark := by
  unfold expectMark at fails
  split at fails
  · cases fails
  · next untaken =>
      cases fails
      refine .here rfl [.mark mark] (fun line => ⟨_, rfl, rfl⟩) fun {c'} _ _ same => ?_
      rw [expectMark, takeMark?, take?_again untaken closed same, fail, same]

theorem expectName_wrong {expected : Expected} (closed : c.Closed)
    (fails : c.expectAs Kind.name? expected = .error e) :
    c.GoesWrong e (fun c' => c'.expectAs Kind.name? expected = .error e)
      fun v => ∃ t text, v = [t] ∧ t.kind = .identifier text := by
  unfold expectAs at fails
  split at fails
  · cases fails
  · next untaken =>
      cases fails
      refine .here rfl [.name] (fun line => ⟨_, "x", rfl, rfl⟩) fun {c'} _ _ same => ?_
      rw [expectAs, takeAs_again untaken closed rfl same, fail, same]

end Wrong

end Cursor

theorem Parse.Pinpoints.refused {α : Type} {read : (c : Cursor) → Parse α c.remaining}
    {whole : List Token → Prop} {c : Cursor} (closed : c.Closed) (expected : Expected)
    (more : List PutIn) (mends : ∀ line, whole (more.map (PutIn.token line)))
    (refuses : ∀ {c' : Cursor}, c'.Closed → c'.token = c.token →
      read c' = .error ⟨expected, c.token⟩) : Parse.Pinpoints read whole c := by
  intro e fails
  rw [refuses closed rfl] at fails
  cases fails
  exact .here rfl more mends fun closed' _ same => refuses closed' same

theorem Parse.bind_eq_error {ε α β : Type} {p : Except ε α} {next : α → Except ε β} {e : ε}
    (fails : p >>= next = .error e) : p = .error e ∨ ∃ a, p = .ok a ∧ next a = .error e := by
  cases p with
  | error e' =>
      cases fails
      exact .inl rfl
  | ok a => exact .inr ⟨a, rfl, fails⟩

end Script
