import Script.Proofs.Grammar.Derivation

/-!
What a cursor passes. Whatever is read, the tokens passed and those still ahead are the tokens that
were ahead before, and the line a cursor keeps is that of the last token passed.
-/

namespace Script

namespace Cursor

def lineAfter (line : Nat) (w : List Token) : Nat := w.foldl (fun _ t => t.pos.line) line

theorem lineAfter_append (line : Nat) (w v : List Token) :
    lineAfter line (w ++ v) = lineAfter (lineAfter line w) v := List.foldl_append

theorem lineAfter_of_getLast? {w : List Token} {last : Token} (ends : w.getLast? = some last)
    (line : Nat) : lineAfter line w = last.pos.line := by
  obtain ⟨before, rfl⟩ := List.getLast?_eq_some_iff.mp ends
  simp [lineAfter]

theorem headD_concat (v : List Token) (t next : Token) : (v ++ [t]).headD next = v.headD t := by
  cases v <;> rfl

/-- From `c` on, `w` is passed and `next` comes after it. -/
structure Passes (c : Cursor) (w : List Token) (next : Cursor) : Prop where
  ahead : c.ahead = w ++ next.ahead
  stop : next.stop = c.stop
  line : next.line = lineAfter c.line w

namespace Passes

variable {c d e : Cursor} {w v : List Token}

theorem refl (c : Cursor) : c.Passes [] c := ⟨rfl, rfl, rfl⟩

theorem trans (first : c.Passes w d) (second : d.Passes v e) : c.Passes (w ++ v) e where
  ahead := by rw [first.ahead, second.ahead, List.append_assoc]
  stop := by rw [second.stop, first.stop]
  line := by rw [second.line, first.line, lineAfter_append]

theorem split (passes : c.Passes (w ++ v) e) : ∃ d, c.Passes w d ∧ d.Passes v e := by
  refine ⟨⟨v ++ e.ahead, e.stop, lineAfter c.line w⟩, ⟨?_, passes.stop, rfl⟩, ⟨rfl, rfl, ?_⟩⟩
  · rw [passes.ahead, List.append_assoc]
  · rw [passes.line, lineAfter_append]

theorem unique (first : c.Passes w d) (second : c.Passes w e) : d = e := by
  obtain ⟨ahead, stop, line⟩ := d
  obtain ⟨ahead', stop', line'⟩ := e
  have same := List.append_cancel_left (first.ahead.symm.trans second.ahead)
  have stops := first.stop.trans second.stop.symm
  have lines := first.line.trans second.line.symm
  simp only at same stops lines
  rw [same, stops, lines]

theorem token (passes : c.Passes w d) : c.token = w.headD d.token := by
  simp only [Cursor.token, passes.ahead, passes.stop]
  cases w <;> rfl

theorem kind {t : Token} (passes : c.Passes (t :: w) d) : c.kind = t.kind :=
  congrArg Token.kind passes.token

end Passes

def Closed (c : Cursor) : Prop := c.stop.kind = .endOfInput

theorem Closed.passes {c d : Cursor} {w : List Token} (closed : c.Closed) (passes : c.Passes w d) :
    d.Closed := by
  rw [Closed, passes.stop]
  exact closed

section Taking

variable {α : Type} {read : Kind → Option α} {c d : Cursor} {t : Token} {w : List Token}
  {kind : Kind}

theorem takeAs_eq_some {step : Step (Token × α) c.remaining}
    (taken : c.takeAs read = some step) :
    read step.value.1.kind = some step.value.2 ∧ c.Passes [step.value.1] step.next := by
  obtain ⟨ahead, stop, line⟩ := c
  cases ahead with
  | nil => simp [takeAs] at taken
  | cons t rest =>
      simp only [takeAs, Option.map_eq_some_iff] at taken
      obtain ⟨a, known, rfl⟩ := taken
      exact ⟨known, rfl, rfl, rfl⟩

theorem takeAs_eq_none (unread : c.takeAs read = none) (closed : c.Closed)
    (refused : read .endOfInput = none) : read c.kind = none := by
  obtain ⟨ahead, stop, line⟩ := c
  cases ahead with
  | nil =>
      rw [Closed] at closed
      simp only [Cursor.kind, Cursor.token, List.headD_nil] at closed ⊢
      rw [closed, refused]
  | cons t rest => simpa [takeAs, Cursor.kind, Cursor.token] using unread

theorem takeAs_of_passes (passes : c.Passes (t :: w) d) {a : α} (known : read t.kind = some a) :
    ∃ m shorter, c.takeAs read = some ⟨(t, a), m, shorter⟩ ∧ m.Passes w d := by
  obtain ⟨ahead, stop, line⟩ := c
  have same : ahead = t :: (w ++ d.ahead) := passes.ahead
  subst same
  refine ⟨⟨w ++ d.ahead, stop, t.pos.line⟩, Nat.lt_succ_self _, ?_, rfl, passes.stop, passes.line⟩
  simp [takeAs, known]

theorem takeAs_of_refused (refused : read c.kind = none) : c.takeAs read = none := by
  obtain ⟨ahead, stop, line⟩ := c
  cases ahead with
  | nil => rfl
  | cons t rest =>
      have unread : read t.kind = none := refused
      simp [takeAs, unread]

theorem take?_eq_some {step : Step Token c.remaining} (taken : c.take? kind = some step) :
    step.value.kind = kind ∧ c.Passes [step.value] step.next := by
  simp only [take?, Option.map_eq_some_iff] at taken
  obtain ⟨inner, taken, rfl⟩ := taken
  obtain ⟨known, passes⟩ := takeAs_eq_some taken
  refine ⟨?_, passes⟩
  by_cases same : inner.value.1.kind = kind
  · exact same
  · simp [same] at known

theorem kind_of_take? {step : Step Token c.remaining} (taken : c.take? kind = some step) :
    c.kind = kind := by
  obtain ⟨same, passes⟩ := take?_eq_some taken
  rw [passes.kind, same]

theorem take?_eq_none (untaken : c.take? kind = none) (closed : c.Closed)
    (inside : kind ≠ .endOfInput) : c.kind ≠ kind := by
  simp only [take?, Option.map_eq_none_iff] at untaken
  have unread := takeAs_eq_none untaken closed (by simp [inside.symm])
  intro same
  simp [same] at unread

theorem take?_of_passes (passes : c.Passes (t :: w) d) (same : t.kind = kind) :
    ∃ m shorter, c.take? kind = some ⟨t, m, shorter⟩ ∧ m.Passes w d := by
  obtain ⟨m, shorter, taken, after⟩ : ∃ m shorter,
      c.takeAs (fun k => if k = kind then some () else none) = some ⟨(t, ()), m, shorter⟩ ∧
        m.Passes w d := takeAs_of_passes passes (by simp [same])
  refine ⟨m, shorter, ?_, after⟩
  simp only [take?, taken]
  rfl

theorem take?_of_ne (different : c.kind ≠ kind) : c.take? kind = none := by
  rw [take?, takeAs_of_refused (by simp [different])]
  rfl

theorem expectAs_eq_ok {expected : Expected} {step : Step (Token × α) c.remaining}
    (taken : c.expectAs read expected = .ok step) :
    read step.value.1.kind = some step.value.2 ∧ c.Passes [step.value.1] step.next := by
  unfold expectAs at taken
  split at taken
  · next found taken' =>
      cases taken
      exact takeAs_eq_some taken'
  · cases taken

theorem expectAs_of_passes (passes : c.Passes (t :: w) d) {a : α} (known : read t.kind = some a)
    (expected : Expected) :
    ∃ m shorter, c.expectAs read expected = .ok ⟨(t, a), m, shorter⟩ ∧ m.Passes w d := by
  obtain ⟨m, shorter, taken, after⟩ := takeAs_of_passes passes known
  refine ⟨m, shorter, ?_, after⟩
  rw [expectAs, taken]

theorem expectMark_eq_ok {mark : Punct} {step : Step Token c.remaining}
    (taken : c.expectMark mark = .ok step) :
    step.value.kind = .punct mark ∧ c.Passes [step.value] step.next := by
  unfold expectMark at taken
  split at taken
  · next found taken' =>
      cases taken
      exact take?_eq_some taken'
  · cases taken

theorem expectMark_of_passes {mark : Punct} (passes : c.Passes (t :: w) d)
    (same : t.kind = .punct mark) :
    ∃ m shorter, c.expectMark mark = .ok ⟨t, m, shorter⟩ ∧ m.Passes w d := by
  obtain ⟨m, shorter, taken, after⟩ := take?_of_passes passes same
  refine ⟨m, shorter, ?_, after⟩
  rw [expectMark, takeMark?, taken]

end Taking

end Cursor

theorem Parse.bind_eq_ok {ε α β : Type} {p : Except ε α} {next : α → Except ε β} {b : β}
    (reads : p >>= next = .ok b) : ∃ a, p = .ok a ∧ next a = .ok b := by
  cases p with
  | error e => cases reads
  | ok a => exact ⟨a, rfl, reads⟩

end Script
