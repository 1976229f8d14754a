import Script.Proofs.Token.Seams

/-!
Gaps: the spaces and comments between tokens. What is skipped is a gap, and a gap is skipped whole
where no filler follows it.
-/

namespace Script

/-- Spaces and comments. A line comment runs up to a newline, which stands in the gap too; the last
one of a text may run to its end. -/
inductive Gap (atEnd : Bool) : List Char → Prop
  | nil : Gap atEnd []
  | space {c : Char} {cs : List Char} (blank : c ∈ [' ', '\t', '\r', '\n']) (more : Gap atEnd cs) :
      Gap atEnd (c :: cs)
  | line {note cs : List Char} (inside : '\n' ∉ note) (more : Gap atEnd ('\n' :: cs)) :
      Gap atEnd ('/' :: '/' :: (note ++ '\n' :: cs))
  | block {note cs : List Char} (inside : ¬ ['*', '/'] <:+: note ++ ['*']) (more : Gap atEnd cs) :
      Gap atEnd ('/' :: '*' :: (note ++ '*' :: '/' :: cs))
  | last {note : List Char} (ends : atEnd = true) (inside : '\n' ∉ note) :
      Gap atEnd ('/' :: '/' :: note)

theorem isSpace_iff {c : Char} : isSpace c = true ↔ c ∈ [' ', '\t', '\r', '\n'] := by
  simp [isSpace]

section Comments

variable {note cs : List Char}

theorem closeComment_other {c : Char} (other : ∀ more, c = '*' → cs = '/' :: more → False) :
    closeComment (c :: cs) = (closeComment cs).map (·.cons c) := by
  rw [closeComment]
  exact other

theorem closeComment_note (inside : ¬ ['*', '/'] <:+: note ++ ['*']) (cs : List Char) :
    ∃ cut, closeComment (note ++ '*' :: '/' :: cs) = some cut ∧ cut.taken = note ++ ['*', '/'] ∧
      cut.rest = cs := by
  induction note with
  | nil => exact ⟨_, rfl, rfl, rfl⟩
  | cons c note again =>
      have later : ¬ ['*', '/'] <:+: note ++ ['*'] := fun found =>
        inside (List.infix_cons found)
      obtain ⟨cut, closes, taken, left⟩ := again later
      refine ⟨cut.cons c, ?_, congrArg (List.cons c) taken, left⟩
      show closeComment (c :: (note ++ '*' :: '/' :: cs)) = _
      rw [closeComment_other, closes]
      · rfl
      · rintro more rfl follows
        cases note with
        | nil => cases follows
        | cons d note =>
            cases follows
            exact inside (List.IsPrefix.isInfix ⟨note ++ ['*'], rfl⟩)

theorem closeComment_eq_some (cs : List Char) : ∀ {cut : Cut cs}, closeComment cs = some cut →
    ∃ note, ¬ ['*', '/'] <:+: note ++ ['*'] ∧ cut.taken = note ++ ['*', '/'] := by
  induction cs using closeComment.induct with
  | case1 =>
      intro cut closes
      cases closes
  | case2 rest =>
      intro cut closes
      cases closes
      exact ⟨[], by decide, rfl⟩
  | case3 c rest other again =>
      intro cut closes
      rw [closeComment_other other, Option.map_eq_some_iff] at closes
      obtain ⟨inner, closes, rfl⟩ := closes
      obtain ⟨note, inside, taken⟩ := again closes
      refine ⟨c :: note, ?_, congrArg (List.cons c) taken⟩
      have joined := inner.joined
      rw [taken] at joined
      intro found
      rcases List.infix_cons_iff.mp found with ⟨tail, start⟩ | later
      · cases note with
        | nil => cases start
        | cons d note =>
            cases start
            exact other _ rfl joined.symm
      · exact inside later

theorem lineComment_cases (cs : List Char) :
    '\n' ∉ (lineComment cs).taken ∧
      ((lineComment cs).rest = [] ∨ ∃ tail, (lineComment cs).rest = '\n' :: tail) := by
  induction cs with
  | nil => exact ⟨List.not_mem_nil, .inl rfl⟩
  | cons c cs again =>
      simp only [lineComment, Cut.takeWhile] at again ⊢
      by_cases newline : c = '\n'
      · subst newline
        exact ⟨by simp, .inr ⟨cs, by simp⟩⟩
      · simp only [List.takeWhile_cons, List.dropWhile_cons, ne_eq, newline, not_false_eq_true,
          decide_true, if_true, List.mem_cons, not_or]
        exact ⟨⟨Ne.symm newline, again.1⟩, again.2⟩

theorem lineComment_note (inside : '\n' ∉ note) (cs : List Char) :
    (lineComment (note ++ '\n' :: cs)).taken = note ∧
      (lineComment (note ++ '\n' :: cs)).rest = '\n' :: cs := by
  have kept : ∀ c ∈ note, decide (c ≠ '\n') = true := by
    intro c member
    exact decide_eq_true fun same => inside (same ▸ member)
  constructor
  · exact (List.takeWhile_append_of_pos kept).trans (by simp)
  · exact (List.dropWhile_append_of_pos kept).trans (by simp)

theorem closeComment_eq_none : closeComment cs = none ↔ ¬ ['*', '/'] <:+: cs := by
  induction cs using closeComment.induct with
  | case1 => simp [closeComment]
  | case2 rest =>
      have starts : ['*', '/'] <:+: '*' :: '/' :: rest := List.IsPrefix.isInfix ⟨rest, rfl⟩
      simp [closeComment, starts]
  | case3 c rest other again =>
      rw [closeComment_other other, Option.map_eq_none_iff, again, List.infix_cons_iff, not_or]
      refine ⟨fun later => ⟨?_, later⟩, fun both => both.2⟩
      rintro ⟨tail, start⟩
      cases start
      exact other tail rfl rfl

end Comments

/-- No filler begins the text. -/
inductive Solid : List Char → Prop
  | nil : Solid []
  | cons {c : Char} {cs : List Char} (visible : isSpace c = false)
      (slash : c = '/' → cs.head? ≠ some '/' ∧ cs.head? ≠ some '*') : Solid (c :: cs)

theorem Solid.filler {cs : List Char} (solid : Solid cs) : filler cs = .none cs := by
  cases solid with
  | nil => rw [Script.filler]
  | cons visible slash =>
      rw [filler_other, visible]
      · rfl
      · rintro more same rfl
        exact (slash same).1 rfl
      · rintro more same rfl
        exact (slash same).2 rfl

theorem Solid.shortened {cs ds : List Char} (solid : Solid (cs ++ ds)) : Solid cs := by
  cases cs with
  | nil => exact .nil
  | cons c cs =>
      cases solid with
      | cons visible slash =>
          refine .cons visible fun same => ?_
          obtain ⟨noLine, noBlock⟩ := slash same
          cases cs with
          | nil => exact ⟨nofun, nofun⟩
          | cons => exact ⟨noLine, noBlock⟩

/-- What is skipped, and what is left: no filler begins it, or a comment does that never ends. -/
theorem filler_gap (cs : List Char) :
    Gap (filler cs).rest.isEmpty (filler cs).taken ∧
      (Solid (filler cs).rest ∨
        ∃ more, (filler cs).rest = '/' :: '*' :: more ∧ ¬ ['*', '/'] <:+: more) := by
  induction cs using filler.induct with
  | case1 =>
      rw [filler]
      exact ⟨.nil, .inl .nil⟩
  | case2 rest again =>
      rw [filler_line]
      refine ⟨?_, again.2⟩
      obtain ⟨inside, left⟩ := lineComment_cases rest
      show Gap (filler (lineComment rest).rest).rest.isEmpty
        ('/' :: '/' :: ((lineComment rest).taken ++ (filler (lineComment rest).rest).taken))
      rcases left with left | ⟨tail, left⟩
      · rw [left, filler]
        exact .last rfl (by simpa [Cut.none] using inside)
      · rw [left, filler_newline] at again ⊢
        exact .line inside again.1
  | case3 rest comment closes again =>
      rw [filler_block closes]
      refine ⟨?_, again.2⟩
      obtain ⟨note, inside, taken⟩ := closeComment_eq_some rest closes
      show Gap _ ('/' :: '*' :: (comment.taken ++ (filler comment.rest).taken))
      rw [taken, List.append_assoc]
      exact .block inside again.1
  | case4 rest opens =>
      rw [filler, opens]
      exact ⟨.nil, .inr ⟨rest, rfl, closeComment_eq_none.mp opens⟩⟩
  | case5 c rest noLine noBlock space again =>
      rw [filler_other noLine noBlock, if_pos space]
      exact ⟨.space (isSpace_iff.mp space) again.1, again.2⟩
  | case6 c rest noLine noBlock other =>
      rw [filler_other noLine noBlock, if_neg other]
      refine ⟨.nil, .inl (.cons (by simpa using other) fun slash => ⟨?_, ?_⟩)⟩
      · intro head
        obtain ⟨tail, rfl⟩ := List.head?_eq_some_iff.mp head
        exact noLine tail slash rfl
      · intro head
        obtain ⟨tail, rfl⟩ := List.head?_eq_some_iff.mp head
        exact noBlock tail slash rfl

theorem Gap.skipped {gap rest : List Char} (closed : Gap false gap) (solid : Solid rest) :
    (filler (gap ++ rest)).taken = gap ∧ (filler (gap ++ rest)).rest = rest := by
  induction closed with
  | nil =>
      rw [List.nil_append, solid.filler]
      exact ⟨rfl, rfl⟩
  | @space c cs blank _ again =>
      have space := isSpace_iff.mpr blank
      have visible : c ≠ '/' := by
        rintro rfl
        exact absurd blank (by decide)
      rw [List.cons_append, filler_other (fun _ same => absurd same visible) fun _ same =>
        absurd same visible, if_pos space]
      exact ⟨congrArg (List.cons c) again.1, again.2⟩
  | @line note cs inside _ again =>
      obtain ⟨taken, left⟩ := lineComment_note inside (cs ++ rest)
      have same : '/' :: '/' :: (note ++ '\n' :: cs) ++ rest =
          '/' :: '/' :: (note ++ '\n' :: (cs ++ rest)) := by simp
      rw [List.cons_append, ← left] at again
      rw [same, filler_line]
      refine ⟨?_, again.2⟩
      show '/' :: '/' :: ((lineComment _).taken ++ (filler (lineComment _).rest).taken) = _
      rw [taken, again.1]
  | @block note cs inside _ again =>
      obtain ⟨cut, closes, taken, left⟩ := closeComment_note inside (cs ++ rest)
      have same : '/' :: '*' :: (note ++ '*' :: '/' :: cs) ++ rest =
          '/' :: '*' :: (note ++ '*' :: '/' :: (cs ++ rest)) := by simp
      rw [← left] at again
      rw [same, filler_block closes]
      refine ⟨?_, again.2⟩
      show '/' :: '*' :: (cut.taken ++ (filler cut.rest).taken) = _
      rw [taken, again.1]
      simp
  | last ends => cases ends

end Script
