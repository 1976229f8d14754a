import Script.Proofs.Grammar.Passing
import Script.Proofs.Grammar.Walk

/-!
What the steps of a walk do. A walker stands at a cursor if the same tokens lie ahead of both. A
step from there has a result, goes only forward and leaves the counts as they were.
-/

namespace Script

namespace Walker

def enclosing (w : Walker) : Enclosing := ⟨0 < w.loops, 0 < w.switches⟩

theorem enclosing_breakable (w : Walker) :
    (w.enclosing.loop || w.enclosing.switch) = true ↔ ¬ (w.loops = 0 ∧ w.switches = 0) := by
  simp only [enclosing, Bool.or_eq_true, decide_eq_true_eq]
  omega

theorem enclosing_repeatable (w : Walker) : w.enclosing.loop = true ↔ w.loops ≠ 0 := by
  simp only [enclosing, decide_eq_true_eq]
  omega

theorem enclosing_enterLoop (w : Walker) :
    w.enterLoop.enclosing = { w.enclosing with loop := true } := by
  have some : decide (0 < w.loops + 1) = true := decide_eq_true (Nat.succ_pos _)
  exact congrArg (Enclosing.mk · _) some

theorem enclosing_enterSwitch (w : Walker) :
    w.enterSwitch.enclosing = { w.enclosing with switch := true } := by
  have some : decide (0 < w.switches + 1) = true := decide_eq_true (Nat.succ_pos _)
  exact congrArg (Enclosing.mk _) some

end Walker

namespace Row

variable {r : Row}

/-- Every index so far is that of a token, and none is less than an earlier one. -/
structure Sound (r : Row) (w : Walker) : Prop where
  now : w.trail.head? = some w.index
  within : ∀ i ∈ w.trail, i < r.tokens.length
  ordered : w.trail.Pairwise (· ≥ ·)

/-- `after` is not before `w`, and its counts are those of `w`. -/
structure Leads (r : Row) (w after : Walker) : Prop where
  loops : after.loops = w.loops
  switches : after.switches = w.switches
  forward : w.index ≤ after.index
  within : w.index < r.tokens.length → after.index < r.tokens.length
  sound : r.Sound w → r.Sound after

def Past (r : Row) (w after : Walker) : Prop :=
  w.index < after.index ∧ ∃ t, r.tokens[w.index]? = some t ∧ t.kind ≠ .endOfInput

/-- The tokens ahead of the walker are those ahead of the cursor, and the end of input. -/
structure At (r : Row) (w : Walker) (c : Cursor) : Prop where
  row : r.tokens.drop w.index = c.ahead ++ [c.stop]
  closed : c.Closed
  line : ∀ t, 0 < w.index → r.tokens[w.index - 1]? = some t → t.pos.line = c.line

def Closing (r : Row) (w : Walker) (c : Cursor) : Prop :=
  ∃ d brace, r.At w d ∧ d.takeMark? .closeBrace = some brace ∧ brace.next = c

section Leads

variable {w after last : Walker}

theorem Leads.refl (w : Walker) : r.Leads w w := ⟨rfl, rfl, Nat.le_refl _, id, id⟩

theorem Leads.trans (first : r.Leads w after) (second : r.Leads after last) : r.Leads w last where
  loops := second.loops.trans first.loops
  switches := second.switches.trans first.switches
  forward := Nat.le_trans first.forward second.forward
  within := second.within ∘ first.within
  sound := second.sound ∘ first.sound

theorem Leads.enclosing (leads : r.Leads w after) : after.enclosing = w.enclosing := by
  rw [Walker.enclosing, Walker.enclosing, leads.loops, leads.switches]

theorem Sound.counted (sound : r.Sound w) (loops switches : Nat) :
    r.Sound { w with loops := loops, switches := switches } :=
  ⟨sound.now, sound.within, sound.ordered⟩

theorem Leads.leaveLoop (leads : r.Leads w.enterLoop after) : r.Leads w after.leaveLoop where
  loops := congrArg (· - 1) leads.loops
  switches := leads.switches
  forward := leads.forward
  within := leads.within
  sound := fun sound => (leads.sound (sound.counted _ _)).counted _ _

theorem Leads.leaveSwitch (leads : r.Leads w.enterSwitch after) : r.Leads w after.leaveSwitch where
  loops := leads.loops
  switches := congrArg (· - 1) leads.switches
  forward := leads.forward
  within := leads.within
  sound := fun sound => (leads.sound (sound.counted _ _)).counted _ _

theorem Past.leads (past : r.Past w after) (leads : r.Leads after last) : r.Past w last :=
  ⟨Nat.lt_of_lt_of_le past.1 leads.forward, past.2⟩

theorem Sound.le_index (sound : r.Sound w) : ∀ i ∈ w.trail, i ≤ w.index := by
  obtain ⟨now, -, ordered⟩ := sound
  cases known : w.trail with
  | nil => simp [known] at now
  | cons latest earlier =>
      rw [known] at now ordered
      cases now
      intro i member
      rcases List.mem_cons.mp member with rfl | further
      · exact Nat.le_refl _
      · exact List.rel_of_pairwise_cons ordered further

theorem leads_advanced (w : Walker) : r.Leads w (r.advanced w) := by
  rw [advanced]
  split
  · next inside =>
      refine ⟨rfl, rfl, Nat.le_succ _, fun _ => by dsimp only; omega, fun sound => ?_⟩
      refine ⟨rfl, ?_, ?_⟩
      · intro i member
        rcases List.mem_cons.mp member with rfl | further
        · omega
        · exact sound.within i further
      · exact List.pairwise_cons.mpr
          ⟨fun i member => Nat.le_succ_of_le (sound.le_index i member), sound.ordered⟩
  · exact .refl w

theorem sound_start (nonempty : r.tokens ≠ []) : r.Sound .start where
  now := rfl
  within := by
    intro i member
    rw [List.mem_singleton.mp member]
    exact List.length_pos_iff.mpr nonempty
  ordered := List.pairwise_singleton _ _

end Leads

section At

variable {w after : Walker} {c d : Cursor}

theorem at_start {body : List Token} {stop : Token} (known : r.tokens = body ++ [stop])
    (stops : stop.kind = .endOfInput) : r.At .start ⟨body, stop, 0⟩ :=
  ⟨known, stops, fun _ moved _ => absurd moved (Nat.lt_irrefl 0)⟩

theorem exists_at {stop : Token} (there : w.index < r.tokens.length)
    (last : r.tokens.getLast? = some stop) (stops : stop.kind = .endOfInput) : ∃ c, r.At w c := by
  obtain ⟨body, known⟩ := List.getLast?_eq_some_iff.mp last
  have inside : w.index ≤ body.length := by
    rw [known, List.length_append] at there
    exact Nat.le_of_lt_succ there
  let before := r.tokens[w.index - 1]?
  refine ⟨⟨body.drop w.index, stop, (before.map (·.pos.line)).getD 0⟩, ?_, stops, ?_⟩
  · rw [known]
    exact List.drop_append_of_le_length inside
  · intro t _ found
    simp [before, found]

theorem At.token (stands : r.At w c) : r.tokens[w.index]? = some c.token := by
  rw [← List.head?_drop, stands.row, Cursor.token]
  cases c.ahead <;> rfl

theorem At.length (stands : r.At w c) : r.tokens.length = w.index + (c.remaining + 1) := by
  have row := congrArg List.length stands.row
  rw [List.length_drop, List.length_append, List.length_singleton] at row
  show _ = w.index + (c.ahead.length + 1)
  omega

theorem At.lt (stands : r.At w c) (there : r.At after d)
    (shorter : d.remaining < c.remaining) : w.index < after.index := by
  have before := stands.length
  have behind := there.length
  omega

theorem At.past (stands : r.At w c) (there : r.At after d)
    (shorter : d.remaining < c.remaining) (inside : c.kind ≠ .endOfInput) : r.Past w after :=
  ⟨stands.lt there shorter, c.token, stands.token, inside⟩

theorem At.advanced {t : Token} (stands : r.At w c) (passes : c.Passes [t] d) :
    r.At (r.advanced w) d := by
  have row : r.tokens.drop w.index = t :: (d.ahead ++ [d.stop]) := by
    rw [stands.row, passes.ahead, passes.stop]
    rfl
  have inside : w.index < r.tokens.length - 1 := by
    have length := congrArg List.length row
    simp only [List.length_drop, List.length_cons, List.length_append, List.length_nil] at length
    omega
  rw [Row.advanced, if_pos inside]
  refine ⟨?_, stands.closed.passes passes, ?_⟩
  · rw [← List.tail_drop, row]
    rfl
  · intro last _ found
    have here : r.tokens[w.index]? = some t := by
      rw [← List.head?_drop, row]
      rfl
    have same : some t = some last := here.symm.trans found
    cases same
    exact passes.line.symm

theorem At.counted (stands : r.At w c) (index : after.index = w.index) : r.At after c := by
  obtain ⟨row, closed, line⟩ := stands
  rw [← index] at row line
  exact ⟨row, closed, line⟩

/-- Wherever a walker goes, it stands at a cursor. -/
theorem At.leads (stands : r.At w c) (leads : r.Leads w after) : ∃ d, r.At after d := by
  have last : r.tokens.getLast? = some c.stop := by
    rw [← List.take_append_drop w.index r.tokens, stands.row, ← List.append_assoc,
      List.getLast?_concat]
  have there : w.index < r.tokens.length := by
    rw [stands.length]
    omega
  exact exists_at (leads.within there) last stands.closed

end At

end Row

namespace Walk

variable {α β : Type}

theorem result_pure (a : α) (w : Walker) : (pure a : Walk α).result w = some (.ok a, w) := rfl

theorem result_throw (e : ParseError) (w : Walker) :
    (throw e : Walk α).result w = some (.error e, w) := rfl

theorem result_get (w : Walker) : (get : Walk Walker).result w = some (.ok w, w) := rfl

theorem result_bind (walk : Walk α) (more : α → Walk β) (w : Walker) :
    (walk >>= more).result w = (walk.result w).bind fun
      | (.ok a, after) => (more a).result after
      | (.error e, after) => some (.error e, after) := by
  simp only [result, ExceptT.run_bind, StateT.run_bind]
  cases StateT.run (ExceptT.run walk) w with
  | none => rfl
  | some found =>
      obtain ⟨result, after⟩ := found
      cases result <;> rfl

theorem throw_bind (e : ParseError) (more : α → Walk β) : (throw e >>= more) = throw e := rfl

end Walk

namespace Row

variable {r : Row} {α β : Type} {w : Walker}

open Walk

section Results

theorem result_token {t : Token} (here : r.tokens[w.index]? = some t) :
    r.token.result w = some (.ok t, w) := by
  rw [token, result_bind, result_get]
  simp only [Option.bind_some, here]
  rfl

theorem result_before {t : Token} (here : r.tokens[w.index - 1]? = some t) :
    r.before.result w = some (.ok t, w) := by
  rw [before, result_bind, result_get]
  simp only [Option.bind_some, here]
  rfl

theorem result_advance {t : Token} (here : r.tokens[w.index]? = some t) :
    r.advance.result w = some (.ok t, r.advanced w) := by
  rw [advance, result_bind, result_token here]
  rfl

theorem fail_bind (expected : Expected) (more : α → Walk β) :
    (r.fail expected >>= more) = r.fail expected := by
  rw [fail, fail, bind_assoc]
  rfl

end Results

/-- The walk from `w` has a result and leads on; `post` holds of the result and the walker then. -/
def Ends (r : Row) (walk : Walk α) (w : Walker) (post : Except ParseError α → Walker → Prop) :
    Prop :=
  ∃ result after, walk.result w = some (result, after) ∧ r.Leads w after ∧ post result after

section Ends

variable {walk : Walk α} {more : α → Walk β} {post other : Except ParseError α → Walker → Prop}
  {last : Except ParseError β → Walker → Prop} {c : Cursor}

theorem Ends.imp (ends : r.Ends walk w post)
    (imp : ∀ result after, r.Leads w after → post result after → other result after) :
    r.Ends walk w other := by
  obtain ⟨result, after, comes, leads, holds⟩ := ends
  exact ⟨result, after, comes, leads, imp result after leads holds⟩

theorem Ends.step {a : α} {after : Walker} (comes : walk.result w = some (.ok a, after))
    (leads : r.Leads w after) (goes : r.Ends (more a) after last) :
    r.Ends (walk >>= more) w last := by
  obtain ⟨result, final, comesThen, leadsOn, holds⟩ := goes
  refine ⟨result, final, ?_, leads.trans leadsOn, holds⟩
  rw [result_bind, comes]
  exact comesThen

theorem Ends.bind (ends : r.Ends walk w post)
    (goes : ∀ a after, r.Leads w after → post (.ok a) after → r.Ends (more a) after last)
    (fails : ∀ e after, post (.error e) after → last (.error e) after) :
    r.Ends (walk >>= more) w last := by
  obtain ⟨result, after, comes, leads, holds⟩ := ends
  cases result with
  | error e =>
      refine ⟨.error e, after, ?_, leads, fails e after holds⟩
      rw [result_bind, comes]
      rfl
  | ok a =>
      exact .step comes leads (goes a after leads holds)

theorem Ends.pure {a : α} (holds : post (.ok a) w) : r.Ends (pure a : Walk α) w post :=
  ⟨.ok a, w, result_pure a w, .refl w, holds⟩

theorem Ends.throw {e : ParseError} (holds : post (.error e) w) :
    r.Ends (throw e : Walk α) w post :=
  ⟨.error e, w, result_throw e w, .refl w, holds⟩

theorem Ends.within {enter leave : Walker → Walker} (ends : r.Ends walk (enter w) post)
    (leads : ∀ after, r.Leads (enter w) after → r.Leads w (leave after))
    (kept : ∀ result after, post result after → other result (leave after)) :
    r.Ends (show StateT Walker Option (Except ParseError α) from do
      modify enter
      let a ← walk.run
      modify leave
      return a) w other := by
  obtain ⟨result, after, comes, leadsInside, holds⟩ := ends
  refine ⟨result, leave after, ?_, leads after leadsInside, kept result after holds⟩
  show ((walk.result (enter w)).bind fun found => some (found.1, leave found.2)) = _
  rw [comes]
  rfl

theorem Ends.get {more : Walker → Walk β} (goes : r.Ends (more w) w last) :
    r.Ends (get >>= more) w last :=
  .step (result_get w) (.refl w) goes

theorem Ends.token {more : Token → Walk β} (stands : r.At w c)
    (goes : r.Ends (more c.token) w last) : r.Ends (r.token >>= more) w last :=
  .step (result_token stands.token) (.refl w) goes

end Ends

section Taking

variable {read : Kind → Option α} {kind : Kind} {c : Cursor}
  {last : Except ParseError β → Walker → Prop}

theorem Ends.fail {expected : Expected} (stands : r.At w c)
    (holds : last (.error ⟨expected, c.token⟩) w) : r.Ends (r.fail expected) w last :=
  .token stands (.throw holds)

theorem Ends.taken {more : Option (Token × α) → Walk β} {step : Step (Token × α) c.remaining}
    (stands : r.At w c) (taken : c.takeAs read = some step)
    (goes : ∀ after, r.Leads w after → r.At after step.next →
      r.Ends (more (some step.value)) after last) :
    r.Ends (r.takeAs read >>= more) w last := by
  obtain ⟨known, passes⟩ := Cursor.takeAs_eq_some taken
  have here : c.token = step.value.1 := passes.token
  have leads := leads_advanced (r := r) w
  have comes : (r.takeAs read).result w = some (.ok (some step.value), r.advanced w) := by
    rw [takeAs, result_bind, result_token stands.token]
    simp only [Option.bind_some, here, known]
    rw [result_bind, result_advance stands.token, here]
    rfl
  exact .step comes leads (goes _ leads (stands.advanced passes))

theorem Ends.untaken {more : Option (Token × α) → Walk β} (stands : r.At w c)
    (untaken : c.takeAs read = none) (refused : read .endOfInput = none)
    (goes : r.Ends (more none) w last) : r.Ends (r.takeAs read >>= more) w last := by
  have unread : read c.token.kind = none := Cursor.takeAs_eq_none untaken stands.closed refused
  have comes : (r.takeAs read).result w = some (.ok none, w) := by
    rw [takeAs, result_bind, result_token stands.token]
    simp only [Option.bind_some, unread]
    rfl
  exact .step comes (.refl w) goes

theorem Ends.took {more : Option Token → Walk β} {step : Step Token c.remaining}
    (stands : r.At w c) (taken : c.take? kind = some step)
    (goes : ∀ after, r.Leads w after → r.At after step.next →
      r.Ends (more (some step.value)) after last) :
    r.Ends (r.take kind >>= more) w last := by
  obtain ⟨known, passes⟩ := Cursor.take?_eq_some taken
  have here : c.token = step.value := passes.token
  have leads := leads_advanced (r := r) w
  have comes : (r.take kind).result w = some (.ok (some step.value), r.advanced w) := by
    rw [take, result_bind, result_token stands.token]
    simp only [Option.bind_some, here, known, if_true]
    rw [result_bind, result_advance stands.token, here]
    rfl
  exact .step comes leads (goes _ leads (stands.advanced passes))

theorem Ends.left {more : Option Token → Walk β} (stands : r.At w c)
    (untaken : c.take? kind = none) (inside : kind ≠ .endOfInput)
    (goes : r.Ends (more none) w last) : r.Ends (r.take kind >>= more) w last := by
  have other : c.token.kind ≠ kind := Cursor.take?_eq_none untaken stands.closed inside
  have comes : (r.take kind).result w = some (.ok none, w) := by
    rw [take, result_bind, result_token stands.token]
    simp only [Option.bind_some, if_neg other]
    rfl
  exact .step comes (.refl w) goes

theorem Ends.advance {more : Token → Walk β} {step : Step Token c.remaining}
    (stands : r.At w c) (taken : c.take? kind = some step)
    (goes : ∀ after, r.Leads w after → r.At after step.next → r.Ends (more step.value) after last) :
    r.Ends (r.advance >>= more) w last := by
  obtain ⟨-, passes⟩ := Cursor.take?_eq_some taken
  have here : c.token = step.value := passes.token
  have leads := leads_advanced (r := r) w
  have advances := result_advance stands.token
  rw [here] at advances
  exact .step advances leads (goes _ leads (stands.advanced passes))

theorem Ends.marked {mark : Punct} {more : Token → Walk β} {step : Step Token c.remaining}
    (stands : r.At w c) (taken : c.takeMark? mark = some step)
    (goes : ∀ after, r.Leads w after → r.At after step.next → r.Ends (more step.value) after last) :
    r.Ends (r.expectMark mark >>= more) w last := by
  rw [expectMark, bind_assoc]
  exact .took stands taken goes

end Taking

/-- The result is what was read. After a value, `place` holds of the walker and the cursor there. -/
inductive Meets {bound : Nat} (place : Walker → Cursor → Prop) :
    Parse α bound → Except ParseError α → Walker → Prop
  | ok {step : Step α bound} {after : Walker} (there : place after step.next) :
      Meets place (.ok step) (.ok step.value) after
  | error (e : ParseError) (after : Walker) : Meets place (.error e) (.error e) after

abbrev Matches {bound : Nat} (r : Row) (walk : Walk α) (w : Walker)
    (place : Walker → Cursor → Prop) (read : Parse α bound) : Prop :=
  r.Ends walk w (Meets place read)

abbrev Agrees {bound : Nat} (r : Row) (walk : Walk α) (w : Walker) (read : Parse α bound) : Prop :=
  r.Matches walk w r.At read

section Matches

variable {bound wider : Nat} {place : Walker → Cursor → Prop} {walk : Walk α}
  {more : α → Walk β} {read : Parse α bound} {c : Cursor}

theorem Matches.bind {first : Walker → Cursor → Prop} {next : Step α bound → Parse β wider}
    (ends : r.Matches walk w first read)
    (goes : ∀ step after, r.Leads w after → first after step.next →
      r.Matches (more step.value) after place (next step)) :
    r.Matches (walk >>= more) w place (read >>= next) := by
  refine Ends.bind ends ?_ ?_
  · rintro a after leads ⟨there⟩
    exact goes _ after leads there
  · rintro e after ⟨-, -⟩
    exact .error e after

theorem Meets.imp {other : Walker → Cursor → Prop} {result : Except ParseError α}
    {after last : Walker} (meets : Meets place read result after)
    (imp : ∀ c, place after c → other last c) : Meets other read result last := by
  cases meets with
  | ok there => exact .ok (imp _ there)
  | error e => exact .error e last

theorem Matches.looping (agrees : r.Agrees walk w.enterLoop read) :
    r.Agrees (show StateT Walker Option (Except ParseError α) from do
      modify Walker.enterLoop
      let a ← walk.run
      modify Walker.leaveLoop
      return a) w read := by
  apply Ends.within agrees (fun _ => Leads.leaveLoop)
  intro result after meets
  exact meets.imp fun _ there => there.counted rfl

theorem Matches.switching (ends : r.Matches walk w.enterSwitch r.Closing read) :
    r.Matches (show StateT Walker Option (Except ParseError α) from do
      modify Walker.enterSwitch
      let a ← walk.run
      modify Walker.leaveSwitch
      return a) w r.Closing read := by
  apply Ends.within ends (fun _ => Leads.leaveSwitch)
  intro result after meets
  apply meets.imp
  rintro c ⟨d, brace, there, taken, same⟩
  exact ⟨d, brace, there.counted rfl, taken, same⟩

theorem expectAs_agrees {read : Kind → Option α} (stands : r.At w c)
    (refused : read .endOfInput = none) (expected : Expected) :
    r.Agrees (r.expectAs read expected) w (c.expectAs read expected) := by
  rw [expectAs, Cursor.expectAs]
  split
  · next step taken => exact .taken stands taken fun _ _ there => .pure (.ok there)
  · next untaken => exact .untaken stands untaken refused (.fail stands (.error _ w))

theorem expectMark_agrees (stands : r.At w c) (mark : Punct) :
    r.Agrees (r.expectMark mark) w (c.expectMark mark) := by
  rw [expectMark, Cursor.expectMark]
  split
  · next step taken => exact .took stands taken fun _ _ there => .pure (.ok there)
  · next untaken => exact .left stands untaken (by simp) (.fail stands (.error _ w))

end Matches

end Row

end Script
