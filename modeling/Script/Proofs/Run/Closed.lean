import Script.Proofs.Run.Scoping
import Script.Proofs.Value.Alike

/-!
References. On the machines that a run goes through no reference dangles: the arrays that bindings,
items of arrays and the last value stand for are on the heap.
-/

namespace Script

def Value.Known (h : Heap) : Value → Prop
  | .array ref => ref < h.size
  | _ => True

def Chain.Closed (h : Heap) (c : Chain) : Prop := ∀ s ∈ c, ∀ b ∈ s, b.value.Known h

/-- Every array that can be come to is on the heap. -/
structure Machine.Closed (m : Machine) : Prop where
  bound : m.scopes.chain.Closed m.heap
  items : ∀ ref, ∀ v ∈ (m.heap.items ref).toList, v.Known m.heap
  last : m.last.Known m.heap

section Steps

variable {h h' : Heap} {v : Value}

theorem Value.known_of_single (single : v.isArray = false) : v.Known h := by
  cases v with
  | array => cases single
  | number | string | boolean | undefined | null | function | library => trivial

theorem Value.Known.mono (known : v.Known h) (more : h.size ≤ h'.size) : v.Known h' := by
  cases v with
  | array ref => exact Nat.lt_of_lt_of_le known more
  | number | string | boolean | undefined | null | function | library => trivial

theorem Scope.mem_bind {s : Scope} {b other : Binding} (member : other ∈ s.bind b) :
    other = b ∨ other ∈ s := by
  induction s with
  | nil => exact .inl (List.mem_singleton.mp member)
  | cons first rest again =>
      rw [Scope.bind] at member
      split at member
      · exact (List.mem_cons.mp member).imp id (List.mem_cons_of_mem first)
      · rcases List.mem_cons.mp member with rfl | later
        · exact .inr List.mem_cons_self
        · exact (again later).imp id (List.mem_cons_of_mem first)

namespace Chain

variable {c d : Chain} {name : String}

theorem Closed.mono (closed : c.Closed h) (more : h.size ≤ h'.size) : c.Closed h' :=
  fun s member b inside => (closed s member b inside).mono more

theorem Closed.find? (closed : c.Closed h) {b : Binding} (found : c.find? name = some b) :
    b.value.Known h := by
  obtain ⟨s, member, inside⟩ := List.exists_of_findSome?_eq_some found
  exact closed s member b (List.mem_of_find?_eq_some inside)

theorem Closed.bind {s : Scope} {b : Binding} (closed : ∀ b ∈ s, b.value.Known h)
    (known : b.value.Known h) : ∀ other ∈ s.bind b, other.value.Known h := by
  intro other member
  rcases Scope.mem_bind member with rfl | before
  · exact known
  · exact closed other before

theorem Closed.assign (closed : c.Closed h) (known : v.Known h)
    (assigns : c.assign name v = .ok d) : d.Closed h := by
  obtain ⟨inner, s, outer, b, rfl, rfl, -, -⟩ := Chain.assign_eq_ok assigns
  have written : ∀ other ∈ s.bind { b with value := v }, other.value.Known h :=
    Closed.bind (closed s (List.mem_append_right _ List.mem_cons_self)) known
  intro t member
  rcases List.mem_append.mp member with before | here
  · exact closed t (List.mem_append_left _ before)
  · rcases List.mem_cons.mp here with rfl | after
    · exact written
    · exact closed t (List.mem_append_right _ (List.mem_cons_of_mem s after))

theorem Closed.ofChain (closed : c.Closed h) : (Scopes.ofChain c).chain.Closed h := by
  cases c with
  | nil =>
      intro s member b inside
      rw [List.mem_singleton.mp member] at inside
      cases inside
  | cons s outer => exact closed

end Chain

end Steps

theorem Scopes.assign_eq_ok {s t : Scopes} {name : String} {v : Value}
    (assigns : s.assign name v = .ok t) : ∃ c, s.chain.assign name v = .ok c ∧ t = .ofChain c := by
  unfold assign at assigns
  cases result : s.chain.assign name v with
  | error cause =>
      rw [result] at assigns
      cases assigns
  | ok c =>
      rw [result] at assigns
      cases assigns
      exact ⟨c, rfl, rfl⟩

namespace Machine

variable {m : Machine} {v : Value} {name : String}

theorem Closed.lookup? (closed : m.Closed) (found : m.lookup? name = some v) :
    v.Known m.heap := by
  rw [Machine.lookup?] at found
  split at found
  · next b bound =>
      cases found
      exact closed.bound.find? bound
  · obtain ⟨l, -, rfl⟩ := Option.map_eq_some_iff.mp found
    trivial

theorem Closed.item (closed : m.Closed) {object index : Value}
    (result : object.item m.heap index = .ok v) : v.Known m.heap := by
  cases object with
  | array ref =>
      rw [Value.item] at result
      cases place : index.place with
      | error cause =>
          rw [place] at result
          cases result
      | ok n =>
          simp only [place, bind, Except.bind] at result
          split at result
          · next w found =>
              cases result
              exact closed.items ref v (List.mem_of_getElem? (Array.getElem?_toList.trans found))
          · cases result
  | string s =>
      rw [Value.item] at result
      cases place : index.place with
      | error cause =>
          rw [place] at result
          cases result
      | ok n =>
          simp only [place, bind, Except.bind] at result
          split at result
          · cases result
            trivial
          · cases result
  | number | boolean | undefined | null | function | library => cases result

theorem Closed.entered (closed : m.Closed) : m.entered.Closed where
  bound := by
    intro s member b inside
    rcases List.mem_cons.mp member with rfl | outer
    · cases inside
    · exact closed.bound s outer b inside
  items := closed.items
  last := closed.last

theorem Closed.leave (closed : m.Closed) : { m with scopes := m.scopes.leave }.Closed where
  bound := Chain.Closed.ofChain fun s member => closed.bound s (List.mem_cons_of_mem _ member)
  items := closed.items
  last := closed.last

theorem Closed.define (closed : m.Closed) {b : Binding} {scopes : Scopes}
    (known : b.value.Known m.heap) (defines : m.scopes.define b = .ok scopes) :
    { m with scopes }.Closed where
  bound := by
    obtain ⟨-, rfl⟩ := Scopes.define_eq_ok defines
    have written := Chain.Closed.bind (closed.bound _ List.mem_cons_self) known
    intro s member
    rcases List.mem_cons.mp member with rfl | outer
    · exact written
    · exact closed.bound s (List.mem_cons_of_mem _ outer)
  items := closed.items
  last := closed.last

theorem Closed.assign (closed : m.Closed) {scopes : Scopes} (known : v.Known m.heap)
    (assigns : m.scopes.assign name v = .ok scopes) : { m with scopes }.Closed where
  bound := by
    obtain ⟨c, result, rfl⟩ := Scopes.assign_eq_ok assigns
    exact (closed.bound.assign known result).ofChain
  items := closed.items
  last := closed.last

theorem Closed.alloc (closed : m.Closed) {items : Array Value}
    (known : ∀ v ∈ items.toList, v.Known m.heap) :
    { m with heap := (m.heap.alloc items).2 }.Closed := by
  have more : m.heap.size ≤ (m.heap.alloc items).2.size := by
    rw [Heap.size_alloc]
    exact Nat.le_succ _
  refine ⟨closed.bound.mono more, fun ref v member => ?_, closed.last.mono more⟩
  rcases Nat.lt_trichotomy ref m.heap.size with before | rfl | after
  · have member : v ∈ ((m.heap.alloc items).2.items ref).toList := member
    rw [Heap.items_alloc_of_lt before] at member
    exact (closed.items ref v member).mono more
  · have self : (m.heap.alloc items).2.items m.heap.size = items :=
      m.heap.items_alloc_self items
    have member : v ∈ ((m.heap.alloc items).2.items m.heap.size).toList := member
    rw [self] at member
    exact (known v member).mono more
  · have member : v ∈ ((m.heap.alloc items).2.items ref).toList := member
    rw [Heap.items_of_le (by rw [Heap.size_alloc]; exact after)] at member
    cases member

theorem Closed.write (closed : m.Closed) (ref : Ref) (place : Nat) (known : v.Known m.heap) :
    { m with heap := m.heap.write ref place v }.Closed := by
  have same : m.heap.size ≤ (m.heap.write ref place v).size :=
    Nat.le_of_eq (Heap.size_write ..).symm
  refine ⟨closed.bound.mono same, fun other item member => ?_, closed.last.mono same⟩
  have member : item ∈ ((m.heap.write ref place v).items other).toList := member
  have before : item ∈ (m.heap.items other).toList ∨ item = v := by
    by_cases written : other = ref
    · subst written
      by_cases inside : other < m.heap.size
      · rw [Heap.items_write_known inside] at member
        split at member
        · rw [Array.toList_setIfInBounds] at member
          exact List.mem_or_eq_of_mem_set member
        · rw [Array.toList_push] at member
          simpa using member
      · rw [Heap.items_of_le (by rw [Heap.size_write]; exact Nat.not_lt.mp inside)] at member
        cases member
    · rw [Heap.items_write_of_ne written] at member
      exact .inl member
  rcases before with old | rfl
  · exact (closed.items other item old).mono same
  · exact known.mono same

end Machine

namespace Run

variable {α β : Type}

def ClosedEnd (size : Nat) (gives : α → List Value) : EStateM.Result Stop Machine α → Prop
  | .ok a m => m.Closed ∧ size ≤ m.heap.size ∧ ∀ v ∈ gives a, v.Known m.heap
  | .error _ m => m.Closed ∧ size ≤ m.heap.size

/-- On a closed machine, with the values `given` in hand, the run leaves a closed machine. -/
def Closes (given : List Value) (gives : α → List Value) (run : Run α) : Prop :=
  ∀ m : Machine, m.Closed → (∀ v ∈ given, v.Known m.heap) →
    ClosedEnd m.heap.size gives (run m)

namespace Closes

variable {given : List Value} {gives : α → List Value} {others : β → List Value}

theorem pure (a : α) (known : ∀ v ∈ gives a, v ∈ given ∨ v.isArray = false) :
    Closes given gives (Pure.pure a) := fun _ closed held =>
  ⟨closed, Nat.le_refl _, fun v member =>
    (known v member).elim (held v) Value.known_of_single⟩

theorem nothing (a : α) : Closes given (fun _ => []) (Pure.pure a) :=
  pure a (List.forall_mem_nil _)

theorem throw (stop : Stop) : Closes given gives (MonadExcept.throw stop) :=
  fun _ closed _ => ⟨closed, Nat.le_refl _⟩

theorem plain {v : Value} (single : v.isArray = false) :
    Closes given (fun v => [v]) (Pure.pure v) :=
  pure v fun _ member => .inr (List.mem_singleton.mp member ▸ single)

theorem held {v : Value} (inside : v ∈ given) : Closes given (fun v => [v]) (Pure.pure v) :=
  pure v fun _ member => .inl (List.mem_singleton.mp member ▸ inside)

theorem bind {run : Run α} {next : α → Run β} (first : Closes given gives run)
    (second : ∀ a, Closes (gives a ++ given) others (next a)) :
    Closes given others (run >>= next) := by
  intro m closed held
  have ran := first m closed held
  cases known : run m with
  | error stop m₁ =>
      rw [known] at ran
      rw [bind_error known]
      exact ran
  | ok a m₁ =>
      rw [known] at ran
      rw [bind_ok known]
      obtain ⟨closed₁, more, gave⟩ := ran
      have held₁ : ∀ v ∈ gives a ++ given, v.Known m₁.heap := by
        intro v member
        rcases List.mem_append.mp member with new | old
        · exact gave v new
        · exact (held v old).mono more
      have ran₁ := second a m₁ closed₁ held₁
      generalize next a m₁ = result at ran₁ ⊢
      cases result with
      | ok b m₂ => exact ⟨ran₁.1, Nat.le_trans more ran₁.2.1, ran₁.2.2⟩
      | error stop m₂ => exact ⟨ran₁.1, Nat.le_trans more ran₁.2⟩

theorem get {next : Machine → Run β} (goes : ∀ m, Closes given others (next m)) :
    Closes given others (MonadState.get >>= next) := fun m closed held => goes m m closed held

theorem step {run : Run Unit} {f : Machine → Machine} (goes : ∀ m, run m = .ok () (f m))
    (same : ∀ m, (f m).scopes = m.scopes ∧ (f m).heap = m.heap ∧ (f m).last = m.last) :
    Closes given (fun _ => []) run := by
  intro m closed _
  obtain ⟨scopes, heap, last⟩ := same m
  rw [goes]
  refine ⟨⟨?_, ?_, ?_⟩, Nat.le_of_eq (congrArg Heap.size heap).symm, List.forall_mem_nil _⟩
  · rw [scopes, heap]
    exact closed.bound
  · rw [heap]
    exact closed.items
  · rw [last, heap]
    exact closed.last

theorem ofResult (pos : Pos) {result : Except Fault Value}
    (single : ∀ v, result = .ok v → v.isArray = false) :
    Closes given (fun v => [v]) (Run.ofResult pos result) := by
  cases result with
  | ok v => exact plain (single v rfl)
  | error cause => exact throw _

theorem ofAnswer (pos : Pos) {answer : Except Refusal Value}
    (single : ∀ v, answer = .ok v → v.isArray = false) :
    Closes given (fun v => [v]) (Run.ofAnswer pos answer) := by
  cases answer with
  | ok v => exact plain (single v rfl)
  | error refusal => cases refusal <;> exact throw _

theorem note (event : Event) : Closes given (fun _ => []) (Run.note event) :=
  step (fun _ => rfl) fun _ => ⟨rfl, rfl, rfl⟩

theorem print (line : String) : Closes given (fun _ => []) (Run.print line) :=
  step (fun _ => rfl) fun _ => ⟨rfl, rfl, rfl⟩

theorem begin : Closes given (fun _ => []) Run.begin :=
  step (fun _ => rfl) fun _ => ⟨rfl, rfl, rfl⟩

theorem poll (pos : Pos) (turns : Nat) : Closes given (fun _ => []) (Run.poll pos turns) := by
  intro m closed _
  have asked : { m with turns := m.turns.ask }.Closed := ⟨closed.bound, closed.items, closed.last⟩
  rw [poll_apply]
  split
  · exact ⟨asked, Nat.le_refl _⟩
  · exact ⟨asked, Nat.le_refl _, List.forall_mem_nil _⟩

theorem read (pos : Pos) (name : String) : Closes given (fun v => [v]) (Run.read pos name) := by
  intro m closed _
  rw [read_apply]
  cases found : m.lookup? name with
  | none => exact ⟨closed, Nat.le_refl _⟩
  | some v =>
      refine ⟨closed, Nat.le_refl _, fun w member => ?_⟩
      rw [List.mem_singleton.mp member]
      exact closed.lookup? found

theorem alloc {items : List Value} (held : ∀ v ∈ items, v ∈ given) :
    Closes given (fun v => [v]) (Run.alloc items) := by
  intro m closed known
  refine ⟨closed.alloc fun v member => known v (held v member), ?_, fun w member => ?_⟩
  · show m.heap.size ≤ (m.heap.alloc items.toArray).2.size
    rw [Heap.size_alloc]
    exact Nat.le_succ _
  · rw [List.mem_singleton.mp member]
    show m.heap.size < (m.heap.alloc items.toArray).2.size
    rw [Heap.size_alloc]
    exact Nat.lt_succ_self _

theorem item (pos : Pos) (object index : Value) :
    Closes given (fun v => [v])
      (MonadState.get >>= fun m => Run.ofResult pos (object.item m.heap index)) := by
  intro m closed held
  show ClosedEnd m.heap.size _ (Run.ofResult pos (object.item m.heap index) m)
  cases result : object.item m.heap index with
  | error cause => exact ⟨closed, Nat.le_refl _⟩
  | ok v =>
      refine ⟨closed, Nat.le_refl _, fun w member => ?_⟩
      rw [List.mem_singleton.mp member]
      exact closed.item result

theorem call (pos : Pos) (callee : Value) (arguments : List Value) :
    Closes given (fun v => [v]) (Run.call pos callee arguments) := by
  cases callee with
  | function f =>
      refine get fun m => ?_
      cases result : f.call m.heap arguments with
      | error cause => exact throw _
      | ok answer =>
          obtain ⟨v, line?⟩ := answer
          have single := Builtin.call_single m.heap f arguments v line? result
          cases line? with
          | some line =>
              show Closes given _ (Run.print line >>= fun _ => Pure.pure v)
              exact bind (print line) fun _ => plain single
          | none =>
              show Closes given _ (Pure.pure v)
              exact plain single
  | number | string | boolean | undefined | null | array | library => exact throw _

theorem declare (pos : Pos) {b : Binding} (held : b.value ∈ given ∨ b.value.isArray = false) :
    Closes given (fun _ => []) (Run.declare pos b) := by
  intro m closed known
  rw [declare_apply]
  cases result : m.scopes.define b with
  | error cause => exact ⟨closed, Nat.le_refl _⟩
  | ok scopes =>
      have value := held.elim (known b.value) Value.known_of_single
      exact ⟨closed.define value result, Nat.le_refl _, List.forall_mem_nil _⟩

theorem assignName (pos : Pos) (name : String) {v : Value} (held : v ∈ given) :
    Closes given (fun _ => []) (Run.assignName pos name v) := by
  intro m closed known
  rw [assignName_apply]
  split
  · exact ⟨closed, Nat.le_refl _⟩
  · cases result : m.scopes.assign name v with
    | error cause => exact ⟨closed, Nat.le_refl _⟩
    | ok scopes => exact ⟨closed.assign (known v held) result, Nat.le_refl _, List.forall_mem_nil _⟩

theorem assignItem (pos : Pos) (object index : Value) {v : Value} (held : v ∈ given) :
    Closes given (fun _ => []) (Run.assignItem pos object index v) := by
  cases object with
  | array ref =>
      intro m closed known
      rw [assignItem_apply]
      cases index.place with
      | error cause => exact ⟨closed, Nat.le_refl _⟩
      | ok n =>
          dsimp only
          split
          · exact ⟨closed, Nat.le_refl _⟩
          · exact ⟨closed.write ref n (known v held), Nat.le_of_eq (Heap.size_write ..).symm,
              List.forall_mem_nil _⟩
  | number | string | boolean | undefined | null | function | library => exact throw _

theorem last {v : Value} (held : v ∈ given) :
    Closes given (fun _ => []) (modify fun m => { m with last := v }) := fun _ closed known =>
  ⟨⟨closed.bound, closed.items, known v held⟩, Nat.le_refl _, List.forall_mem_nil _⟩

theorem inScope {run : Run α} (goes : Closes given gives run) :
    Closes given gives (Run.inScope run) := by
  intro m closed held
  have ran := goes m.entered closed.entered held
  rw [inScope_apply]
  generalize run m.entered = result at ran ⊢
  cases result with
  | ok a m' => exact ⟨ran.1.leave, ran.2.1, ran.2.2⟩
  | error stop m' => exact ⟨ran.1.leave, ran.2⟩

theorem branch (s : Stmt) {run : Run Signal} (goes : Closes given (fun _ => []) run) :
    Closes given (fun _ => []) (Run.branch s run) := by
  unfold Run.branch
  split
  · exact goes
  · exact goes.inScope

theorem loop (pos : Pos) {test : Run Value} {body : Run Signal}
    (tests : ∀ given, Closes given (fun v => [v]) test)
    (bodies : ∀ given, Closes given (fun _ => []) body) (fuel : Nat) : ∀ (given : List Value) turns,
      Closes given (fun _ => []) (Run.loop pos test body turns fuel) := by
  induction fuel with
  | zero => exact fun given turns => throw _
  | succ fuel again =>
      intro given turns
      rw [Run.loop]
      refine bind (tests given) fun v => ?_
      split
      · refine bind (poll pos turns) fun _ => bind begin fun _ => bind (bodies _) fun signal => ?_
        cases signal with
        | normal | «continue» => exact again _ (turns + 1)
        | «break» => exact nothing _
      · exact nothing _

end Closes

end Run

theorem UnaryOp.apply_single {op : UnaryOp} {v result : Value} (comes : op.apply v = .ok result) :
    result.isArray = false := by
  cases op with
  | not | typeof => cases comes; rfl
  | neg =>
      cases v with
      | number => cases comes; rfl
      | string | boolean | undefined | null | array | function | library => cases comes

section Trees

mutual

theorem Expr.eval_closes : ∀ (e : Expr) (given : List Value),
    Run.Closes given (fun v => [v]) e.eval
  | .literal _ value, given => .plain (Value.toValue_isArray value)
  | .name pos text, given => .read pos text
  | .array _ items, given => by
      rw [Expr.eval]
      refine .bind (evalAll_closes items given) fun values => ?_
      exact .alloc fun v member => List.mem_append_left _ member
  | .binary pos op left right, given => by
      rw [Expr.eval]
      refine .bind (left.eval_closes given) fun a => .bind (right.eval_closes _) fun b => ?_
      refine .get fun m => ?_
      exact .ofAnswer pos (op.apply_single m.heap a b)
  | .logical _ op left right, given => by
      rw [Expr.eval]
      refine .bind (left.eval_closes given) fun a => ?_
      cases op <;> cases a.isTruthy
      · exact .held List.mem_cons_self
      · exact right.eval_closes _
      · exact right.eval_closes _
      · exact .held List.mem_cons_self
  | .unary pos op operand, given => by
      rw [Expr.eval]
      refine .get fun m => ?_
      split
      · exact .plain rfl
      · exact .bind (operand.eval_closes given) fun v =>
          .ofResult pos fun w => UnaryOp.apply_single
  | .member pos object text namePos, given => by
      rw [Expr.eval]
      refine .bind (object.eval_closes given) fun v => .get fun m => ?_
      exact .ofResult _ (v.member_single m.heap text)
  | .index pos object position, given => by
      rw [Expr.eval]
      exact .bind (object.eval_closes given) fun a => .bind (position.eval_closes _) fun b =>
        .item pos a b
  | .call pos callee arguments, given => by
      rw [Expr.eval]
      refine .bind (callee.eval_closes given) fun f => ?_
      exact .bind (evalAll_closes arguments _) fun values => .call pos f values

theorem Expr.evalAll_closes : ∀ (es : List Expr) (given : List Value),
    Run.Closes given id (Expr.evalAll es)
  | [], given => .pure [] (List.forall_mem_nil _)
  | e :: rest, given => by
      rw [Expr.evalAll]
      refine .bind (e.eval_closes given) fun v => .bind (evalAll_closes rest _) fun values => ?_
      refine .pure _ fun w member => .inl ?_
      rcases List.mem_cons.mp member with rfl | later
      · exact List.mem_append_right _ List.mem_cons_self
      · exact List.mem_append_left _ later

end

theorem Run.Closes.assign {given : List Value} {v : Value} (held : v ∈ given) (target : Target) :
    Run.Closes given (fun _ => []) (Run.assign v target) := by
  cases target with
  | name pos text => exact assignName pos text held
  | index pos object position =>
      refine bind (object.eval_closes given) fun a => bind (position.eval_closes _) fun b => ?_
      exact assignItem pos a b (List.mem_append_right _ (List.mem_append_right _ held))

theorem Run.Closes.matching? (subject : Value) (clauses : List Clause) : ∀ given : List Value,
    Run.Closes given (fun _ => []) (Run.matching? subject clauses) := by
  induction clauses with
  | nil => exact fun given => nothing _
  | cons clause rest again =>
      intro given
      obtain ⟨pos, test?, body⟩ := clause
      cases test? with
      | none => exact bind (again given) fun n? => nothing _
      | some test =>
          refine bind (test.eval_closes given) fun v => ?_
          split
          · exact nothing _
          · exact bind (again _) fun n? => nothing _

theorem Run.Closes.entry? (subject : Value) (clauses : List Clause) (given : List Value) :
    Run.Closes given (fun _ => []) (Clause.entry? subject clauses) := by
  refine bind (matching? subject clauses given) fun n? => ?_
  cases n? <;> exact nothing _

section Statements

variable {fuel : Nat}

mutual

theorem Stmt.exec_closes : ∀ (s : Stmt) (given : List Value),
    Run.Closes given (fun _ => []) (s.exec fuel)
  | .declare pos kind text none, given => by
      rw [Stmt.exec]
      have plain (given : List Value) :
          Run.Closes given (fun v => [v]) (Pure.pure Value.undefined) := .plain rfl
      exact .bind (.note _) fun _ => .bind (plain _) fun v =>
        .bind (.declare pos (.inl List.mem_cons_self)) fun _ => .nothing _
  | .declare pos kind text (some e), given => by
      rw [Stmt.exec]
      exact .bind (.note _) fun _ => .bind (e.eval_closes _) fun v =>
        .bind (.declare pos (.inl List.mem_cons_self)) fun _ => .nothing _
  | .assign pos target value, given => by
      rw [Stmt.exec]
      exact .bind (.note _) fun _ => .bind (value.eval_closes _) fun v =>
        .bind (.assign List.mem_cons_self target) fun _ => .nothing _
  | .expr pos value, given => by
      rw [Stmt.exec]
      exact .bind (.note _) fun _ => .bind (value.eval_closes _) fun v =>
        .bind (.last List.mem_cons_self) fun _ => .nothing _
  | .block pos body, given => by
      rw [Stmt.exec]
      exact .bind (.note _) fun _ => (execAll_closes body _).inScope
  | .if pos test yes none, given => by
      rw [Stmt.exec]
      refine .bind (.note _) fun _ => .bind (test.eval_closes _) fun v => ?_
      split
      · exact (yes.exec_closes _).branch yes
      · exact .nothing _
  | .if pos test yes (some other), given => by
      rw [Stmt.exec]
      refine .bind (.note _) fun _ => .bind (test.eval_closes _) fun v => ?_
      split
      · exact (yes.exec_closes _).branch yes
      · exact (other.exec_closes _).branch other
  | .while pos test body, given => by
      rw [Stmt.exec]
      have turns := Run.Closes.loop pos test.eval_closes
        (fun given => (body.exec_closes given).branch body) fuel
      exact .bind (.note _) fun _ => .bind (turns _ 0) fun _ => .bind (.note _) fun _ =>
        .nothing _
  | .switch pos subject clauses, given => by
      rw [Stmt.exec]
      refine .bind (.note _) fun _ => .bind (subject.eval_closes _) fun v =>
        .bind (Run.Closes.entry? v clauses _) fun n? => ?_
      cases n? with
      | none => exact .nothing _
      | some n =>
          refine .bind (execFrom_closes clauses n _).inScope fun signal => ?_
          cases signal <;> exact .nothing _
  | .break _, given => by
      rw [Stmt.exec]
      exact .bind (.note _) fun _ => .nothing _
  | .continue _, given => by
      rw [Stmt.exec]
      exact .bind (.note _) fun _ => .nothing _

theorem Stmt.execAll_closes : ∀ (body : List Stmt) (given : List Value),
    Run.Closes given (fun _ => []) (Stmt.execAll fuel body)
  | [], given => .nothing _
  | s :: rest, given => by
      rw [Stmt.execAll]
      refine .bind (s.exec_closes given) fun signal => ?_
      cases signal with
      | normal => exact execAll_closes rest _
      | «break» | «continue» => exact .nothing _

theorem Stmt.execFrom_closes : ∀ (clauses : List Clause) (n : Nat) (given : List Value),
    Run.Closes given (fun _ => []) (Stmt.execFrom fuel n clauses)
  | [], _, given => .nothing _
  | .mk _ _ body :: rest, n + 1, given => by
      rw [Stmt.execFrom]
      exact execFrom_closes rest n given
  | .mk _ _ body :: rest, 0, given => by
      rw [Stmt.execFrom]
      refine .bind (execAll_closes body given) fun signal => ?_
      cases signal with
      | normal => exact execFrom_closes rest 0 _
      | «break» | «continue» => exact .nothing _

end

end Statements

end Trees

theorem Program.run_closes (fuel : Nat) (p : Program) :
    Run.Closes [] (fun _ => []) (p.run fuel) := by
  induction p with
  | nil => exact .nothing _
  | cons s rest again =>
      rw [Program.run]
      have emptied : Run.Closes [] (fun _ => [])
          (modify fun m => { m with last := .undefined }) := fun _ closed _ =>
        ⟨⟨closed.bound, closed.items, trivial⟩, Nat.le_refl _, List.forall_mem_nil _⟩
      exact .bind emptied fun _ => .bind (s.exec_closes _) fun _ => again

namespace Machine

theorem closed_start : start.Closed where
  bound := by
    intro s member b inside
    rw [List.mem_singleton.mp member] at inside
    cases inside
  items := by
    intro ref v member
    rw [Heap.items_of_le (Nat.zero_le ref)] at member
    cases member
  last := trivial

theorem Closed.runSource {m : Machine} (closed : m.Closed) (source : String) :
    (m.runSource source).1.Closed := by
  rw [Machine.runSource, runSourceWithin_eq]
  cases Program.read source with
  | error problem => exact closed
  | ok p =>
      have ran := p.run_closes m.turns.fuel m closed (List.forall_mem_nil _)
      rw [runProgramWithin_fst]
      generalize p.run m.turns.fuel m = result at ran
      cases result <;> exact ran.1

/-- In a session that starts with a closed machine all machines are closed. -/
theorem Closed.runSources (limit : Int) {m : Machine} (closed : m.Closed) (sources : List String) :
    ∀ step ∈ m.runSources limit sources, step.1.Closed := by
  induction sources generalizing m with
  | nil =>
      intro step member
      rw [Machine.runSources] at member
      exact absurd member List.not_mem_nil
  | cons source rest again =>
      have ready : (m.ready limit).Closed := ⟨closed.bound, closed.items, closed.last⟩
      have left := ready.runSource source
      intro step member
      rw [Machine.runSources] at member
      rcases List.mem_cons.mp member with rfl | later
      · exact left
      · exact again left step later

end Machine

end Script
