import Script.Proofs.Number.Value
import Script.Proofs.Run.Atomic

/-!
Places in arrays and strings. An index is checked against the items that are there when it is used,
and no other way leads to an item. So arrays never shrink, and a statement that no other stands in
adds one item at most.
-/

namespace Script

namespace Value

/-- What an index can count: the items of an array, the characters of a string each on its own. -/
def items? (h : Heap) : Value → Option (Array Value)
  | .array ref => some (h.items ref)
  | .string s => some (s.toList.map fun c => .string (.singleton c)).toArray
  | _ => none

def Counts (index : Value) (i : Nat) : Prop :=
  ∃ x, index = .number x ∧ x.isFinite = true ∧ Number.value x = i

/-- What is wrong with an index for which there is no place. -/
def misplaced (indexable : Bool) (index : Value) : FaultKind :=
  if indexable ∧ index.type = .number then .indexOutOfRange else .typeMismatch

section Places

variable {h : Heap} {object index v : Value} {cause : Fault} {n : Nat}

theorem place_eq_ok : index.place = .ok n ↔ index.Counts n := by
  cases index with
  | number x =>
      have counted : (Value.number x).Counts n ↔ x.place? = some n := by
        rw [Number.place?_eq_some]
        constructor
        · rintro ⟨_, ⟨⟩, known⟩
          exact known
        · exact fun known => ⟨x, rfl, known⟩
      rw [counted, place]
      cases x.place? with
      | none =>
          constructor
          · intro known
            cases known
          · intro known
            cases known
      | some i => rw [Except.ok.injEq, Option.some.injEq]
  | string | boolean | undefined | null | array | function | library =>
      constructor
      · intro known
        cases known
      · rintro ⟨_, same, -⟩
        cases same

theorem place_kind (fails : index.place = .error cause) : cause.kind = misplaced true index := by
  cases index with
  | number x =>
      rw [place] at fails
      cases found : x.place? with
      | none =>
          rw [found] at fails
          cases fails
          rfl
      | some i =>
          rw [found] at fails
          cases fails
  | string | boolean | undefined | null | array | function | library =>
      cases fails
      rfl

theorem misplaced_of_counts (counts : index.Counts n) : misplaced true index = .indexOutOfRange := by
  obtain ⟨x, rfl, -⟩ := counts
  rfl

theorem item_eq (h : Heap) (object index : Value) : object.item h index =
    match object.items? h with
    | none => .error (.notIndexable object.type)
    | some items =>
      match index.place with
      | .error cause => .error cause
      | .ok n =>
        match items[n]? with
        | some v => .ok v
        | none => .error (.indexOutOfRange n items.size) := by
  cases object with
  | array ref =>
      rw [item]
      cases index.place with
      | error cause => rfl
      | ok n => rfl
  | string s =>
      rw [item]
      cases index.place with
      | error cause => rfl
      | ok n =>
          simp only [bind, Except.bind, items?, List.getElem?_toArray, List.getElem?_map,
            List.size_toArray, List.length_map, String.length_toList]
          cases s.toList[n]? <;> rfl
  | number | boolean | undefined | null | function | library => rfl

theorem item_eq_ok : object.item h index = .ok v ↔
    ∃ items i, object.items? h = some items ∧ index.Counts i ∧ items[i]? = some v := by
  rw [item_eq]
  cases object.items? h with
  | none => exact iff_of_false nofun (by rintro ⟨-, -, ⟨⟩, -⟩)
  | some items =>
      dsimp only
      cases placed : index.place with
      | error cause =>
          refine iff_of_false nofun ?_
          rintro ⟨-, i, -, counts, -⟩
          rw [place_eq_ok.mpr counts] at placed
          cases placed
      | ok n =>
          have counted := place_eq_ok.mp placed
          constructor
          · intro known
            dsimp only at known
            split at known
            · next found =>
                cases known
                exact ⟨items, n, rfl, counted, found⟩
            · cases known
          · rintro ⟨_, i, ⟨⟩, counts, found⟩
            rw [place_eq_ok.mpr counts] at placed
            cases placed
            simp only [found]

theorem item_kind (fails : object.item h index = .error cause) :
    cause.kind = misplaced (object.items? h).isSome index := by
  rw [item_eq] at fails
  cases found : object.items? h with
  | none =>
      rw [found] at fails
      cases fails
      rfl
  | some items =>
      rw [found] at fails
      dsimp only at fails
      split at fails
      · next placed =>
          cases fails
          exact place_kind placed
      · next n placed =>
          split at fails
          · cases fails
          · cases fails
            exact (misplaced_of_counts (place_eq_ok.mp placed)).symm

end Places

end Value

namespace Heap

variable {h h' h'' : Heap} {ref : Ref} {place : Nat} {v : Value}

theorem Stores.within (stores : h.Stores ref place v h') : place ≤ (h.items ref).size := by
  rcases stores.written with ⟨inside, -⟩ | ⟨last, -⟩
  · exact inside.le
  · exact last.le

theorem Stores.eq_write (stores : h.Stores ref place v h') : h' = h.write ref place v := by
  have written := stores_write stores.known stores.within v
  have same (other : Ref) : h'.items other = (h.write ref place v).items other := by
    by_cases here : other = ref
    · subst here
      rcases stores.written with ⟨inside, items⟩ | ⟨last, items⟩
      · rw [items, items_write_known stores.known, if_pos inside]
      · rw [items, items_write_known stores.known, if_neg last.not_lt]
    · rw [stores.others other here, written.others other here]
  have arrays : h'.arrays = (h.write ref place v).arrays := by
    refine Array.ext (stores.size.trans written.size.symm) fun i known known' => ?_
    have items := same i
    rwa [Heap.items, Heap.items, Array.getD_eq_getD_getElem?, Array.getD_eq_getD_getElem?,
      Array.getElem?_eq_getElem known, Array.getElem?_eq_getElem known'] at items
  cases h'
  exact congrArg Heap.mk arrays

/-- From `h` to `h'` arrays are made, and items are written at places of an array or put behind its
last. -/
inductive Leads (h : Heap) : Heap → Prop
  | refl : Leads h h
  | alloc {h' : Heap} (before : Leads h h') (items : Array Value) : Leads h (h'.alloc items).2
  | store {h' h'' : Heap} {ref : Ref} {place : Nat} {v : Value} (before : Leads h h')
      (stores : h'.Stores ref place v h'') : Leads h h''

structure Lasts (h h' : Heap) : Prop where
  size : h.size ≤ h'.size
  items : ∀ ref < h.size, (h.items ref).size ≤ (h'.items ref).size

/-- One array at most is changed of those that there were, and has one item more at most. -/
def AddsOne (h h' : Heap) : Prop :=
  ∃ ref, ∀ other < h.size, (other ≠ ref → h'.items other = h.items other) ∧
    (h'.items other).size ≤ (h.items other).size + 1

theorem Stores.size_items (stores : h.Stores ref place v h') (other : Ref) :
    (h.items other).size ≤ (h'.items other).size ∧
      (h'.items other).size ≤ (h.items other).size + 1 := by
  by_cases here : other = ref
  · subst here
    rcases stores.written with ⟨-, items⟩ | ⟨-, items⟩
    · rw [items, Array.size_setIfInBounds]
      exact ⟨Nat.le_refl _, Nat.le_succ _⟩
    · rw [items, Array.size_push]
      exact ⟨Nat.le_succ _, Nat.le_refl _⟩
  · rw [stores.others other here]
    exact ⟨Nat.le_refl _, Nat.le_succ _⟩

theorem Leads.trans (first : h.Leads h') (second : h'.Leads h'') : h.Leads h'' := by
  induction second with
  | refl => exact first
  | alloc _ items again => exact .alloc again items
  | store _ stores again => exact .store again stores

theorem Leads.lasts (leads : h.Leads h') : h.Lasts h' := by
  induction leads with
  | refl => exact ⟨Nat.le_refl _, fun _ _ => Nat.le_refl _⟩
  | @alloc h' _ items again =>
      have more : h.size ≤ (h'.alloc items).2.size := by
        rw [size_alloc]
        exact Nat.le_succ_of_le again.size
      refine ⟨more, fun ref known => ?_⟩
      rw [items_alloc_of_lt (Nat.lt_of_lt_of_le known again.size)]
      exact again.items ref known
  | store _ stores again =>
      refine ⟨again.size.trans stores.size.ge, fun ref known => ?_⟩
      exact (again.items ref known).trans (stores.size_items ref).1

theorem write_of_le (unknown : h.size ≤ ref) (place : Nat) (v : Value) :
    h.write ref place v = h := by
  refine congrArg Heap.mk (Array.ext_getElem? fun i => ?_)
  rw [Array.getElem?_modify]
  split
  · next here =>
      rw [← here, Array.getElem?_eq_none unknown]
      rfl
  · rfl

theorem Leads.write (leads : h.Leads h') (within : place ≤ (h'.items ref).size) :
    h.Leads (h'.write ref place v) := by
  rcases Nat.lt_or_ge ref h'.size with known | unknown
  · exact .store leads (stores_write known within v)
  · rwa [write_of_le unknown]

end Heap

namespace Machine

variable {m m' : Machine} {pos : Pos} {object index v : Value}

/-- What a read comes to: where there is a place its item, and else a fault; nothing is changed. -/
structure ReadsItem (m : Machine) (pos : Pos) (object index : Value)
    (result : EStateM.Result Stop Machine Value) : Prop where
  ok : ∀ v m', result = .ok v m' ↔ m' = m ∧
    ∃ items i, object.items? m.heap = some items ∧ index.Counts i ∧ items[i]? = some v
  error : ∀ stop m', result = .error stop m' → m' = m ∧ ∃ cause, stop = .fault cause pos ∧
    cause.kind = Value.misplaced (object.items? m.heap).isSome index

/-- What a write comes to: an item at a place of an array or behind its last, and else a fault that
leaves all as it was. -/
structure WritesItem (m : Machine) (pos : Pos) (object index v : Value)
    (result : EStateM.Result Stop Machine Signal) : Prop where
  ok : ∀ signal m', result = .ok signal m' ↔ signal = .normal ∧
    ∃ ref i, object = .array ref ∧ index.Counts i ∧ m.Stores ref i v m'
  error : ∀ stop m', result = .error stop m' → m' = m ∧ ∃ cause, stop = .fault cause pos ∧
    cause.kind = Value.misplaced object.isArray index

theorem readsItem (m : Machine) (pos : Pos) (object index : Value) :
    m.ReadsItem pos object index (Run.ofResult pos (object.item m.heap index) m) := by
  cases result : object.item m.heap index with
  | ok v =>
      have ran : Run.ofResult pos (.ok v) m = .ok v m := rfl
      rw [ran]
      refine ⟨fun w m' => ?_, fun stop m' fails => by cases fails⟩
      rw [← Value.item_eq_ok, result]
      constructor
      · rintro ⟨⟩
        exact ⟨rfl, rfl⟩
      · rintro ⟨rfl, ⟨⟩⟩
        rfl
  | error cause =>
      have ran : (Run.ofResult pos (.error cause) : Run Value) m = .error (.fault cause pos) m := rfl
      rw [ran]
      refine ⟨fun w m' => ?_, fun stop m' fails => ?_⟩
      · rw [← Value.item_eq_ok, result]
        exact iff_of_false nofun nofun
      · cases fails
        exact ⟨rfl, cause, rfl, Value.item_kind result⟩

theorem writesItem (known : object.Known m.heap) (pos : Pos) (index v : Value) :
    m.WritesItem pos object index v
      ((Run.assignItem pos object index v >>= fun _ => pure .normal) m) := by
  cases object with
  | array ref =>
      have ran := Run.assignItem_apply pos ref index v m
      cases placed : index.place with
      | error cause =>
          rw [placed] at ran
          rw [Run.bind_error ran]
          refine ⟨fun signal m' => iff_of_false nofun ?_, ?_⟩
          · rintro ⟨-, other, i, -, counts, -⟩
            cases placed.symm.trans (Value.place_eq_ok.mpr counts)
          · rintro stop m' ⟨⟩
            exact ⟨rfl, cause, rfl, Value.place_kind placed⟩
      | ok n =>
          have only {i : Nat} (counts : index.Counts i) : n = i :=
            Except.ok.inj (placed.symm.trans (Value.place_eq_ok.mpr counts))
          have counts := Value.place_eq_ok.mp placed
          rw [placed] at ran
          dsimp only at ran
          split at ran
          · next past =>
              rw [Run.bind_error ran]
              refine ⟨fun signal m' => iff_of_false nofun ?_, ?_⟩
              · rintro ⟨-, other, i, ⟨⟩, counts', heap, stores, -⟩
                obtain rfl := only counts'
                exact absurd past stores.within.not_gt
              · rintro stop m' ⟨⟩
                exact ⟨rfl, _, rfl, (Value.misplaced_of_counts counts).symm⟩
          · next within =>
              have done : (pure Signal.normal : Run Signal) { m with heap := m.heap.write ref n v } =
                .ok .normal { m with heap := m.heap.write ref n v } := rfl
              rw [Run.bind_ok ran, done]
              refine ⟨fun signal m' => ?_, fun stop m' fails => by cases fails⟩
              constructor
              · rintro ⟨⟩
                have stores := Heap.stores_write known (Nat.le_of_not_lt within) v
                exact ⟨rfl, ref, n, rfl, counts, _, stores, rfl⟩
              · rintro ⟨rfl, other, i, ⟨⟩, counts', heap, stores, rfl⟩
                obtain rfl := only counts'
                rw [stores.eq_write]
  | number | string | boolean | undefined | null | function | library =>
      refine ⟨fun signal m' => iff_of_false nofun ?_, ?_⟩
      · rintro ⟨-, _, _, ⟨⟩, -⟩
      · rintro stop m' ⟨⟩
        exact ⟨rfl, _, rfl, rfl⟩

end Machine

section Runs

variable {m : Machine} {fuel : Nat}

theorem Heap.leads_steps (h : Heap) (fuel : Nat) :
    ExecSteps fuel (fun m => h.Leads m.heap) (fun _ m => h.Leads m.heap) (fun _ => True)
      (fun _ => True) where
  operand _ _ _ := trivial
  print _ _ leads := leads
  alloc items leads := .alloc leads items
  fault _ _ _ leads := leads
  domain _ _ _ _ _ _ leads := leads
  uses _ _ := trivial
  inner _ _ := trivial
  refuse _ _ _ leads := leads
  note _ leads := leads
  last _ leads := leads
  define _ leads := leads
  assign _ leads := leads
  write _ within leads := leads.write within
  scope runs leads := .inScope leads id id runs
  loop _ tests runs _ leads := by
    apply Meets.loop
    case unfinished => exact fun leads => leads
    case polls =>
      intro m turns leads
      rw [Run.poll_apply]
      split <;> exact leads
    case begins => exact fun leads => leads
    case tests => exact tests
    case runs => exact runs
    exact leads

theorem Stmt.exec_leads (fuel : Nat) (s : Stmt) (m : Machine) :
    m.heap.Leads (Run.after (s.exec fuel m)).heap :=
  (s.exec_meets (m.heap.leads_steps fuel) trivial m .refl).after

theorem Program.run_leads (fuel : Nat) (p : Program) (m : Machine) :
    m.heap.Leads (Run.after (p.run fuel m)).heap :=
  (p.run_meets (m.heap.leads_steps fuel) (fun _ _ => trivial) .refl).after

theorem Machine.runSource_leads (m : Machine) (source : String) :
    m.heap.Leads (m.runSource source).1.heap := by
  rw [runSource, runSourceWithin_eq]
  cases Program.read source with
  | error problem => exact .refl
  | ok p =>
      rw [runProgramWithin_fst]
      exact p.run_leads _ m

theorem Machine.runSources_leads (limit : Int) (sources : List String) :
    ∀ m : Machine, ∀ step ∈ m.runSources limit sources, m.heap.Leads step.1.heap := by
  induction sources with
  | nil =>
      intro m step member
      rw [runSources] at member
      exact absurd member List.not_mem_nil
  | cons source rest again =>
      intro m step member
      have first := (m.ready limit).runSource_leads source
      rw [runSources, List.mem_cons] at member
      rcases member with rfl | later
      · exact first
      · exact first.trans (again _ step later)

theorem Machine.Spares.addsOne {m' : Machine} (spares : m.Spares m') : m.heap.AddsOne m'.heap := by
  refine ⟨0, fun other known => ⟨fun _ => spares.items other known, ?_⟩⟩
  rw [spares.items other known]
  exact Nat.le_succ _

theorem Machine.Stores.addsOne {between m' : Machine} (spares : m.Spares between) {ref : Ref}
    {place : Nat} {v : Value} (stores : between.Stores ref place v m') :
    m.heap.AddsOne m'.heap := by
  obtain ⟨heap, stores, rfl⟩ := stores
  refine ⟨ref, fun other known => ?_⟩
  rw [← spares.items other known]
  exact ⟨stores.others other, (stores.size_items other).2⟩

theorem Machine.Once.addsOne {wrote : Machine → Prop} {result : EStateM.Result Stop Machine Signal}
    (once : m.Once wrote result) (adds : ∀ m', wrote m' → m.heap.AddsOne m'.heap) :
    m.heap.AddsOne (Run.after result).heap := by
  cases result with
  | ok signal m' => exact adds m' once.2
  | error stop m' => exact Spares.addsOne once

theorem Stmt.execFrom_empty {clauses : List Clause} (empty : ∀ c ∈ clauses, c.body = []) :
    ∀ (n : Nat) (m : Machine), Stmt.execFrom fuel n clauses m = .ok .normal m := by
  induction clauses with
  | nil => exact fun n m => rfl
  | cons c rest again =>
      obtain ⟨pos, test, body⟩ := c
      obtain rfl : body = [] := empty _ List.mem_cons_self
      have others := again fun c later => empty c (List.mem_cons_of_mem _ later)
      intro n m
      cases n with
      | succ n => exact others n m
      | zero =>
          rw [Stmt.execFrom]
          have none : Stmt.execAll fuel [] m = .ok .normal m := rfl
          rw [Run.bind_ok none]
          exact others 0 m

theorem Stmt.switch_spares (fuel : Nat) (m : Machine) (pos : Pos) (subject : Expr)
    {clauses : List Clause} (empty : ∀ c ∈ clauses, c.body = []) :
    m.Spares (Run.after ((Stmt.switch pos subject clauses).exec fuel m)) := by
  have steps := m.spares_steps
  have noted : Meets m.Spares (fun _ => m.Spares)
      (Run.note (.statement pos.line (Stmt.switch pos subject clauses).type) m) :=
    m.noted_spares (.switch pos subject clauses)
  apply Meets.after
  rw [Stmt.exec]
  apply Meets.bind noted
  intro _ m₁ _ spares
  apply Meets.bind (subject.eval_meets steps trivial spares)
  intro v m₂ _ spares
  apply Meets.bind (Run.entry?_meets steps v clauses (fun _ _ _ _ => trivial) spares)
  intro n? m₃ _ spares
  cases n? with
  | none => exact spares
  | some n =>
      have ran : Run.inScope (Stmt.execFrom fuel n clauses) m₃ = .ok .normal m₃ := by
        rw [Run.inScope_apply, Stmt.execFrom_empty empty]
        rfl
      have kept : Meets m.Spares (fun _ => m.Spares)
          (Run.inScope (Stmt.execFrom fuel n clauses) m₃) := by
        rw [ran]
        exact spares
      exact kept.bind fun signal m₄ _ spares => by cases signal <;> exact spares

theorem Stmt.exec_addsOne (closed : m.Closed) (fuel : Nat) {s : Stmt} (single : s.inner = []) :
    m.heap.AddsOne (Run.after (s.exec fuel m)).heap := by
  cases s with
  | declare pos kind name value? =>
      refine (Stmt.declare_once m pos kind name value?).addsOne ?_
      rintro m' ⟨v, between, -, spares, current, -, rfl⟩
      exact spares.addsOne
  | assign pos target value =>
      cases target with
      | name place name =>
          refine (Stmt.assignName_once m pos place name value).addsOne ?_
          rintro m' ⟨v, between, -, spares, inner, s, t, outer, -, -, -, -, -, rfl⟩
          exact spares.addsOne
      | index place object position =>
          refine (Stmt.assignItem_once closed pos place object position value).addsOne ?_
          rintro m' ⟨v, ref, index, n, m₁, m₂, between, -, -, -, -, spares, stores⟩
          exact stores.addsOne spares
  | expr pos value =>
      refine (Stmt.expr_once m pos value).addsOne ?_
      rintro m' ⟨v, between, -, spares, rfl⟩
      exact spares.addsOne
  | block pos body =>
      obtain rfl : body = [] := single
      exact (Machine.Spares.refl m).addsOne
  | «if» pos test yes no => cases single
  | «while» pos test body => cases single
  | switch pos subject clauses =>
      have empty : ∀ c ∈ clauses, c.body = [] := List.flatMap_eq_nil_iff.mp single
      exact (Stmt.switch_spares fuel m pos subject empty).addsOne
  | «break» => exact (Machine.Spares.refl m).addsOne
  | «continue» => exact (Machine.Spares.refl m).addsOne

/-- Indexing stays in bounds, whatever is indexed, and whatever its length was when the operands were
evaluated. A run makes arrays and writes within bounds, so that no array gets shorter, and by one
statement of itself none gets longer by more than an item. -/
theorem indexing_in_bounds {m : Machine} (closed : m.Closed) :
    (∀ pos object position a b m₁ m₂, Expr.eval object m = .ok a m₁ →
      Expr.eval position m₁ = .ok b m₂ →
      m₂.ReadsItem pos a b ((Expr.index pos object position).eval m)) ∧
    (∀ fuel pos place object position value v a b m₁ m₂ m₃,
      let s := Stmt.assign pos (.index place object position) value
      Expr.eval value (m.noted s) = .ok v m₁ → Expr.eval object m₁ = .ok a m₂ →
      Expr.eval position m₂ = .ok b m₃ → m₃.WritesItem place a b v (s.exec fuel m)) ∧
    (∀ fuel s, let h := (Run.after (Stmt.exec fuel s m)).heap
      m.heap.Leads h ∧ m.heap.Lasts h ∧ (s.inner = [] → m.heap.AddsOne h)) ∧
    (∀ fuel p, let h := (Run.after (Program.run fuel p m)).heap
      m.heap.Leads h ∧ m.heap.Lasts h) ∧
    ∀ limit sources, ∀ step ∈ m.runSources limit sources,
      m.heap.Leads step.1.heap ∧ m.heap.Lasts step.1.heap := by
  refine ⟨?_, ?_, ?_, ?_, ?_⟩
  · intro pos object position a b m₁ m₂ found indexed
    rw [Expr.eval, Run.bind_ok found, Run.bind_ok indexed]
    exact m₂.readsItem pos a b
  · intro fuel pos place object position value v a b m₁ m₂ m₃ s comes found indexed
    have noted : (m.noted s).Closed := ⟨closed.bound, closed.items, closed.last⟩
    have known := noted.known_when_written comes found indexed
    have ran : s.exec fuel m =
        (Run.assignItem place a b v >>= fun _ => pure Signal.normal) m₃ := by
      rw [Stmt.exec]
      show (value.eval >>= fun v => (object.eval >>= fun a => position.eval >>= fun b =>
        Run.assignItem place a b v) >>= fun _ => pure Signal.normal) (m.noted s) = _
      rw [Run.bind_ok comes, bind_assoc, Run.bind_ok found, bind_assoc, Run.bind_ok indexed]
    rw [ran]
    exact Machine.writesItem known place b v
  · intro fuel s
    have leads := s.exec_leads fuel m
    exact ⟨leads, leads.lasts, s.exec_addsOne closed fuel⟩
  · intro fuel p
    have leads := p.run_leads fuel m
    exact ⟨leads, leads.lasts⟩
  · intro limit sources step member
    have leads := m.runSources_leads limit sources step member
    exact ⟨leads, leads.lasts⟩

/-- `a[-1]` is no item of a shared array, and `a[1] = a;` puts one behind its only one. -/
theorem indexing_in_bounds_shared :
    sharedArray.Closed ∧
    (∃ cause, (Expr.index ⟨1, 2⟩ (.name ⟨1, 1⟩ "a") (.literal ⟨1, 3⟩ (.number (-1)))).eval
        sharedArray = .error (.fault cause ⟨1, 2⟩) sharedArray ∧ cause.kind = .indexOutOfRange) ∧
    (∃ m', (insertion 1).exec 0 sharedArray = .ok .normal m' ∧
      (sharedArray.noted (insertion 1)).Stores 0 1 (.array 0) m') ∧
    sharedArray.heap.AddsOne (Run.after ((insertion 1).exec 0 sharedArray)).heap := by
  -- All that matters of the numbers is whether they stand for a place.
  have before : (Value.number (-1)).place.isOk = false := by decide +kernel
  have second : (Value.number 1).place = .ok 1 := by decide +kernel
  generalize (-1 : Number) = x at before ⊢
  generalize (1 : Number) = y at second ⊢
  obtain ⟨reads, writes, grows, -, -⟩ := indexing_in_bounds sharedArray_closed
  refine ⟨sharedArray_closed, ?_, ?_, ?_⟩
  · have read := reads ⟨1, 2⟩ (.name ⟨1, 1⟩ "a") (.literal ⟨1, 3⟩ (.number x)) (.array 0) (.number x)
      sharedArray sharedArray rfl rfl
    cases result : (Expr.index ⟨1, 2⟩ (.name ⟨1, 1⟩ "a") (.literal ⟨1, 3⟩ (.number x))).eval
        sharedArray with
    | ok v m' =>
        obtain ⟨-, items, i, -, counts, -⟩ := (read.ok v m').mp result
        rw [Value.place_eq_ok.mpr counts] at before
        cases before
    | error stop m' =>
        obtain ⟨rfl, cause, rfl, kind⟩ := read.error stop m' result
        exact ⟨cause, rfl, kind⟩
  · have written := writes 0 ⟨1, 1⟩ ⟨1, 2⟩ (.name ⟨1, 1⟩ "a") (.literal ⟨1, 3⟩ (.number y))
      (.name ⟨1, 8⟩ "a") (.array 0) (.array 0) (.number y) _ _ _ rfl rfl rfl
    have known : 0 < sharedArray.heap.size := Nat.zero_lt_one
    have within : 1 ≤ (sharedArray.heap.items 0).size := Nat.le_refl 1
    have stores : (sharedArray.noted (insertion y)).Stores 0 1 (.array 0) _ :=
      ⟨_, Heap.stores_write known within (.array 0), rfl⟩
    have counts := Value.place_eq_ok.mp second
    exact ⟨_, (written.ok .normal _).mpr ⟨rfl, 0, 1, rfl, counts, stores⟩, stores⟩
  · exact (grows 0 (insertion y)).2.2 rfl

end Runs

end Script
