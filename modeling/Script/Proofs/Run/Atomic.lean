import Script.Proofs.Run.Closed
import Script.Proofs.Run.Signals

/-!
Declarations, assignments and expression statements. Such a statement first evaluates its
expressions, which writes nothing that is there already; then it fails, or writes in one place.
-/

namespace Script

/-- From `m` to `m'` lines were printed and arrays made. All that was there is as it was. -/
structure Machine.Spares (m m' : Machine) : Prop where
  scopes : m'.scopes = m.scopes
  last : m'.last = m.last
  turns : m'.turns = m.turns
  output : m.output.toList <+: m'.output.toList
  size : m.heap.size ≤ m'.heap.size
  items : ∀ ref < m.heap.size, m'.heap.items ref = m.heap.items ref

/-- The binding is written in a scope, in the place of the one of its name if there is one. -/
structure Scope.Puts (b : Binding) (s t : Scope) : Prop where
  written : t.find? b.name = some b
  others : ∀ name ≠ b.name, t.find? name = s.find? name

/-- The value is written at a place of an array, or put behind its last item. -/
structure Heap.Stores (ref : Ref) (place : Nat) (v : Value) (h h' : Heap) : Prop where
  known : ref < h.size
  size : h'.size = h.size
  others : ∀ other ≠ ref, h'.items other = h.items other
  written : place < (h.items ref).size ∧ h'.items ref = (h.items ref).setIfInBounds place v ∨
    place = (h.items ref).size ∧ h'.items ref = (h.items ref).push v

namespace Machine

/-- One binding is written, in the current scope. -/
def Declares (b : Binding) (m m' : Machine) : Prop :=
  ∃ current, m.scopes.current.Puts b current ∧
    m' = { m with scopes := { m.scopes with current } }

/-- One binding is written, in the nearest scope that binds its name. It was and is no constant. -/
def Assigns (name : String) (v : Value) (m m' : Machine) : Prop :=
  ∃ inner s t outer, m.scopes.chain = inner ++ s :: outer ∧
    (∀ scope ∈ inner, scope.find? name = none) ∧ s.find? name ≠ none ∧ s.fixes name = false ∧
    s.Puts ⟨name, v, false⟩ t ∧ m' = { m with scopes := .ofChain (inner ++ t :: outer) }

/-- One array is written to. -/
def Stores (ref : Ref) (place : Nat) (v : Value) (m m' : Machine) : Prop :=
  ∃ heap, m.heap.Stores ref place v heap ∧ m' = { m with heap }

/-- What runs on `m` ends normally, having done as `wrote` says, or is stopped with all spared. -/
def Once (m : Machine) (wrote : Machine → Prop) : EStateM.Result Stop Machine Signal → Prop
  | .ok signal m' => signal = .normal ∧ wrote m'
  | .error _ m' => m.Spares m'

end Machine

section Spares

variable {m m' m'' : Machine}

theorem Machine.Spares.refl (m : Machine) : m.Spares m :=
  ⟨rfl, rfl, rfl, List.prefix_refl _, Nat.le_refl _, fun _ _ => rfl⟩

theorem Machine.Spares.trans (first : m.Spares m') (second : m'.Spares m'') : m.Spares m'' where
  scopes := second.scopes.trans first.scopes
  last := second.last.trans first.last
  turns := second.turns.trans first.turns
  output := first.output.trans second.output
  size := Nat.le_trans first.size second.size
  items ref known :=
    (second.items ref (Nat.lt_of_lt_of_le known first.size)).trans (first.items ref known)

theorem Machine.noted_spares (m : Machine) (s : Stmt) : m.Spares (m.noted s) :=
  ⟨rfl, rfl, rfl, List.prefix_refl _, Nat.le_refl _, fun _ _ => rfl⟩

theorem Machine.print_spares (m : Machine) (line : String) :
    m.Spares { m with output := m.output.push line } where
  scopes := rfl
  last := rfl
  turns := rfl
  output := by
    rw [Array.toList_push]
    exact List.prefix_append _ _
  size := Nat.le_refl _
  items _ _ := rfl

theorem Machine.alloc_spares (m : Machine) (items : Array Value) :
    m.Spares { m with heap := (m.heap.alloc items).2 } where
  scopes := rfl
  last := rfl
  turns := rfl
  output := List.prefix_refl _
  size := by
    rw [Heap.size_alloc]
    exact Nat.le_succ _
  items _ known := Heap.items_alloc_of_lt known items

theorem Machine.spares_steps (m : Machine) :
    EvalSteps m.Spares (fun _ => m.Spares) (fun _ => True) where
  operand _ _ _ := trivial
  print line _ spares := spares.trans (print_spares _ line)
  alloc items spares := spares.trans (alloc_spares _ items)
  fault _ _ _ spares := spares
  domain _ _ _ _ _ _ spares := spares

theorem Expr.eval_spares (e : Expr) (m : Machine) : m.Spares (Run.after (e.eval m)) :=
  (e.eval_meets m.spares_steps trivial (.refl m)).after

end Spares

section Places

theorem Scope.puts_bind (s : Scope) (b : Binding) : s.Puts b (s.bind b) where
  written := find?_bind_self s b
  others _ other := find?_bind_of_ne s other.symm

theorem Heap.stores_write {h : Heap} {ref : Ref} (known : ref < h.size) {place : Nat}
    (within : place ≤ (h.items ref).size) (v : Value) :
    h.Stores ref place v (h.write ref place v) where
  known := known
  size := h.size_write ref place v
  others _ other := items_write_of_ne other place v
  written := by
    rw [items_write_known known]
    rcases Nat.lt_or_eq_of_le within with inside | last
    · exact .inl ⟨inside, if_pos inside⟩
    · exact .inr ⟨last, if_neg (Nat.not_lt.mpr (Nat.le_of_eq last.symm))⟩

theorem Heap.Stores.read {h h' : Heap} {ref : Ref} {place : Nat} {v : Value}
    (stores : h.Stores ref place v h') : (h'.items ref)[place]? = some v := by
  rcases stores.written with ⟨inside, items⟩ | ⟨last, items⟩
  · rw [items, Array.getElem?_setIfInBounds_self_of_lt inside]
  · rw [items, last, Array.getElem?_push_size]

theorem Chain.assign_nearest {name : String} {v : Value} : ∀ {c d : Chain},
    c.assign name v = .ok d → ∃ inner s t outer, c = inner ++ s :: outer ∧
      (∀ scope ∈ inner, scope.find? name = none) ∧ s.find? name ≠ none ∧ s.fixes name = false ∧
      s.Puts ⟨name, v, false⟩ t ∧ d = inner ++ t :: outer
  | [], _, assigns => by cases assigns
  | s :: outer, d, assigns => by
      rw [Chain.assign] at assigns
      cases found : s.find? name with
      | none =>
          rw [found] at assigns
          cases result : Chain.assign name v outer with
          | error cause =>
              rw [result] at assigns
              cases assigns
          | ok outer' =>
              rw [result] at assigns
              cases assigns
              obtain ⟨inner, s', t, further, rfl, free, bound, unfixed, puts, rfl⟩ :=
                assign_nearest result
              have all : ∀ scope ∈ s :: inner, scope.find? name = none := by
                intro scope member
                rcases List.mem_cons.mp member with rfl | later
                · exact found
                · exact free scope later
              exact ⟨s :: inner, s', t, further, rfl, all, bound, unfixed, puts, rfl⟩
      | some b =>
          rw [found] at assigns
          dsimp only at assigns
          split at assigns
          · cases assigns
          · next variable_ =>
              cases assigns
              have free : b.constant = false := by simpa using variable_
              have named := Scope.name_of_find? found
              have unfixed : s.fixes name = false := by
                rw [Scope.fixes, found, Option.any_some, free]
              have bound : s.find? name ≠ none := by rw [found]; exact Option.some_ne_none b
              have puts := s.puts_bind { b with value := v }
              rw [named, free] at puts
              rw [named, free]
              exact ⟨[], s, _, outer, rfl, List.forall_mem_nil _, bound, unfixed, puts, rfl⟩

end Places

namespace Machine.Once

variable {m start : Machine} {wrote : Machine → Prop}

theorem imp {other : Machine → Prop} {result : EStateM.Result Stop Machine Signal}
    (once : m.Once wrote result) (imp : ∀ m', wrote m' → other m') : m.Once other result := by
  cases result with
  | ok signal m' => exact ⟨once.1, imp m' once.2⟩
  | error stop m' => exact once

theorem eval (spares : m.Spares start) {e : Expr} {next : Value → Run Signal}
    (goes : ∀ v between, e.eval start = .ok v between → m.Spares between →
      m.Once wrote (next v between)) : m.Once wrote ((e.eval >>= next) start) := by
  have evaluated := spares.trans (e.eval_spares start)
  cases ran : e.eval start with
  | ok v between =>
      rw [ran] at evaluated
      rw [Run.bind_ok ran]
      exact goes v between ran evaluated
  | error stop m' =>
      rw [ran] at evaluated
      rw [Run.bind_error ran]
      exact evaluated

theorem declare (spares : m.Spares start) (pos : Pos) (b : Binding) :
    m.Once (start.Declares b) ((Run.declare pos b >>= fun _ => pure .normal) start) := by
  have ran := Run.declare_apply pos b start
  cases result : start.scopes.define b with
  | error cause =>
      rw [result] at ran
      rw [Run.bind_error ran]
      exact spares
  | ok scopes =>
      rw [result] at ran
      rw [Run.bind_ok ran]
      obtain ⟨-, rfl⟩ := Scopes.define_eq_ok result
      exact ⟨rfl, _, Scope.puts_bind _ b, rfl⟩

theorem assignName (spares : m.Spares start) (pos : Pos) (name : String) (v : Value) :
    m.Once (start.Assigns name v)
      ((Run.assignName pos name v >>= fun _ => pure .normal) start) := by
  have ran := Run.assignName_apply pos name v start
  split at ran
  · rw [Run.bind_error ran]
    exact spares
  · cases result : start.scopes.assign name v with
    | error cause =>
        rw [result] at ran
        rw [Run.bind_error ran]
        exact spares
    | ok scopes =>
        rw [result] at ran
        rw [Run.bind_ok ran]
        obtain ⟨c, assigns, rfl⟩ := Scopes.assign_eq_ok result
        obtain ⟨inner, s, t, outer, chain, free, bound, unfixed, puts, rfl⟩ :=
          Chain.assign_nearest assigns
        exact ⟨rfl, inner, s, t, outer, chain, free, bound, unfixed, puts, rfl⟩

theorem assignItem (spares : m.Spares start) (pos : Pos) {object : Value}
    (known : object.Known start.heap) (index v : Value) :
    m.Once (fun m' => ∃ ref n, object = .array ref ∧ index.place = .ok n ∧
        start.Stores ref n v m')
      ((Run.assignItem pos object index v >>= fun _ => pure .normal) start) := by
  cases object with
  | array ref =>
      have ran := Run.assignItem_apply pos ref index v start
      cases placed : index.place with
      | error cause =>
          rw [placed] at ran
          rw [Run.bind_error ran]
          exact spares
      | ok n =>
          rw [placed] at ran
          dsimp only at ran
          split at ran
          · rw [Run.bind_error ran]
            exact spares
          · next within =>
              rw [Run.bind_ok ran]
              have stores := Heap.stores_write known (Nat.le_of_not_lt within) v
              exact ⟨rfl, ref, n, rfl, rfl, _, stores, rfl⟩
  | number | string | boolean | undefined | null | function | library => exact spares

end Machine.Once

def Stmt.initial : Option Expr → Run Value
  | some e => e.eval
  | none => return .undefined

theorem Machine.Stores.read {m m' : Machine} {ref : Ref} {place : Nat} {v : Value}
    (stores : m.Stores ref place v m') {object position : Expr} {index : Value} {m₁ m₂ : Machine}
    (comes : object.eval m' = .ok (.array ref) m₁) (indexed : position.eval m₁ = .ok index m₂)
    (placed : index.place = .ok place) (pos : Pos) :
    (Expr.index pos object position).eval m' = .ok v m₂ := by
  obtain ⟨heap, stores, rfl⟩ := stores
  have first := object.eval_spares { m with heap }
  have second := position.eval_spares m₁
  rw [comes] at first
  rw [indexed] at second
  have known : ref < heap.size := stores.size.symm ▸ stores.known
  have spared : m₂.heap.items ref = heap.items ref :=
    (first.trans second).items ref known
  have found : (m₂.heap.items ref)[place]? = some v := spared ▸ stores.read
  rw [Expr.eval, Run.bind_ok comes, Run.bind_ok indexed]
  show Run.ofResult pos ((Value.array ref).item m₂.heap index) m₂ = _
  have item : (Value.array ref).item m₂.heap index = .ok v := by
    rw [Value.item, placed]
    simp only [bind, Except.bind, found]
    rfl
  rw [item]
  rfl

section Statements

variable {m : Machine} {fuel : Nat}

theorem Stmt.declare_once (m : Machine) (pos : Pos) (kind : DeclKind) (name : String)
    (value? : Option Expr) :
    let s := Stmt.declare pos kind name value?
    m.Once (fun m' => ∃ v between, initial value? (m.noted s) = .ok v between ∧
      m.Spares between ∧ between.Declares ⟨name, v, kind = .const⟩ m') (s.exec fuel m) := by
  intro s
  have noted := m.noted_spares s
  have declared (v : Value) {between : Machine} (comes : initial value? (m.noted s) = .ok v between)
      (spares : m.Spares between) :=
    (Machine.Once.declare spares pos ⟨name, v, kind = .const⟩).imp fun m' declares =>
      show ∃ v between, initial value? (m.noted s) = .ok v between ∧ m.Spares between ∧
        between.Declares ⟨name, v, kind = .const⟩ m' from ⟨v, between, comes, spares, declares⟩
  rw [Stmt.exec]
  cases value? with
  | none => exact declared .undefined rfl noted
  | some e =>
      show m.Once _ ((e.eval >>= _) (m.noted s))
      exact .eval noted fun v between comes spares => declared v comes spares

theorem Stmt.assignName_once (m : Machine) (pos place : Pos) (name : String) (value : Expr) :
    let s := Stmt.assign pos (.name place name) value
    m.Once (fun m' => ∃ v between, value.eval (m.noted s) = .ok v between ∧ m.Spares between ∧
      between.Assigns name v m') (s.exec fuel m) := by
  intro s
  rw [Stmt.exec]
  show m.Once _ ((value.eval >>= _) (m.noted s))
  refine .eval (m.noted_spares s) fun v between comes spares => ?_
  exact (Machine.Once.assignName spares place name v).imp fun m' assigns =>
    ⟨v, between, comes, spares, assigns⟩

theorem Machine.Closed.known_when_written (closed : m.Closed) {value object position : Expr}
    {v a index : Value} {m₁ m₂ m₃ : Machine} (comes : value.eval m = .ok v m₁)
    (found : object.eval m₁ = .ok a m₂) (indexed : position.eval m₂ = .ok index m₃) :
    a.Known m₃.heap := by
  have closed₁ := value.eval_closes [] _ closed (List.forall_mem_nil _)
  rw [comes] at closed₁
  have closed₂ := object.eval_closes [] _ closed₁.1 (List.forall_mem_nil _)
  rw [found] at closed₂
  have closed₃ := position.eval_closes [a] _ closed₂.1 closed₂.2.2
  rw [indexed] at closed₃
  exact (closed₂.2.2 a List.mem_cons_self).mono closed₃.2.1

theorem Stmt.assignItem_once (closed : m.Closed) (pos place : Pos) (object position value : Expr) :
    let s := Stmt.assign pos (.index place object position) value
    m.Once (fun m' => ∃ v ref index n m₁ m₂ between, value.eval (m.noted s) = .ok v m₁ ∧
      object.eval m₁ = .ok (.array ref) m₂ ∧ position.eval m₂ = .ok index between ∧
      index.place = .ok n ∧ m.Spares between ∧ between.Stores ref n v m') (s.exec fuel m) := by
  intro s
  have noted : (m.noted s).Closed := ⟨closed.bound, closed.items, closed.last⟩
  rw [Stmt.exec]
  show m.Once _ ((value.eval >>= _) (m.noted s))
  refine .eval (m.noted_spares s) fun v m₁ comes spares => ?_
  show m.Once _ (((object.eval >>= fun a => position.eval >>= fun b =>
    Run.assignItem place a b v) >>= _) m₁)
  rw [bind_assoc]
  refine .eval spares fun a m₂ found spares => ?_
  rw [bind_assoc]
  refine .eval spares fun index between indexed spares => ?_
  have known := noted.known_when_written comes found indexed
  refine (Machine.Once.assignItem spares place known index v).imp ?_
  rintro m' ⟨ref, n, rfl, placed, stores⟩
  exact ⟨v, ref, index, n, m₁, m₂, between, comes, found, indexed, placed, spares, stores⟩

theorem Stmt.expr_once (m : Machine) (pos : Pos) (value : Expr) :
    let s := Stmt.expr pos value
    m.Once (fun m' => ∃ v between, value.eval (m.noted s) = .ok v between ∧ m.Spares between ∧
      m' = { between with last := v }) (s.exec fuel m) := by
  intro s
  rw [Stmt.exec]
  show m.Once _ ((value.eval >>= _) (m.noted s))
  exact .eval (m.noted_spares s) fun v between comes spares => ⟨rfl, v, between, comes, spares, rfl⟩

end Statements

/-- A declaration, an assignment or an expression statement that is stopped leaves all that there
was as it was. If it is not, it has written in one place only: a declaration to its name in the
current scope, an assignment to the nearest binding of a name or to an array, which has the value at
that place whatever reads it there next, and an expression statement to the last value. -/
theorem writes_once {m : Machine} (closed : m.Closed) (fuel : Nat) :
    (∀ pos kind name value?,
      let s := Stmt.declare pos kind name value?
      m.Once (fun m' => ∃ v between, Stmt.initial value? (m.noted s) = .ok v between ∧
        m.Spares between ∧ between.Declares ⟨name, v, kind = .const⟩ m') (s.exec fuel m)) ∧
    (∀ pos place name value,
      let s := Stmt.assign pos (.name place name) value
      m.Once (fun m' => ∃ v between, value.eval (m.noted s) = .ok v between ∧ m.Spares between ∧
        between.Assigns name v m') (s.exec fuel m)) ∧
    (∀ pos place object position value,
      let s := Stmt.assign pos (.index place object position) value
      m.Once (fun m' => ∃ v ref index n m₁ m₂ between, value.eval (m.noted s) = .ok v m₁ ∧
        object.eval m₁ = .ok (.array ref) m₂ ∧ position.eval m₂ = .ok index between ∧
        index.place = .ok n ∧ m.Spares between ∧ between.Stores ref n v m' ∧
        ∀ at₁ object' position' index' m₃ m₄, Expr.eval object' m' = .ok (.array ref) m₃ →
          Expr.eval position' m₃ = .ok index' m₄ → index'.place = .ok n →
          (Expr.index at₁ object' position').eval m' = .ok v m₄) (s.exec fuel m)) ∧
    ∀ pos value,
      let s := Stmt.expr pos value
      m.Once (fun m' => ∃ v between, value.eval (m.noted s) = .ok v between ∧ m.Spares between ∧
        m' = { between with last := v }) (s.exec fuel m) := by
  refine ⟨Stmt.declare_once m, Stmt.assignName_once m, ?_, Stmt.expr_once m⟩
  intro pos place object position value
  refine (Stmt.assignItem_once closed pos place object position value).imp ?_
  rintro m' ⟨v, ref, index, n, m₁, m₂, between, comes, found, indexed, placed, spares, stores⟩
  refine ⟨v, ref, index, n, m₁, m₂, between, comes, found, indexed, placed, spares, stores, ?_⟩
  intro at₁ object' position' index' m₃ m₄ again indexed' placed'
  exact stores.read again indexed' placed' at₁

def sharedArray : Machine :=
  { Machine.start with
    scopes := ⟨[⟨"a", .array 0, true⟩, ⟨"b", .array 0, false⟩], []⟩
    heap := ⟨#[#[.null]]⟩ }

/-- `a[x] = a;` -/
def insertion (x : Number) : Stmt :=
  .assign ⟨1, 1⟩ (.index ⟨1, 2⟩ (.name ⟨1, 1⟩ "a") (.literal ⟨1, 3⟩ (.number x)))
    (.name ⟨1, 8⟩ "a")

theorem sharedArray_closed : sharedArray.Closed where
  bound := by
    intro s member b inside
    rcases List.mem_singleton.mp member with rfl
    rcases List.mem_cons.mp inside with rfl | inside
    · exact Nat.zero_lt_one
    · rcases List.mem_singleton.mp inside with rfl
      exact Nat.zero_lt_one
  items := by
    intro ref v member
    cases ref with
    | zero =>
        rcases List.mem_singleton.mp member with rfl
        trivial
    | succ n =>
        cases member
  last := trivial

theorem writes_once_insertion :
    sharedArray.Closed ∧ ∃ m', (insertion 1).exec 0 sharedArray = .ok .normal m' ∧
      (Expr.index ⟨2, 2⟩ (.name ⟨2, 1⟩ "b") (.literal ⟨2, 3⟩ (.number 1))).eval m' =
        .ok (.array 0) m' := by
  refine ⟨sharedArray_closed, ?_⟩
  -- All that matters of the number is the place it stands for.
  have second : (Value.number 1).place = .ok 1 := by decide +kernel
  generalize (1 : Number) = x at second ⊢
  obtain ⟨-, -, items, -⟩ := writes_once sharedArray_closed 0
  have once := items ⟨1, 1⟩ ⟨1, 2⟩ (.name ⟨1, 1⟩ "a") (.literal ⟨1, 3⟩ (.number x))
    (.name ⟨1, 8⟩ "a")
  have stored : Run.assignItem ⟨1, 2⟩ (.array 0) (.number x) (.array 0)
      (sharedArray.noted (insertion x)) = .ok () { sharedArray.noted (insertion x) with
        heap := sharedArray.heap.write 0 1 (.array 0) } := by
    rw [Run.assignItem_apply, second]
    rfl
  have ran : (insertion x).exec 0 sharedArray = .ok .normal { sharedArray.noted (insertion x) with
        heap := sharedArray.heap.write 0 1 (.array 0) } := by
    rw [insertion, Stmt.exec]
    show (Run.assignItem ⟨1, 2⟩ (.array 0) (.number x) (.array 0) >>= fun _ => pure Signal.normal)
      (sharedArray.noted (insertion x)) = _
    rw [Run.bind_ok stored]
    rfl
  refine ⟨_, ran, ?_⟩
  rw [insertion] at ran
  dsimp only at once
  rw [ran] at once
  obtain ⟨-, v, ref, index, n, m₁, m₂, between, comes, found, indexed, placed, -, -, reads⟩ := once
  cases (comes : EStateM.Result.ok (Value.array 0) _ = .ok v m₁)
  cases (found : EStateM.Result.ok (Value.array 0) _ = .ok (.array ref) m₂)
  cases (indexed : EStateM.Result.ok (Value.number x) _ = .ok index between)
  cases second.symm.trans placed
  exact reads ⟨2, 2⟩ (.name ⟨2, 1⟩ "b") (.literal ⟨2, 3⟩ (.number x)) (.number x) _ _ rfl rfl second

end Script
