import Script.Session

/-!
What the single steps of a run come to.
-/

namespace Script

def Machine.entered (m : Machine) : Machine := { m with scopes := m.scopes.enter }

namespace Run

variable {α β : Type} {m m' : Machine}

/-- The machine after a run, stopped or not. -/
def after : EStateM.Result Stop Machine α → Machine
  | .ok _ m => m
  | .error _ m => m

theorem bind_ok {run : Run α} {a : α} (ran : run m = .ok a m') (next : α → Run β) :
    (run >>= next) m = next a m' := by
  show EStateM.bind run next m = next a m'
  rw [EStateM.bind, ran]

theorem bind_error {run : Run α} {stop : Stop} (ran : run m = .error stop m')
    (next : α → Run β) : (run >>= next) m = .error stop m' := by
  show EStateM.bind run next m = .error stop m'
  rw [EStateM.bind, ran]

theorem read_apply (pos : Pos) (name : String) (m : Machine) :
    read pos name m =
      match m.lookup? name with
      | some v => .ok v m
      | none => .error (.fault (.unbound name) pos) m := by
  rw [read, bind_ok (rfl : (get : Run Machine) m = .ok m m)]
  cases m.lookup? name <;> rfl

theorem declare_apply (pos : Pos) (b : Binding) (m : Machine) :
    declare pos b m =
      match m.scopes.define b with
      | .ok scopes => .ok () { m with scopes }
      | .error cause => .error (.fault cause pos) m := by
  show (ofResult pos (m.scopes.define b) >>= fun scopes => set { m with scopes }) m = _
  cases m.scopes.define b <;> rfl

theorem assignName_apply (pos : Pos) (name : String) (v : Value) (m : Machine) :
    assignName pos name v m =
      if (m.scopes.chain.find? name).isNone && (Library.named? name).isSome then
        .error (.fault (.library name) pos) m
      else
        match m.scopes.assign name v with
        | .ok scopes => .ok () { m with scopes }
        | .error cause => .error (.fault cause pos) m := by
  show (if (m.scopes.chain.find? name).isNone && (Library.named? name).isSome then
      throw (.fault (.library name) pos)
    else ofResult pos (m.scopes.assign name v) >>= fun scopes => set { m with scopes } : Run Unit)
      m = _
  split
  · rfl
  · cases m.scopes.assign name v <;> rfl

theorem assignItem_apply (pos : Pos) (ref : Ref) (index v : Value) (m : Machine) :
    assignItem pos (.array ref) index v m =
      match index.place with
      | .error cause => .error (.fault cause pos) m
      | .ok n =>
        if (m.heap.items ref).size < n then
          .error (.fault (.indexPastEnd n (m.heap.items ref).size) pos) m
        else .ok () { m with heap := m.heap.write ref n v } := by
  show (ofResult pos index.place >>= fun n => get >>= fun m =>
    (if (m.heap.items ref).size < n then
      throw (.fault (.indexPastEnd n (m.heap.items ref).size) pos)
    else modify fun m => { m with heap := m.heap.write ref n v } : Run Unit)) m = _
  cases index.place with
  | error cause => rfl
  | ok n =>
      show (if (m.heap.items ref).size < n then
        throw (.fault (.indexPastEnd n (m.heap.items ref).size) pos)
      else modify fun m => { m with heap := m.heap.write ref n v } : Run Unit) m = _
      split
      · next past => simp only [past, if_true]; rfl
      · next within => simp only [within, if_false]; rfl

theorem poll_apply (pos : Pos) (turns : Nat) (m : Machine) :
    poll pos turns m =
      if m.turns.ask.isOver then .error (.cancelled turns pos) { m with turns := m.turns.ask }
      else .ok () { m with turns := m.turns.ask } := by
  show (if m.turns.ask.isOver then throw (.cancelled turns pos) else pure () : Run Unit)
    { m with turns := m.turns.ask } = _
  split <;> rfl

theorem inScope_apply (run : Run α) (m : Machine) :
    inScope run m =
      match run m.entered with
      | .ok a m => .ok a { m with scopes := m.scopes.leave }
      | .error stop m => .error stop { m with scopes := m.scopes.leave } := rfl

end Run

end Script
