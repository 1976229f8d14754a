import Script.Proofs.Run.Invariant

/-!
What evaluating an expression does to a machine. It prints lines and makes arrays; everything else
is as it was, however the evaluation ends, and without a call it prints nothing.
-/

namespace Script

namespace Expr

mutual

def calls : Expr → Bool
  | .literal .. | .name .. => false
  | .array _ items => anyCalls items
  | .binary _ _ left right | .logical _ _ left right => left.calls || right.calls
  | .unary _ _ operand => operand.calls
  | .member _ object _ _ => object.calls
  | .index _ object position => object.calls || position.calls
  | .call .. => true

def anyCalls : List Expr → Bool
  | [] => false
  | e :: rest => e.calls || anyCalls rest

end

theorem anyCalls_of_mem {e : Expr} (calls : e.calls) : ∀ {es : List Expr}, e ∈ es → anyCalls es
  | first :: rest, inside => by
      rw [anyCalls, Bool.or_eq_true]
      rcases List.mem_cons.mp inside with rfl | later
      · exact .inl calls
      · exact .inr (anyCalls_of_mem calls later)

theorem calls_of_operand {e inner : Expr} (inside : inner ∈ e.operands) (calls : inner.calls) :
    e.calls := by
  cases e with
  | literal | name => cases inside
  | array pos items => exact anyCalls_of_mem calls inside
  | binary | logical | index =>
      simp only [operands, List.mem_cons, List.not_mem_nil, or_false] at inside
      rw [Expr.calls, Bool.or_eq_true]
      rcases inside with rfl | rfl
      · exact .inl calls
      · exact .inr calls
  | unary | member =>
      rw [Expr.calls]
      exact List.mem_singleton.mp inside ▸ calls
  | call => rfl

end Expr

namespace Machine

def extended (m : Machine) (lines : Array String) (fresh : Array (Array Value)) : Machine :=
  { m with output := m.output ++ lines, heap := ⟨m.heap.arrays ++ fresh⟩ }

variable (m : Machine) (lines : Array String) (fresh : Array (Array Value))

theorem extended_empty : m.extended #[] #[] = m := by
  simp [extended]

theorem print_extended (line : String) :
    { m.extended lines fresh with output := (m.extended lines fresh).output.push line } =
      m.extended (lines.push line) fresh := by
  simp [extended]

theorem alloc_extended (items : Array Value) :
    { m.extended lines fresh with heap := ((m.extended lines fresh).heap.alloc items).2 } =
      m.extended lines (fresh.push items) := by
  simp [extended, Heap.alloc]

theorem items_extended {ref : Ref} (known : ref < m.heap.size) :
    (m.extended lines fresh).heap.items ref = m.heap.items ref := by
  have inside : ref < m.heap.arrays.size := known
  simp [extended, Heap.items, Array.getElem?_append_left inside]

end Machine

/-- From `m` on, lines were printed and arrays made, but no lines where it was `quiet`. -/
def Machine.Extends (quiet : Prop) (m m' : Machine) : Prop :=
  ∃ lines fresh, m' = m.extended lines fresh ∧ (quiet → lines = #[])

theorem evalSteps_extends (quiet : Prop) (m : Machine) :
    EvalSteps (m.Extends quiet) (fun _ => m.Extends quiet) (fun e => quiet → e.calls = false) where
  operand := by
    intro e inner free _ inside still
    apply Bool.eq_false_iff.mpr
    intro calls
    have called := Expr.calls_of_operand inside calls
    exact Bool.false_ne_true ((free still).symm.trans called)
  print := by
    rintro pos callee arguments _ line free ⟨lines, fresh, rfl, silent⟩
    refine ⟨lines.push line, fresh, m.print_extended lines fresh line, fun still => ?_⟩
    cases free still
  alloc := by
    rintro _ items ⟨lines, fresh, rfl, silent⟩
    exact ⟨lines, fresh.push items, m.alloc_extended lines fresh items, silent⟩
  fault := fun _ _ _ kept => kept
  domain := fun _ _ _ _ _ _ kept => kept

/-- However an evaluation ends, it has printed lines and made arrays and nothing else: scopes, last
value, turns and the arrays there were are the same. Without a call it has printed nothing. -/
theorem eval_extends (e : Expr) (m : Machine) :
    ∃ lines fresh, Run.after (e.eval m) = m.extended lines fresh ∧
      (e.calls = false → lines = #[]) ∧
      ∀ ref < m.heap.size, (Run.after (e.eval m)).heap.items ref = m.heap.items ref := by
  have start : m.Extends (e.calls = false) m := ⟨#[], #[], m.extended_empty.symm, fun _ => rfl⟩
  have ends := e.eval_meets (evalSteps_extends _ m) id start
  have after : m.Extends (e.calls = false) (Run.after (e.eval m)) := by
    cases ran : e.eval m with
    | ok v m' =>
        rw [ran] at ends
        exact ends
    | error stop m' =>
        rw [ran] at ends
        exact ends
  obtain ⟨lines, fresh, same, silent⟩ := after
  refine ⟨lines, fresh, same, silent, fun ref known => ?_⟩
  rw [same, m.items_extended lines fresh known]

/-- `[[null], missing]` -/
def failingArray : Expr :=
  .array ⟨1, 1⟩ [.array ⟨1, 2⟩ [.literal ⟨1, 3⟩ .null], .name ⟨1, 10⟩ "missing"]

def oneArray : Machine := { Machine.start with heap := ⟨#[#[.undefined]]⟩ }

theorem eval_extends_failingArray :
    failingArray.calls = false ∧
      (∃ m, failingArray.eval oneArray = .error (.fault (.unbound "missing") ⟨1, 10⟩) m) ∧
      ∃ fresh, Run.after (failingArray.eval oneArray) = oneArray.extended #[] fresh ∧
        (Run.after (failingArray.eval oneArray)).heap.items 0 = #[.undefined] := by
  obtain ⟨lines, fresh, same, silent, kept⟩ := eval_extends failingArray oneArray
  have none : lines = #[] := silent rfl
  exact ⟨rfl, ⟨_, rfl⟩, fresh, none ▸ same, kept 0 (by decide)⟩

end Script
