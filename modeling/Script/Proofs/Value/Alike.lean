import Mathlib.Data.List.Forall2
import Script.Evaluation
import Script.Proofs.Value.Legible

/-!
Values on two heaps. If the arrays of one are paired one to one with arrays of the other, item by
item, then nothing that is computed from values tells the heaps apart: texts, operators, members,
items and calls come to the same.
-/

namespace Script

/-- The same value that is no array, or the two arrays of a pair. -/
inductive Value.Alike (pairs : Ref → Ref → Prop) : Value → Value → Prop
  | single {v : Value} (single : v.isArray = false) : Alike pairs v v
  | array {ref ref' : Ref} (pair : pairs ref ref') : Alike pairs (.array ref) (.array ref')

/-- Arrays of two heaps are paired one to one, and have paired items. -/
structure Heap.Paired (pairs : Ref → Ref → Prop) (h h' : Heap) : Prop where
  known : ∀ {ref ref'}, pairs ref ref' → ref < h.size ∧ ref' < h'.size
  single : Relator.BiUnique pairs
  items : ∀ {ref ref'}, pairs ref ref' →
    List.Forall₂ (Value.Alike pairs) (h.items ref).toList (h'.items ref').toList

def Heap.growing (pairs : Ref → Ref → Prop) (h h' : Heap) (ref ref' : Ref) : Prop :=
  pairs ref ref' ∨ ∃ n, ref = h.size + n ∧ ref' = h'.size + n

/-- As `Heap.Paired`, but the arrays that are still to be made are paired already. -/
structure Heap.Alike (pairs : Ref → Ref → Prop) (h h' : Heap) : Prop where
  known : ∀ {ref ref'}, pairs ref ref' → (ref < h.size ↔ ref' < h'.size)
  single : Relator.BiUnique pairs
  items : ∀ {ref ref'}, pairs ref ref' →
    List.Forall₂ (Value.Alike pairs) (h.items ref).toList (h'.items ref').toList
  fresh : ∀ n, pairs (h.size + n) (h'.size + n)

section Lists

variable {α β : Type} {R : α → β → Prop} {xs : List α} {ys : List β}

theorem forall₂_set {a : α} {b : β} (all : List.Forall₂ R xs ys) (rel : R a b) :
    ∀ n : Nat, List.Forall₂ R (xs.set n a) (ys.set n b) := by
  induction all with
  | nil => exact fun _ => .nil
  | cons first others again =>
      intro n
      cases n with
      | zero => exact .cons rel others
      | succ n => exact .cons first (again n)

theorem forall₂_getElem? (all : List.Forall₂ R xs ys) :
    ∀ n : Nat, Option.Rel R xs[n]? ys[n]? := by
  induction all with
  | nil => exact fun _ => .none
  | cons first others again =>
      intro n
      cases n with
      | zero => exact .some first
      | succ n => exact again n

theorem isNone_eq_of_rel {a? : Option α} {b? : Option β} (rel : Option.Rel R a? b?) :
    a?.isNone = b?.isNone := by
  cases rel <;> rfl

theorem map_eq_map_of_forall₂ {γ : Type} {f : α → γ} {g : β → γ}
    (all : List.Forall₂ R xs ys) (same : ∀ {a b}, R a b → f a = g b) : xs.map f = ys.map g := by
  have rows : List.Forall₂ Eq (xs.map f) (ys.map g) := List.rel_map (fun _ _ rel => same rel) all
  rwa [List.forall₂_eq_eq_eq] at rows

end Lists

namespace Heap

variable {pairs : Ref → Ref → Prop} {h h' : Heap} {ref ref' : Ref}

theorem items_of_le (unknown : h.size ≤ ref) : h.items ref = #[] := by
  rw [items, Array.getD_eq_getD_getElem?, Array.getElem?_eq_none unknown]
  rfl

theorem items_write_known (known : ref < h.size) (place : Nat) (v : Value) :
    (h.write ref place v).items ref =
      if place < (h.items ref).size then (h.items ref).setIfInBounds place v
      else (h.items ref).push v := by
  simp only [size] at known
  simp only [items, write, Array.getD_eq_getD_getElem?, Array.getElem?_modify, if_pos,
    Array.getElem?_eq_getElem known, Option.map_some, Option.getD_some]

theorem Paired.growing (paired : Paired pairs h h') : Alike (growing pairs h h') h h' where
  known := by
    rintro ref ref' (pair | ⟨n, rfl, rfl⟩)
    · exact iff_of_true (paired.known pair).1 (paired.known pair).2
    · exact iff_of_false (Nat.not_lt.mpr (Nat.le_add_right _ n))
        (Nat.not_lt.mpr (Nat.le_add_right _ n))
  single := by
    have same {ref ref' other other' : Ref} (pair : Heap.growing pairs h h' ref ref')
        (pair' : Heap.growing pairs h h' other other') : ref = other ↔ ref' = other' := by
      rcases pair with pair | ⟨n, rfl, rfl⟩ <;> rcases pair' with pair' | ⟨n', rfl, rfl⟩
      · exact Relator.rel_eq paired.single pair pair'
      · have known := paired.known pair
        exact iff_of_false (Nat.ne_of_lt (Nat.lt_add_right n' known.1))
          (Nat.ne_of_lt (Nat.lt_add_right n' known.2))
      · have known := paired.known pair'
        exact iff_of_false (Nat.ne_of_gt (Nat.lt_add_right n known.1))
          (Nat.ne_of_gt (Nat.lt_add_right n known.2))
      · exact Nat.add_left_cancel_iff.trans Nat.add_left_cancel_iff.symm
    exact ⟨fun _ _ _ pair pair' => (same pair pair').mpr rfl,
      fun _ _ _ pair pair' => (same pair pair').mp rfl⟩
  items := by
    rintro ref ref' (pair | ⟨n, rfl, rfl⟩)
    · refine (paired.items pair).imp fun a b alike => ?_
      cases alike with
      | single single => exact .single single
      | array pair => exact .array (.inl pair)
    · rw [items_of_le (Nat.le_add_right _ n), items_of_le (Nat.le_add_right _ n)]
      exact .nil
  fresh n := .inr ⟨n, rfl, rfl⟩

namespace Alike

variable (heaps : Alike pairs h h')

include heaps

theorem size_items (pair : pairs ref ref') : (h.items ref).size = (h'.items ref').size := by
  have same := (heaps.items pair).length_eq
  rwa [Array.length_toList, Array.length_toList] at same

theorem alloc {items items' : Array Value}
    (alike : List.Forall₂ (Value.Alike pairs) items.toList items'.toList) :
    Alike pairs (h.alloc items).2 (h'.alloc items').2 where
  known := by
    intro ref ref' pair
    have last : ref = h.size ↔ ref' = h'.size := Relator.rel_eq heaps.single pair (heaps.fresh 0)
    rw [size_alloc, size_alloc, Nat.lt_succ_iff_lt_or_eq, Nat.lt_succ_iff_lt_or_eq]
    exact or_congr (heaps.known pair) last
  single := heaps.single
  items := by
    intro ref ref' pair
    have known := heaps.known pair
    have last : ref = h.size ↔ ref' = h'.size := Relator.rel_eq heaps.single pair (heaps.fresh 0)
    rcases Nat.lt_trichotomy ref h.size with before | rfl | after
    · rw [items_alloc_of_lt before, items_alloc_of_lt (known.mp before)]
      exact heaps.items pair
    · rw [last.mp rfl]
      have self : (h.alloc items).2.items h.size = items := h.items_alloc_self items
      have self' : (h'.alloc items').2.items h'.size = items' := h'.items_alloc_self items'
      rw [self, self']
      exact alike
    · have outside : h'.size ≤ ref' := Nat.not_lt.mp (mt known.mpr (Nat.lt_asymm after))
      have after' : h'.size < ref' :=
        Nat.lt_of_le_of_ne outside (Ne.symm (mt last.mpr (Nat.ne_of_gt after)))
      rw [items_of_le (by rw [size_alloc]; exact after),
        items_of_le (by rw [size_alloc]; exact after')]
      exact .nil
  fresh n := by
    rw [size_alloc, size_alloc, Nat.add_assoc, Nat.add_assoc]
    exact heaps.fresh (1 + n)

theorem write (pair : pairs ref ref') (place : Nat) {v v' : Value} (alike : v.Alike pairs v') :
    Alike pairs (h.write ref place v) (h'.write ref' place v') where
  known := by
    intro other other' pair'
    rw [size_write, size_write]
    exact heaps.known pair'
  single := heaps.single
  items := by
    intro other other' pair'
    have same : other = ref ↔ other' = ref' := Relator.rel_eq heaps.single pair' pair
    by_cases written : other = ref
    · rw [written, same.mp written]
      by_cases known : ref < h.size
      · rw [items_write_known known, items_write_known ((heaps.known pair).mp known),
          heaps.size_items pair]
        split
        · rw [Array.toList_setIfInBounds, Array.toList_setIfInBounds]
          exact forall₂_set (heaps.items pair) alike place
        · rw [Array.toList_push, Array.toList_push]
          exact List.rel_append (heaps.items pair) (.cons alike .nil)
      · have unknown : ¬ ref' < h'.size := fun known' => known ((heaps.known pair).mpr known')
        rw [items_of_le (by rw [size_write]; exact Nat.not_lt.mp known),
          items_of_le (by rw [size_write]; exact Nat.not_lt.mp unknown)]
        exact .nil
    · rw [items_write_of_ne written, items_write_of_ne (mt same.mpr written)]
      exact heaps.items pair'
  fresh n := by
    rw [size_write, size_write]
    exact heaps.fresh n

end Alike

end Heap

section Texts

variable {pairs : Ref → Ref → Prop} {h h' : Heap} {v v' : Value}

namespace Style

/-- By recursion on the arrays that neither path runs through yet. -/
theorem write_alike (style : Style) (heaps : h.Alike pairs h') : ∀ {path path' : List Ref}
    {v v' : Value}, List.Forall₂ pairs path path' → v.Alike pairs v' →
      style.write h path v = style.write h' path' v'
  | path, path', _, _, paths, .single single => by rw [write_scalar single, write_scalar single]
  | path, path', _, _, paths, @Value.Alike.array _ ref ref' pair => by
      have cut : ref ∈ path ↔ ref' ∈ path' := List.rel_mem heaps.single pair paths
      have known := heaps.known pair
      by_cases visited : ref ∈ path
      · rw [write, write, if_pos visited, if_pos (cut.mp visited)]
      · by_cases inside : ref < h.size
        · rw [write_array visited inside, write_array (mt cut.mpr visited) (known.mp inside)]
          congr 1
          exact map_eq_map_of_forall₂ (heaps.items pair) fun item =>
            write_alike style heaps (.cons pair paths) item
        · rw [write, write, if_neg visited, if_neg inside, if_neg (mt cut.mpr visited),
            if_neg (mt known.mpr inside)]
termination_by path => (h.unvisited path).length
decreasing_by exact Heap.unvisited_lt inside visited

end Style

namespace Value

theorem display_alike (heaps : h.Alike pairs h') (alike : v.Alike pairs v') :
    v.display h = v'.display h' := by
  cases alike with
  | single single => rw [display, display, single]; rfl
  | array pair => exact displayStyle.write_alike heaps .nil (.array pair)

theorem inspect_alike (heaps : h.Alike pairs h') (alike : v.Alike pairs v') :
    v.inspect h = v'.inspect h' := by
  cases alike with
  | single single => rw [inspect, inspect, single]; rfl
  | array pair => exact inspectStyle.write_alike heaps .nil (.array pair)

end Value

end Texts

namespace Value

variable {pairs : Ref → Ref → Prop} {h h' : Heap} {v v' left left' right right' : Value}

theorem Alike.type_eq (alike : v.Alike pairs v') : v.type = v'.type := by
  cases alike <;> rfl

theorem Alike.isTruthy_eq (alike : v.Alike pairs v') : v.isTruthy = v'.isTruthy := by
  cases alike <;> rfl

theorem Alike.place_eq (alike : v.Alike pairs v') : v.place = v'.place := by
  cases alike <;> rfl

theorem Alike.undefined_iff (alike : v.Alike pairs v') : v = .undefined ↔ v' = .undefined := by
  cases alike with
  | single => rfl
  | array pair => exact iff_of_false nofun nofun

theorem toValue_isArray (value : Literal) : value.toValue.isArray = false := by
  cases value <;> rfl

theorem strictEquals_alike (single : Relator.BiUnique pairs) (first : left.Alike pairs left')
    (second : right.Alike pairs right') :
    left.strictEquals right = left'.strictEquals right' := by
  cases first with
  | @single left plain =>
      cases second with
      | single => rfl
      | array pair => cases left <;> first | rfl | cases plain
  | @array ref ref' pair =>
      cases second with
      | @single right plain => cases right <;> first | rfl | cases plain
      | @array other other' pair' =>
          have same : ref = other ↔ ref' = other' := Relator.rel_eq single pair pair'
          simp [strictEquals, same]

theorem looseEquals_alike (single : Relator.BiUnique pairs) (first : left.Alike pairs left')
    (second : right.Alike pairs right') :
    left.looseEquals right = left'.looseEquals right' := by
  cases first with
  | @single left plain =>
      cases second with
      | single => rfl
      | array pair => cases left <;> first | rfl | cases plain
  | @array ref ref' pair =>
      cases second with
      | @single right plain => cases right <;> first | rfl | cases plain
      | @array other other' pair' =>
          have same : ref = other ↔ ref' = other' := Relator.rel_eq single pair pair'
          simp [looseEquals, looseEquals?, isArray, isNullish, isScalar, same]

end Value

inductive Agree {ε α β : Type} (R : α → β → Prop) : Except ε α → Except ε β → Prop
  | ok {a : α} {b : β} (rel : R a b) : Agree R (.ok a) (.ok b)
  | error (e : ε) : Agree R (.error e) (.error e)

theorem Agree.of_single {ε : Type} {pairs : Ref → Ref → Prop} {result : Except ε Value}
    (single : ∀ v, result = .ok v → v.isArray = false) :
    Agree (Value.Alike pairs) result result := by
  cases result with
  | ok v => exact .ok (.single (single v rfl))
  | error e => exact .error e

theorem Agree.map {ε α β γ δ : Type} {R : α → β → Prop} {S : γ → δ → Prop} {f : α → γ} {g : β → δ}
    {result : Except ε α} {result' : Except ε β} (agree : Agree R result result')
    (rel : ∀ {a b}, R a b → S (f a) (g b)) : Agree S (result.map f) (result'.map g) := by
  cases agree with
  | ok first => exact .ok (rel first)
  | error e => exact .error e

section Operations

variable {pairs : Ref → Ref → Prop} {h h' : Heap} {v v' left left' right right' : Value}

namespace BinaryOp

theorem onNumbers_single (op : BinaryOp) (x y : Number) :
    ∀ v, op.onNumbers x y = .ok v → v.isArray = false := by
  intro v comes
  cases op with
  | add | sub | mul | lt | le | gt | ge | eq | ne | strictEq | strictNe => cases comes; rfl
  | div =>
      rw [onNumbers] at comes
      split at comes
      · cases comes
      · cases comes; rfl
  | rem =>
      rw [onNumbers] at comes
      split at comes
      · cases comes
      · split at comes
        · cases comes
        · cases comes; rfl

theorem plus_single (h : Heap) (left right : Value) :
    ∀ v, plus h left right = .ok v → v.isArray = false := by
  intro v comes
  unfold plus at comes
  split at comes
  · cases comes; rfl
  · cases comes; rfl
  · exact onNumbers_single .add _ _ v comes
  · cases comes

theorem arithmetic_single (op : BinaryOp) (left right : Value) :
    ∀ v, op.arithmetic left right = .ok v → v.isArray = false := by
  intro v comes
  unfold arithmetic at comes
  split at comes
  · exact onNumbers_single op _ _ v comes
  · cases comes

theorem comparison_single (op : BinaryOp) (onStrings : String → String → Bool)
    (left right : Value) :
    ∀ v, op.comparison onStrings left right = .ok v → v.isArray = false := by
  intro v comes
  unfold comparison at comes
  split at comes
  · exact onNumbers_single op _ _ v comes
  · cases comes; rfl
  · cases comes

theorem apply_single (h : Heap) (op : BinaryOp) (left right : Value) :
    ∀ v, op.apply h left right = .ok v → v.isArray = false := by
  cases op with
  | add => exact plus_single h left right
  | sub | mul | div | rem => exact arithmetic_single _ left right
  | lt | le | gt | ge => exact comparison_single _ _ left right
  | eq | ne | strictEq | strictNe => rintro _ ⟨⟩; rfl

theorem plus_string (h : Heap) {left : Value} (other : left.type ≠ .string) (s : String) :
    plus h left (.string s) = .ok (.string (left.display h ++ s)) := by
  cases left with
  | string t => exact absurd rfl other
  | number | boolean | undefined | null | array | function | library => rfl

theorem plus_alike (heaps : h.Alike pairs h') (first : left.Alike pairs left')
    (second : right.Alike pairs right') : plus h left right = plus h' left' right' := by
  have shown := Value.display_alike heaps first
  have shown' := Value.display_alike heaps second
  by_cases text : left.type = .string
  · cases left with
    | string s =>
        cases first
        rw [plus, plus, shown']
    | number | boolean | undefined | null | array | function | library => cases text
  · have text' : left'.type ≠ .string := first.type_eq ▸ text
    cases second with
    | @single right single =>
        cases right with
        | string s => rw [plus_string h text, plus_string h' text', shown]
        | array => cases single
        | number | boolean | undefined | null | function | library =>
            cases first with
            | single => cases left <;> rfl
            | array pair => rfl
    | array pair' =>
        cases first with
        | single => cases left <;> first | rfl | exact absurd rfl text
        | array pair => rfl

theorem arithmetic_alike (op : BinaryOp) (first : left.Alike pairs left')
    (second : right.Alike pairs right') :
    op.arithmetic left right = op.arithmetic left' right' := by
  cases first with
  | @single left single =>
      cases second with
      | single => rfl
      | array pair => cases left <;> rfl
  | array pair =>
      cases second with
      | @single right single => rfl
      | array pair' => rfl

theorem comparison_alike (op : BinaryOp) (onStrings : String → String → Bool)
    (first : left.Alike pairs left') (second : right.Alike pairs right') :
    op.comparison onStrings left right = op.comparison onStrings left' right' := by
  cases first with
  | @single left single =>
      cases second with
      | single => rfl
      | array pair => cases left <;> rfl
  | array pair =>
      cases second with
      | @single right single => rfl
      | array pair' => rfl

theorem apply_alike (heaps : h.Alike pairs h') (op : BinaryOp) (first : left.Alike pairs left')
    (second : right.Alike pairs right') :
    Agree (Value.Alike pairs) (op.apply h left right) (op.apply h' left' right') := by
  have same : op.apply h left right = op.apply h' left' right' := by
    cases op with
    | add => exact plus_alike heaps first second
    | sub | mul | div | rem => exact arithmetic_alike _ first second
    | lt | le | gt | ge => exact comparison_alike _ _ first second
    | eq | ne => rw [apply, apply, Value.looseEquals_alike heaps.single first second]
    | strictEq | strictNe => rw [apply, apply, Value.strictEquals_alike heaps.single first second]
  rw [← same]
  exact .of_single (apply_single h op left right)

end BinaryOp

theorem UnaryOp.apply_alike (op : UnaryOp) (alike : v.Alike pairs v') :
    Agree (Value.Alike pairs) (op.apply v) (op.apply v') := by
  have same : op.apply v = op.apply v' := by
    cases alike with
    | single => rfl
    | array pair => cases op <;> rfl
  rw [← same]
  refine .of_single fun result comes => ?_
  cases op with
  | not | typeof => cases comes; rfl
  | neg =>
      cases v with
      | number => cases comes; rfl
      | string | boolean | undefined | null | array | function | library => cases comes

namespace Value

theorem member_single (h : Heap) (object : Value) (name : String) :
    ∀ v, object.member h name = .ok v → v.isArray = false := by
  intro v comes
  unfold member at comes
  split at comes
  · split at comes
    · cases comes; rfl
    · cases comes
  · split at comes
    · cases comes; rfl
    · cases comes
  · split at comes
    · cases comes; rfl
    · cases comes
  · cases comes

theorem member_alike (heaps : h.Alike pairs h') (alike : v.Alike pairs v') (name : String) :
    Agree (Alike pairs) (v.member h name) (v'.member h' name) := by
  have same : v.member h name = v'.member h' name := by
    cases alike with
    | single single => cases v <;> first | rfl | cases single
    | array pair => simp only [member, heaps.size_items pair, type]
  rw [← same]
  exact .of_single (member_single h v name)

theorem item_alike (heaps : h.Alike pairs h') (alike : v.Alike pairs v')
    (position : left.Alike pairs left') :
    Agree (Alike pairs) (v.item h left) (v'.item h' left') := by
  have place := position.place_eq
  cases alike with
  | @single v single =>
      have same : v.item h left = v.item h' left' := by
        cases v with
        | array => cases single
        | string s => rw [item, item, place]
        | number | boolean | undefined | null | function | library => rfl
      rw [← same]
      refine .of_single fun result comes => ?_
      cases v with
      | array => cases single
      | string s =>
          unfold item at comes
          cases placed : left.place with
          | error cause => rw [placed] at comes; cases comes
          | ok n =>
              simp only [placed, bind, Except.bind] at comes
              split at comes
              · cases comes; rfl
              · cases comes
      | number | boolean | undefined | null | function | library => cases comes
  | @array ref ref' pair =>
      rw [item, item, ← place]
      cases left.place with
      | error cause => exact .error cause
      | ok n =>
          have found := forall₂_getElem? (heaps.items pair) n
          rw [Array.getElem?_toList, Array.getElem?_toList] at found
          simp only [bind, Except.bind, heaps.size_items pair]
          generalize (h.items ref)[n]? = item at found
          generalize (h'.items ref')[n]? = item' at found
          cases found with
          | some alike => exact .ok alike
          | none => exact .error _

end Value

namespace Builtin

variable {arguments arguments' : List Value}

theorem numbers_alike (f : Builtin) (wanted : Nat)
    (alike : List.Forall₂ (Value.Alike pairs) arguments arguments') :
    f.numbers wanted arguments = f.numbers wanted arguments' := by
  unfold numbers
  rw [alike.length_eq]
  congr 1
  induction alike with
  | nil => rfl
  | cons first others again =>
      rw [List.mapM_cons, List.mapM_cons, again]
      cases first <;> rfl

theorem call_single (h : Heap) (f : Builtin) (arguments : List Value) :
    ∀ v line?, f.call h arguments = .ok (v, line?) → v.isArray = false := by
  intro v line? comes
  cases f with
  | log => cases comes; rfl
  | sqrt =>
      rw [call] at comes
      cases given : numbers .sqrt 1 arguments with
      | error cause => rw [given] at comes; cases comes
      | ok xs =>
          simp only [given, bind, Except.bind] at comes
          split at comes <;> cases comes <;> rfl
  | pow =>
      rw [call] at comes
      cases given : numbers .pow 2 arguments with
      | error cause => rw [given] at comes; cases comes
      | ok xs =>
          simp only [given, bind, Except.bind] at comes
          split at comes <;> cases comes <;> rfl

theorem call_alike (heaps : h.Alike pairs h') (f : Builtin)
    (alike : List.Forall₂ (Value.Alike pairs) arguments arguments') :
    Agree (fun answer answer' : Value × Option String =>
        answer = answer' ∧ answer.1.isArray = false)
      (f.call h arguments) (f.call h' arguments') := by
  have same : f.call h arguments = f.call h' arguments' := by
    cases f with
    | log =>
        have shown : arguments.map (·.inspect h) = arguments'.map (·.inspect h') :=
          map_eq_map_of_forall₂ alike (Value.inspect_alike heaps)
        rw [call, call, shown]
    | sqrt => rw [call, call, numbers_alike .sqrt 1 alike]
    | pow => rw [call, call, numbers_alike .pow 2 alike]
  rw [← same]
  cases result : f.call h arguments with
  | error cause => exact .error cause
  | ok answer => exact .ok ⟨rfl, call_single h f arguments answer.1 answer.2 result⟩

end Builtin

end Operations

end Script
