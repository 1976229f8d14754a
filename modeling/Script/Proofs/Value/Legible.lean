import Script.Proofs.Number.Display
import Script.Value.Render

/-!
Values that can be read back from the text they are shown as: scalars that have literals, and arrays
of them that do not stand inside themselves. Such a value is built up from below, and where it is
shown none of its arrays is cut.
-/

namespace Script

namespace Value

variable {h : Heap} {v : Value} {ref : Ref}

/-- The scalars that are written as a literal, or as one behind a minus sign. -/
def HasLiteral : Value → Prop
  | .boolean _ | .undefined | .null => True
  | .number x => x.Plain
  | .string s => ∀ c ∈ s.toList, Text.Shown c
  | .array _ | .function _ | .library _ => False

theorem HasLiteral.single (literal : v.HasLiteral) : v.isArray = false := by
  cases v with
  | array => exact literal.elim
  | number | string | boolean | undefined | null | function | library => rfl

/-- Values that are built up from below out of scalars that have literals. -/
inductive Grounded (h : Heap) : Value → Prop
  | scalar {v : Value} (literal : v.HasLiteral) : Grounded h v
  | array {ref : Ref} (known : ref < h.size)
      (items : ∀ v ∈ (h.items ref).toList, Grounded h v) : Grounded h (.array ref)

/-- Values that look the same, each in its own heap: the same scalars, or arrays of as many items
that look the same one by one. -/
inductive Same (h h' : Heap) : Value → Value → Prop
  | scalar {v : Value} (single : v.isArray = false) : Same h h' v v
  | array {ref ref' : Ref} (known : ref < h.size) (known' : ref' < h'.size)
      (length : (h.items ref).size = (h'.items ref').size)
      (items : ∀ pair ∈ (h.items ref).toList.zip (h'.items ref').toList, Same h h' pair.1 pair.2) :
      Same h h' (.array ref) (.array ref')

/-- The value stands inside the array, at some depth. -/
inductive Inside (h : Heap) : Value → Ref → Prop
  | item {v : Value} {ref : Ref} (member : v ∈ (h.items ref).toList) : Inside h v ref
  | deeper {v : Value} {between ref : Ref} (member : v ∈ (h.items between).toList)
      (inside : Inside h (.array between) ref) : Inside h v ref

theorem Inside.outermost (inside : Inside h v ref) : v ∈ (h.items ref).toList ∨
    ∃ between, .array between ∈ (h.items ref).toList ∧ Inside h v between := by
  induction inside with
  | item member => exact .inl member
  | @deeper v between ref member _ again =>
      rcases again with outer | ⟨outer, first, inner⟩
      · exact .inr ⟨between, outer, .item member⟩
      · exact .inr ⟨outer, first, .deeper member inner⟩

theorem Inside.outwards {between : Ref} (inside : Inside h v between)
    (member : .array between ∈ (h.items ref).toList) : Inside h v ref := by
  induction inside with
  | item inner => exact .deeper inner (.item member)
  | deeper inner _ again => exact .deeper inner (again member)

theorem Grounded.not_inside (grounded : v.Grounded h) : v = .array ref → ¬ Inside h v ref := by
  induction grounded generalizing ref with
  | scalar literal =>
      rintro rfl
      cases literal.single
  | @array own known items again =>
      rintro ⟨⟩ inside
      rcases inside.outermost with first | ⟨between, first, inner⟩
      · exact again _ first rfl inside
      · exact again _ first rfl (.deeper first inner)

theorem Grounded.of_inside (grounded : Grounded h (.array ref)) (inside : Inside h v ref) :
    v.Grounded h := by
  have items {own : Ref} (grounded : Grounded h (.array own)) :
      ∀ v ∈ (h.items own).toList, v.Grounded h := by
    cases grounded with
    | scalar literal => exact literal.elim
    | array _ items => exact items
  induction inside with
  | item member => exact items grounded _ member
  | deeper member _ again => exact items (again grounded) _ member

def Part (h : Heap) (u v : Value) : Prop := u = v ∨ ∃ ref, v = .array ref ∧ Inside h u ref

/-- Each part is a scalar that has a literal, or an array that does not stand inside itself. -/
def Legible (h : Heap) (v : Value) : Prop :=
  ∀ u, Part h u v → u.HasLiteral ∨ ∃ ref, u = .array ref ∧ ref < h.size ∧ ¬ Inside h u ref

theorem Legible.grounded_of_path {v : Value} (legible : v.Legible h) (path : List Ref)
    (above : ∀ outer ∈ path, Inside h v outer) : Grounded h v := by
  rcases legible v (.inl rfl) with literal | ⟨ref, rfl, known, apart⟩
  · exact .scalar literal
  · have fresh : ref ∉ path := fun cycle => apart (above ref cycle)
    refine .array known fun item member => ?_
    have inner : item.Legible h := by
      intro u part
      refine legible u (.inr ⟨ref, rfl, ?_⟩)
      rcases part with rfl | ⟨between, rfl, inside⟩
      · exact .item member
      · exact inside.outwards member
    refine inner.grounded_of_path (ref :: path) fun outer within => ?_
    rcases List.mem_cons.mp within with rfl | later
    · exact .item member
    · exact .deeper member (above outer later)
termination_by (h.unvisited path).length
decreasing_by exact Heap.unvisited_lt known fresh

theorem legible_iff_grounded : v.Legible h ↔ Grounded h v := by
  constructor
  · exact fun legible => legible.grounded_of_path [] nofun
  · rintro grounded u part
    have inner : Grounded h u := by
      rcases part with rfl | ⟨ref, rfl, inside⟩
      · exact grounded
      · exact grounded.of_inside inside
    cases inner with
    | scalar literal => exact .inl literal
    | array known items => exact .inr ⟨_, rfl, known, Grounded.not_inside (.array known items) rfl⟩

end Value

namespace Style

variable {style : Style} {h : Heap} {path : List Ref}

theorem writeAll_eq (vs : List Value) : style.writeAll h path vs = vs.map (style.write h path) := by
  induction vs with
  | nil => rw [writeAll, List.map_nil]
  | cons v rest again => rw [writeAll, again, List.map_cons]

theorem write_scalar {v : Value} (single : v.isArray = false) :
    style.write h path v = style.leaf v := by
  cases v with
  | array => cases single
  | number | string | boolean | undefined | null | function | library =>
      rw [write]
      intro ref same
      cases same

theorem write_array {ref : Ref} (fresh : ref ∉ path) (known : ref < h.size) :
    style.write h path (.array ref) =
      style.around ((h.items ref).toList.map (style.write h (ref :: path))) := by
  rw [write, if_neg fresh, if_pos known, writeAll_eq]

end Style

namespace Value

variable {h : Heap} {v : Value} {ref : Ref}

theorem Grounded.write_eq (style : Style) (grounded : v.Grounded h) : ∀ {path : List Ref},
    (∀ outer ∈ path, Inside h v outer) → style.write h path v = style.write h [] v := by
  induction grounded with
  | scalar literal =>
      intro path _
      rw [Style.write_scalar literal.single, Style.write_scalar literal.single]
  | @array ref known items again =>
      intro path above
      have fresh : ref ∉ path := fun cycle =>
        not_inside (.array known items) rfl (above ref cycle)
      rw [Style.write_array fresh known, Style.write_array List.not_mem_nil known]
      congr 1
      apply List.map_congr_left
      intro v member
      have alone : ∀ outer ∈ [ref], Inside h v outer := by
        intro outer first
        rw [List.mem_singleton.mp first]
        exact .item member
      rw [again v member alone, again v member]
      intro outer within
      rcases List.mem_cons.mp within with rfl | later
      · exact .item member
      · exact .deeper member (above outer later)

theorem Grounded.inspectItem_array (grounded : Grounded h (.array ref)) :
    inspectItem h (.array ref) =
      inspectStyle.around ((h.items ref).toList.map (inspectItem h)) := by
  cases grounded with
  | scalar literal => exact literal.elim
  | array known items =>
      unfold inspectItem
      rw [Style.write_array List.not_mem_nil known]
      congr 1
      apply List.map_congr_left
      intro v member
      apply (items v member).write_eq
      intro outer first
      rw [List.mem_singleton.mp first]
      exact .item member

end Value

end Script
