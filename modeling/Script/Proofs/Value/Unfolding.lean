import Mathlib.Data.Finset.Basic
import Mathlib.Data.List.Nodup
import Script.Proofs.Value.Alike
import Script.Proofs.Value.Legible

/-!
Values as trees. Followed down through its items a value is a tree, without end if one of its arrays
stands inside itself. The text of a value is that of this tree, cut wherever an array comes up again
on the way down to it. Nothing else is cut, and a value is not cut at all if no array of it stands
inside itself.
-/

namespace Script

/-- A value with its arrays opened, but for those that are cut. -/
inductive Unfolding
  | leaf (v : Value)
  | cut
  | array (items : List Unfolding)

/-- What stands at one place of an unfolding. -/
inductive Node
  | leaf (v : Value)
  | cut
  | array (size : Nat)
  deriving DecidableEq

namespace Unfolding

def node : Unfolding → Node
  | .leaf v => .leaf v
  | .cut => .cut
  | .array items => .array items.length

/-- What is under an address: the places to take one after another, from the root down. -/
def under? (t : Unfolding) : List Nat → Option Unfolding
  | [] => some t
  | n :: address =>
    match t with
    | .array items => items[n]?.bind fun item => item.under? address
    | _ => none

mutual

def write (style : Style) : Unfolding → String
  | .leaf v => style.leaf v
  | .cut => style.cut
  | .array items => style.around (writeAll style items)

def writeAll (style : Style) : List Unfolding → List String
  | [] => []
  | t :: rest => t.write style :: writeAll style rest

end

def display : Unfolding → String
  | .leaf v => v.displayLeaf
  | t => t.write Value.displayStyle

def inspect : Unfolding → String
  | .leaf v => v.inspectLeaf
  | t => t.write Value.inspectStyle

end Unfolding

namespace Value

/-- At the address under `v` there is `u`, and the way there runs through the arrays of `path`,
outermost first. -/
inductive Way (h : Heap) : Value → List Nat → List Ref → Value → Prop
  | here {v : Value} : Way h v [] [] v
  | down {v u : Value} {ref : Ref} {n : Nat} {address : List Nat} {path : List Ref}
      (item : (h.items ref)[n]? = some v) (way : Way h v address path u) :
      Way h (.array ref) (n :: address) (ref :: path) u

def node (h : Heap) (path : List Ref) : Value → Node
  | .array ref => if ref ∈ path then .cut else .array (h.items ref).size
  | v => .leaf v

/-- The tree has all that is under the value, but for what is behind an array that is cut since it
is also above itself. -/
def Unfolds (h : Heap) (v : Value) (t : Unfolding) : Prop :=
  ∀ address node, (t.under? address).map Unfolding.node = some node ↔
    ∃ path u, Way h v address path u ∧ path.Nodup ∧ node = u.node h path

def Acyclic (h : Heap) (v : Value) : Prop :=
  ∀ ref, Part h (.array ref) v → ¬ Inside h (.array ref) ref

mutual

def unfold (h : Heap) (path : List Ref) (v : Value) : Unfolding :=
  match v with
  | .array ref =>
    if ref ∈ path then .cut
    else if ref < h.size then .array (unfoldAll h (ref :: path) (h.items ref).toList)
    else .array []
  | v => .leaf v
termination_by ((h.unvisited path).length, 0)
decreasing_by
  exact .left _ _ (Heap.unvisited_lt (by assumption) (by assumption))

def unfoldAll (h : Heap) (path : List Ref) (vs : List Value) : List Unfolding :=
  match vs with
  | [] => []
  | v :: rest => v.unfold h path :: unfoldAll h path rest
termination_by ((h.unvisited path).length, vs.length + 1)
decreasing_by
  · exact .right _ (by simp)
  · exact .right _ (by simp)

end

end Value

namespace Style

/-- The structural rendering, which knows of no path. -/
inductive Plain (style : Style) (h : Heap) : Value → String → Prop
  | leaf {v : Value} (single : v.isArray = false) : Plain style h v (style.leaf v)
  | array {ref : Ref} (text : Value → String)
      (items : ∀ v ∈ (h.items ref).toList, Plain style h v (text v)) :
      Plain style h (.array ref) (style.around ((h.items ref).toList.map text))

mutual

/-- Writing with one set of arrays that are being written, put in before the items and taken out
after them: the set before, the value, its text and the set after. -/
inductive Writes (style : Style) (h : Heap) : Finset Ref → Value → String → Finset Ref → Prop
  | leaf {seen : Finset Ref} {v : Value} (single : v.isArray = false) :
      Writes style h seen v (style.leaf v) seen
  | empty {seen : Finset Ref} {ref : Ref} (empty : h.items ref = #[]) :
      Writes style h seen (.array ref) (style.around []) seen
  | cut {seen : Finset Ref} {ref : Ref} (holds : h.items ref ≠ #[]) (again : ref ∈ seen) :
      Writes style h seen (.array ref) style.cut seen
  | array {seen seen' : Finset Ref} {ref : Ref} {texts : List String} (holds : h.items ref ≠ #[])
      (fresh : ref ∉ seen)
      (items : WritesAll style h (insert ref seen) (h.items ref).toList texts seen') :
      Writes style h seen (.array ref) (style.around texts) (seen'.erase ref)

inductive WritesAll (style : Style) (h : Heap) :
    Finset Ref → List Value → List String → Finset Ref → Prop
  | nil {seen : Finset Ref} : WritesAll style h seen [] [] seen
  | cons {before between after : Finset Ref} {v : Value} {vs : List Value} {text : String}
      {texts : List String} (first : Writes style h before v text between)
      (rest : WritesAll style h between vs texts after) :
      WritesAll style h before (v :: vs) (text :: texts) after

end

end Style

namespace Unfolding

theorem writeAll_eq (style : Style) (ts : List Unfolding) :
    writeAll style ts = ts.map (write style) := by
  induction ts with
  | nil => rw [writeAll, List.map_nil]
  | cons t rest again => rw [writeAll, again, List.map_cons]

theorem eq_of_node : ∀ {t t' : Unfolding},
    (∀ address, (t.under? address).map node = (t'.under? address).map node) → t = t'
  | t, t', same => by
      have root : t.node = t'.node := Option.some.inj (same [])
      cases t with
      | leaf v => cases t' <;> cases root; rfl
      | cut => cases t' <;> cases root; rfl
      | array ts =>
          cases t' with
          | leaf v => cases root
          | cut => cases root
          | array ts' =>
              have length : ts.length = ts'.length := Node.array.inj root
              congr 1
              refine List.ext_getElem length fun n inside inside' => ?_
              refine eq_of_node fun address => ?_
              have below := same (n :: address)
              rw [under?, under?] at below
              rw [List.getElem?_eq_getElem inside, List.getElem?_eq_getElem inside'] at below
              exact below
termination_by t => sizeOf t
decreasing_by
  subst_vars
  rw [Unfolding.array.sizeOf_spec]
  exact Nat.lt_add_left 1 (List.sizeOf_lt_of_mem (List.getElem_mem inside))

end Unfolding

namespace Value

variable {h : Heap} {v u : Value} {address : List Nat} {path : List Ref} {ref : Ref}

theorem unfoldAll_eq (vs : List Value) : unfoldAll h path vs = vs.map (unfold h path) := by
  induction vs with
  | nil => rw [unfoldAll, List.map_nil]
  | cons v rest again => rw [unfoldAll, again, List.map_cons]

theorem unfold_scalar (single : v.isArray = false) : v.unfold h path = .leaf v := by
  cases v with
  | array => cases single
  | number | string | boolean | undefined | null | function | library =>
      rw [unfold]
      intro ref same
      cases same

theorem unfold_cut (again : ref ∈ path) : unfold h path (.array ref) = .cut := by
  rw [unfold, if_pos again]

theorem unfold_array (fresh : ref ∉ path) : unfold h path (.array ref) =
    .array ((h.items ref).toList.map (unfold h (ref :: path))) := by
  rw [unfold, if_neg fresh]
  by_cases known : ref < h.size
  · rw [if_pos known, unfoldAll_eq]
  · rw [if_neg known, Heap.items_of_le (Nat.le_of_not_lt known)]
    rfl

theorem Unfolds.eq {t t' : Unfolding} (unfolds : v.Unfolds h t) (unfolds' : v.Unfolds h t') :
    t = t' := by
  refine Unfolding.eq_of_node fun address => Option.ext fun node => ?_
  rw [unfolds address node, unfolds' address node]

theorem write_unfold (style : Style) (h : Heap) (v : Value) (path : List Ref) :
    (v.unfold h path).write style = style.write h path v := by
  cases v with
  | number | string | boolean | undefined | null | function | library =>
      rw [unfold_scalar rfl, Style.write_scalar rfl, Unfolding.write]
  | array ref =>
      by_cases again : ref ∈ path
      · rw [unfold_cut again, Unfolding.write, Style.write, if_pos again]
      · rw [unfold_array again, Unfolding.write, Unfolding.writeAll_eq, List.map_map]
        by_cases known : ref < h.size
        · rw [Style.write_array again known]
          congr 1
          refine List.map_congr_left fun item _ => ?_
          exact write_unfold style h item (ref :: path)
        · rw [Style.write, if_neg again, if_neg known,
            Heap.items_of_le (Nat.le_of_not_lt known)]
          rfl
termination_by (h.unvisited path).length
decreasing_by exact Heap.unvisited_lt known again

section Parts

theorem Part.of_item (member : v ∈ (h.items ref).toList) (part : Part h u v) :
    Inside h u ref := by
  rcases part with rfl | ⟨between, rfl, inside⟩
  · exact .item member
  · exact inside.outwards member

/-- Where a value stands shows in its unfolding only by its own arrays. -/
theorem unfold_congr (h : Heap) (v : Value) (path path' : List Ref)
    (alike : ∀ ref, Part h (.array ref) v → (ref ∈ path ↔ ref ∈ path')) :
    v.unfold h path = v.unfold h path' := by
  cases v with
  | number | string | boolean | undefined | null | function | library =>
      rw [unfold_scalar rfl, unfold_scalar rfl]
  | array ref =>
      by_cases again : ref ∈ path
      · rw [unfold_cut again, unfold_cut ((alike ref (.inl rfl)).mp again)]
      · have again' : ref ∉ path' := mt (alike ref (.inl rfl)).mpr again
        rw [unfold_array again, unfold_array again']
        congr 1
        refine List.map_congr_left fun item member => ?_
        have known : ref < h.size := by
          by_contra unknown
          rw [Heap.items_of_le (Nat.le_of_not_lt unknown)] at member
          cases member
        refine unfold_congr h item (ref :: path) (ref :: path') fun other part => ?_
        have inside := alike other (.inr ⟨ref, rfl, part.of_item member⟩)
        rw [List.mem_cons, List.mem_cons, inside]
termination_by (h.unvisited path).length
decreasing_by exact Heap.unvisited_lt known again

theorem Way.part (way : Way h v address path u) : Part h u v := by
  induction way with
  | here => exact .inl rfl
  | down item _ again =>
      have member := Array.mem_toList_iff.mpr (Array.mem_of_getElem? item)
      exact .inr ⟨_, rfl, again.of_item member⟩

theorem Way.inside (way : Way h v address path u) : ∀ ref ∈ path, Inside h u ref := by
  induction way with
  | here => exact nofun
  | down item way again =>
      intro ref member
      rcases List.mem_cons.mp member with rfl | later
      · exact way.part.of_item (Array.mem_toList_iff.mpr (Array.mem_of_getElem? item))
      · exact again ref later

theorem Acyclic.plain {v : Value} (acyclic : v.Acyclic h) (style : Style) {path : List Ref}
    (above : ∀ outer ∈ path, Inside h v outer) : style.Plain h v (style.write h [] v) := by
  cases v with
  | number | string | boolean | undefined | null | function | library =>
      rw [Style.write_scalar rfl]
      exact .leaf rfl
  | array ref =>
      have apart := acyclic ref (.inl rfl)
      have fresh : ref ∉ path := fun cycle => apart (above ref cycle)
      rw [← write_unfold, unfold_array List.not_mem_nil, Unfolding.write, Unfolding.writeAll_eq,
        List.map_map]
      have bare : (h.items ref).toList.map (Unfolding.write style ∘ unfold h [ref]) =
          (h.items ref).toList.map (style.write h []) := by
        refine List.map_congr_left fun item member => ?_
        rw [Function.comp_apply, unfold_congr h item [ref] [] fun other part => ?_, write_unfold]
        refine iff_of_false (fun same => ?_) List.not_mem_nil
        rw [List.mem_singleton.mp same] at part
        exact apart (part.of_item member)
      rw [bare]
      refine .array _ fun item member => ?_
      have known : ref < h.size := by
        by_contra unknown
        rw [Heap.items_of_le (Nat.le_of_not_lt unknown)] at member
        cases member
      have inner : item.Acyclic h := fun other part =>
        acyclic other (.inr ⟨ref, rfl, part.of_item member⟩)
      have within : ∀ outer ∈ ref :: path, Inside h item outer := by
        intro outer within
        rcases List.mem_cons.mp within with rfl | later
        · exact .item member
        · exact .deeper member (above outer later)
      exact inner.plain style within
termination_by (h.unvisited path).length
decreasing_by exact Heap.unvisited_lt known fresh

end Parts

end Value

namespace Style

variable {style : Style} {h : Heap} {v : Value}

theorem Plain.eq {text text' : String} (plain : style.Plain h v text)
    (plain' : style.Plain h v text') : text = text' := by
  induction plain generalizing text' with
  | leaf single =>
      cases plain' with
      | leaf => rfl
      | array => cases single
  | array render _ again =>
      cases plain' with
      | leaf single => cases single
      | array render' items =>
          rw [List.map_congr_left fun v member => again v member (items v member)]

section Arrays

variable {seen : Finset Ref} {ref : Ref}

end Arrays

end Style

-- an array that stands in itself, between two more of which one is empty
example : Value.inspect ⟨#[#[.array 1, .array 0, .array 1], #[]]⟩ (.array 0) =
    "[ [], [Circular], [] ]" := by
  cbv

end Script
