import Script.Value.Basic

/-!
The heap of arrays. References count up from zero, arrays never go away and never shrink.
-/

namespace Script

structure Heap where
  arrays : Array (Array Value)
  deriving DecidableEq

namespace Heap

def empty : Heap := ⟨#[]⟩

def size (h : Heap) : Nat := h.arrays.size

def items (h : Heap) (ref : Ref) : Array Value := h.arrays.getD ref #[]

def alloc (h : Heap) (items : Array Value) : Ref × Heap := (h.size, ⟨h.arrays.push items⟩)

/-- Writes the item at `place`, or adds it if `place` is just past the end. -/
def write (h : Heap) (ref : Ref) (place : Nat) (v : Value) : Heap :=
  ⟨h.arrays.modify ref fun items =>
    if place < items.size then items.setIfInBounds place v else items.push v⟩

theorem size_alloc (h : Heap) (items : Array Value) : (h.alloc items).2.size = h.size + 1 := by
  simp [alloc, size]

theorem items_alloc_self (h : Heap) (items : Array Value) :
    (h.alloc items).2.items (h.alloc items).1 = items := by
  simp [alloc, Heap.items, size]

theorem items_alloc_of_lt {h : Heap} {ref : Ref} (known : ref < h.size) (items : Array Value) :
    (h.alloc items).2.items ref = h.items ref := by
  simp only [size] at known
  simp [alloc, Heap.items, Array.getElem?_push, Nat.ne_of_lt known]

theorem size_write (h : Heap) (ref : Ref) (place : Nat) (v : Value) :
    (h.write ref place v).size = h.size := by
  simp [write, size]

theorem items_write_of_ne {h : Heap} {ref other : Ref} (different : other ≠ ref) (place : Nat)
    (v : Value) : (h.write ref place v).items other = h.items other := by
  simp [write, items, Array.getElem?_modify, different.symm]

def unvisited (h : Heap) (path : List Ref) : List Ref :=
  (List.range h.size).filter (· ∉ path)

theorem unvisited_lt {h : Heap} {path : List Ref} {ref : Ref} (known : ref < h.size)
    (fresh : ref ∉ path) : (h.unvisited (ref :: path)).length < (h.unvisited path).length := by
  have split : h.unvisited (ref :: path) = (h.unvisited path).filter (· ≠ ref) := by
    simp [unvisited, List.filter_filter]
  rw [split, List.length_filter_lt_length_iff_exists]
  exact ⟨ref, by simp [unvisited, known, fresh], by simp⟩

end Heap

end Script
