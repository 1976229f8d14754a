/-!
A text cut in two. Every step of reading tokens is a cut, so no character is lost or made up.
-/

namespace Script

structure Cut (cs : List Char) where
  taken : List Char
  rest : List Char
  joined : taken ++ rest = cs

namespace Cut

variable {cs : List Char}

def none (cs : List Char) : Cut cs := ⟨[], cs, rfl⟩

def cons (c : Char) (cut : Cut cs) : Cut (c :: cs) :=
  ⟨c :: cut.taken, cut.rest, by simp [cut.joined]⟩

def append (cut : Cut cs) (more : Cut cut.rest) : Cut cs :=
  ⟨cut.taken ++ more.taken, more.rest, by rw [List.append_assoc, more.joined, cut.joined]⟩

def takeWhile (p : Char → Bool) (cs : List Char) : Cut cs :=
  ⟨cs.takeWhile p, cs.dropWhile p, List.takeWhile_append_dropWhile⟩

def ofPrefix (start cs : List Char) (h : start.isPrefixOf cs) : Cut cs :=
  ⟨start, cs.drop start.length, (List.prefix_iff_eq_append.mp (List.isPrefixOf_iff_prefix.mp h))⟩

theorem length_add (cut : Cut cs) : cut.taken.length + cut.rest.length = cs.length := by
  rw [← List.length_append, cut.joined]

theorem rest_le (cut : Cut cs) : cut.rest.length ≤ cs.length := by
  have := cut.length_add
  omega

theorem rest_lt (cut : Cut cs) (h : cut.taken ≠ []) : cut.rest.length < cs.length := by
  have := cut.length_add
  have := List.length_pos_iff.mpr h
  omega

end Cut

end Script
