import Mathlib.Data.List.Forall2
import Script.Expectation

/-!
What an output has to hold. Each expected text is given the first line it can have; no other choice
of lines, in the order of the texts, does better.
-/

namespace Script.Expectation

variable {lines rest : List (List Char)} {expected more : List String} {text : String}

/-- Lines in their order, one for each text and beginning with it. -/
structure Fits (lines : List (List Char)) (expected : List String) (indices : List Nat) : Prop where
  rising : indices.Pairwise (· < ·)
  begins : List.Forall₂ (fun text i => ∃ line, lines[i]? = some line ∧ text.toList <+: line)
    expected indices

def Fitting (lines : List (List Char)) (expected : List String) : Prop :=
  ∃ indices, Fits lines expected indices

theorem Fitting.initial {part : List String} (fitting : Fitting lines expected)
    (initial : part <+: expected) : Fitting lines part := by
  obtain ⟨indices, rising, begins⟩ := fitting
  refine ⟨indices.take part.length, rising.sublist (List.take_sublist _ _), ?_⟩
  have taken := List.forall₂_take part.length begins
  rwa [← List.prefix_iff_eq_take.mp initial] at taken

end Script.Expectation
