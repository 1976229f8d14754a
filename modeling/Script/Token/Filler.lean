import Script.Token.Cut

/-!
Fillers: what may stand between tokens. A comment that is never closed is no filler; the text stops
before it.
-/

namespace Script

def isSpace (c : Char) : Bool := c = ' ' ∨ c = '\t' ∨ c = '\r' ∨ c = '\n'

def closeComment : (cs : List Char) → Option (Cut cs)
  | [] => none
  | '*' :: '/' :: rest => some ⟨['*', '/'], rest, rfl⟩
  | c :: rest => (closeComment rest).map (·.cons c)

def lineComment (cs : List Char) : Cut cs := .takeWhile (· ≠ '\n') cs

def filler : (cs : List Char) → Cut cs
  | [] => .none []
  | '/' :: '/' :: rest =>
    (((lineComment rest).append (filler (lineComment rest).rest)).cons '/').cons '/'
  | '/' :: '*' :: rest =>
    match closeComment rest with
    | some comment => ((comment.append (filler comment.rest)).cons '*').cons '/'
    | none => .none _
  | c :: rest => if isSpace c then (filler rest).cons c else .none _
termination_by cs => cs.length
decreasing_by
  · have := (lineComment rest).rest_le
    simp only [List.length_cons]
    omega
  · have := comment.rest_le
    simp only [List.length_cons]
    omega
  · simp

end Script
