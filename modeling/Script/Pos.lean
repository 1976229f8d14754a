/-!
Places in a source text, counted from one. A newline ends a line.
-/

namespace Script

structure Pos where
  line : Nat
  column : Nat
  deriving DecidableEq, Repr

namespace Pos

def start : Pos := ⟨1, 1⟩

def next (p : Pos) (c : Char) : Pos :=
  if c = '\n' then ⟨p.line + 1, 1⟩ else ⟨p.line, p.column + 1⟩

def after (p : Pos) (cs : List Char) : Pos := cs.foldl next p

theorem after_append (p : Pos) (cs more : List Char) :
    p.after (cs ++ more) = (p.after cs).after more := by
  simp [after]

end Pos

end Script
