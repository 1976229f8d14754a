import Script.Token.Filler
import Script.Token.Lexeme

/-!
A source text as tokens. Fillers and lexemes alternate until the end of the text, where the token
for the end of input stands, or until a text that is neither.
-/

namespace Script

structure LexError where
  cause : LexCause
  pos : Pos
  deriving DecidableEq, Repr

/-- The tokens of a text, up to the error if there is one. -/
structure Scanned where
  tokens : List Token
  error : Option LexError

namespace Scanned

def cons (t : Token) (s : Scanned) : Scanned := ⟨t :: s.tokens, s.error⟩

def toExcept (s : Scanned) : Except LexError (List Token) :=
  match s.error with
  | some e => .error e
  | none => .ok s.tokens

end Scanned

namespace Token

def scanFrom (pos : Pos) (cs : List Char) : Scanned :=
  let gap := filler cs
  let pos := pos.after gap.taken
  match _h : gap.rest with
  | [] => ⟨[⟨.endOfInput, "", pos⟩], none⟩
  | c :: rest =>
    match Lexeme.read c rest with
    | .error cause => ⟨[], some ⟨cause, pos⟩⟩
    | .ok found =>
      (scanFrom (pos.after found.taken) found.rest).cons
        ⟨found.kind, String.ofList found.taken, pos⟩
termination_by cs.length
decreasing_by
  have shorter := found.rest_lt found.taken_ne_nil
  have within := gap.rest_le
  rw [_h] at within
  omega

def scan (source : String) : Scanned := scanFrom .start source.toList

end Token

end Script
