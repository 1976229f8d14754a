import Script.Text.Blank
import Script.Text.Lines

/-!
Expected output. A program names the lines it should print in comments; each has to begin a line of
the output, in the order of the comments.
-/

namespace Script.Expectation

def mark : List Char := "// expect:".toList

def ofLine? (line : List Char) : Option (List Char) :=
  let line := Text.trim line
  if mark.isPrefixOf line then some (Text.trim (line.drop mark.length)) else none

def ofSource (source : String) : List String :=
  ((Text.newlineLines (Text.universal source.toList)).filterMap ofLine?).map String.ofList

def after? (text : List Char) : List (List Char) → Option (List (List Char))
  | [] => none
  | line :: rest => if text.isPrefixOf line then some rest else after? text rest

/-- The first expected text that no line is left for. Each text takes the first line it can. -/
def firstMissing? (lines : List (List Char)) : List String → Option String
  | [] => none
  | text :: rest =>
    match after? text.toList lines with
    | some lines => firstMissing? lines rest
    | none => some text

def missing? (expected : List String) (output : String) : Option String :=
  firstMissing? (Text.splitLines output.toList) expected

def missingMessage (text output : String) : String :=
  "missing expected snippet:\n" ++ text ++ "\nactual:\n" ++ output

structure Verdict where
  ok : Bool
  message : String
  deriving DecidableEq, Repr

def check (expected : List String) (output : String) : Verdict :=
  match missing? expected output with
  | none => ⟨true, ""⟩
  | some text => ⟨false, missingMessage text output⟩

end Script.Expectation
