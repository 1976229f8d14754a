/-!
Lines of a text. `universal` makes every line of a file end in a newline alone; `splitLines` cuts
at any kind of line break, `partsAt` at every occurrence of one character.
-/

namespace Script.Text

/-- A carriage return, with or without a newline after it, becomes a newline. -/
def universal : List Char → List Char
  | [] => []
  | '\r' :: '\n' :: rest => '\n' :: universal rest
  | c :: rest => (if c = '\r' then '\n' else c) :: universal rest

def isLineBreak (c : Char) : Bool :=
  c ∈ ['\n', '\x0b', '\x0c', '\r', '\x1c', '\x1d', '\x1e', '\x85', '\u2028', '\u2029']

def linesFrom (line : List Char) : List Char → List (List Char)
  | [] => if line.isEmpty then [] else [line.reverse]
  | '\r' :: '\n' :: rest => line.reverse :: linesFrom [] rest
  | c :: rest =>
    if isLineBreak c then line.reverse :: linesFrom [] rest else linesFrom (c :: line) rest

/-- The lines without their breaks; a break at the end begins no line. -/
def splitLines (cs : List Char) : List (List Char) := linesFrom [] cs

def newlineLinesFrom (line : List Char) : List Char → List (List Char)
  | [] => if line.isEmpty then [] else [line.reverse]
  | c :: rest =>
    if c = '\n' then line.reverse :: newlineLinesFrom [] rest else newlineLinesFrom (c :: line) rest

def newlineLines (cs : List Char) : List (List Char) := newlineLinesFrom [] cs

def partsAt (mark : Char) : List Char → List (List Char)
  | [] => [[]]
  | c :: rest =>
    if c = mark then [] :: partsAt mark rest else (partsAt mark rest).modifyHead (c :: ·)

end Script.Text
