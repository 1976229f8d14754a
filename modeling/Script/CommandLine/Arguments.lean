import Script.Text.Integer

/-!
The arguments of a call. Options may stand anywhere before `--`, and a long one may be cut short
while it stays the only one that goes on so. Words are sorted first, then taken up in order.
-/

namespace Script

inductive Choice
  | help | repl | verbose | debug | dumpTree | maxTurns
  deriving DecidableEq, Repr

namespace Choice

def spellings : List (String × Choice) :=
  [("-h", .help), ("--help", .help), ("--repl", .repl), ("--verbose", .verbose),
    ("--debug", .debug), ("--dump-ast", .dumpTree), ("--max-iterations", .maxTurns)]

def spelled? (text : String) : Option Choice :=
  (spellings.find? (·.1 = text)).map (·.2)

def goingOn (start : String) : List (String × Choice) :=
  spellings.filter fun (spelling, _) => start.toList.isPrefixOf spelling.toList

end Choice

inductive Usage
  | help | wrong
  deriving DecidableEq, Repr

def Usage.exit : Usage → Nat
  | .help => 0
  | .wrong => 2

inductive Word
  | plain (text : String)
  | dashes
  | short (tail : List Char)
  | long (choice : Choice) (attached : Option String)
  | unknown
  deriving DecidableEq, Repr

namespace Word

/-- What stands before and after the first `=`. -/
def cut (text : String) : String × Option String :=
  match text.toList.span (· ≠ '=') with
  | (_, []) => (text, none)
  | (name, _ :: value) => (String.ofList name, some (String.ofList value))

/-- Whether a `-h` that goes on so asks for help: it may repeat its letter, also after an `=`. -/
def isHelp : List Char → Bool
  | '=' :: tail => !tail.isEmpty && tail.all (· = 'h')
  | tail => tail.all (· = 'h')

/-- Digits, or digits after a point, that a single line break may follow. -/
def isUnsigned (cs : List Char) : Bool :=
  let cs := if cs.getLast? = some '\n' then cs.dropLast else cs
  let isDigit c := (Text.digitValue? c).isSome
  match cs.span isDigit with
  | (whole, []) => !whole.isEmpty
  | (_, '.' :: fraction) => !fraction.isEmpty && fraction.all isDigit
  | _ => false

/-- A word with dashes that is no option: negative numbers and words with spaces are plain. -/
def other (text : String) : Word :=
  if isUnsigned (text.toList.drop 1) || ' ' ∈ text.toList then .plain text else .unknown

def sortLong (text : String) : Except Usage Word :=
  let (name, attached) := cut text
  match Choice.spelled? text with
  | some choice => .ok (.long choice none)
  | none =>
    match Choice.spelled? name with
    | some choice => .ok (.long choice attached)
    | none =>
      match Choice.goingOn name with
      | [] => .ok (other text)
      | [(_, choice)] => .ok (.long choice attached)
      | _ => .error .wrong

def sort (text : String) : Except Usage Word :=
  match text.toList with
  | ['-'] => .ok (.plain text)
  | '-' :: 'h' :: tail => .ok (.short tail)
  | '-' :: '-' :: _ => sortLong text
  | '-' :: _ => .ok (other text)
  | _ => .ok (.plain text)

def sortAll : List String → Except Usage (List Word)
  | [] => .ok []
  | "--" :: rest => .ok (.dashes :: rest.map .plain)
  | text :: rest => do
    let word ← sort text
    let words ← sortAll rest
    return word :: words

end Word

inductive GivenLimit
  | turns (n : Int)
  | nothing
  deriving DecidableEq, Repr

structure Arguments where
  file : Option String
  repl : Bool
  verbose : Bool
  debug : Bool
  dumpTree : Bool
  maxTurns : Option GivenLimit
  deriving DecidableEq, Repr

namespace Arguments

def none : Arguments := ⟨.none, false, false, false, false, .none⟩

def choose (a : Arguments) : Choice → Except Usage Arguments
  | .help => .error .help
  | .repl => .ok { a with repl := true }
  | .verbose => .ok { a with verbose := true }
  | .debug => .ok { a with debug := true }
  | .dumpTree => .ok { a with dumpTree := true }
  | .maxTurns => .error .wrong

def limit (a : Arguments) (text : String) : Except Usage Arguments :=
  if text = "--" then .ok { a with maxTurns := some .nothing }
  else
    match Text.integer? text with
    | some n => .ok { a with maxTurns := some (.turns n) }
    | .none => .error .wrong

/-- Takes up words in order; `filled` once the place of the file is, `extra` once a word is too
much. -/
def take (a : Arguments) (filled extra : Bool) : List Word → Except Usage Arguments
  | [] => if extra then .error .wrong else .ok a
  | .short tail :: _ => .error (if Word.isHelp tail then .help else .wrong)
  | .long .maxTurns (some text) :: rest => do (← a.limit text).take filled extra rest
  | .long .maxTurns .none :: .plain text :: rest => do (← a.limit text).take filled extra rest
  | .long choice .none :: rest => do (← a.choose choice).take filled extra rest
  | .long _ (some _) :: _ => .error .wrong
  | .unknown :: rest => a.take filled true rest
  | .plain text :: .dashes :: rest =>
    if filled then a.take filled true rest
    else { a with file := some text }.take true extra rest
  | .plain text :: rest =>
    if filled then a.take filled true rest
    else { a with file := some text }.take true extra rest
  | .dashes :: rest => a.take filled (extra || filled) rest

def ofWords (words : List String) : Except Usage Arguments := do
  none.take false false (← Word.sortAll words)

end Arguments

end Script
