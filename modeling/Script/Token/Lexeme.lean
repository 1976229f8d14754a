import Script.Number.Reading
import Script.Text.Numeral
import Script.Token.Basic
import Script.Token.Cut

/-!
Lexemes: numbers, strings, words and symbols. A lexeme is the longest one that its text begins
with, and its spelling alone settles its kind.
-/

namespace Script

inductive LexCause
  | openComment
  | openString
  | stray (c : Char)
  deriving DecidableEq, Repr

def LexCause.message : LexCause → String
  | .openComment => "Unterminated block comment"
  | .openString => "Unterminated string"
  | .stray c => "Unexpected character: " ++ Text.quote (String.singleton c)

structure Lexeme (cs : List Char) extends Cut cs where
  kind : Kind
  taken_ne_nil : taken ≠ []

namespace Lexeme

def fraction : (cs : List Char) → Cut cs
  | '.' :: d :: rest =>
    if d.isDigit then (Cut.takeWhile Char.isDigit (d :: rest)).cons '.' else .none _
  | cs => .none cs

def number (c : Char) (rest : List Char) : Cut (c :: rest) :=
  let whole := (Cut.takeWhile Char.isDigit rest).cons c
  whole.append (fraction whole.rest)

def numberValue (taken : List Char) : Number :=
  match Decimal.read? taken with
  | some (_, d) => d.toNumber false
  | none => 0

def escapeValue : Char → Char
  | 'n' => '\n'
  | 't' => '\t'
  | 'r' => '\r'
  | '0' => '\x00'
  | c => c

def unescape : List Char → List Char
  | '\\' :: c :: rest => escapeValue c :: unescape rest
  | c :: rest => c :: unescape rest
  | [] => []

/-- Up to the closing quote. A line break ends no string, unless a backslash stands before it. -/
def closeString (quote : Char) : (cs : List Char) → Option (Cut cs)
  | [] => none
  | '\\' :: c :: rest => (closeString quote rest).map fun cut => (cut.cons c).cons '\\'
  | c :: rest =>
    if c = quote then some ⟨[c], rest, rfl⟩
    else if c = '\n' ∨ c = '\\' then none
    else (closeString quote rest).map (·.cons c)

def isWordStart (c : Char) : Bool := Text.isLetter c || c = '_' || c = '$'

def isWordPart (c : Char) : Bool := Text.isAlphanumeric c || c = '_' || c = '$'

def wordKind (word : String) : Kind :=
  match Keyword.all.find? (·.spelling = word) with
  | some keyword => .keyword keyword
  | none => .identifier word

def begins (cs : List Char) (op : Operator) : Bool := op.spelling.toList.isPrefixOf cs

def operator? (cs : List Char) : Option (Lexeme cs) :=
  match h : Operator.all.find? (begins cs) with
  | some op =>
    have start : begins cs op := List.find?_some h
    some ⟨.ofPrefix _ cs start, .operator op, op.spelling_ne_nil⟩
  | none => none

def punct? (c : Char) (rest : List Char) : Option (Lexeme (c :: rest)) :=
  (Punct.all.find? (·.spelling = c)).map fun mark =>
    ⟨(Cut.none rest).cons c, .punct mark, by simp [Cut.cons]⟩

def symbol (c : Char) (rest : List Char) : Except LexCause (Lexeme (c :: rest)) :=
  if c = '/' ∧ rest.head? = some '*' then .error .openComment
  else
    match operator? (c :: rest) with
    | some found => .ok found
    | none =>
      match punct? c rest with
      | some found => .ok found
      | none => .error (.stray c)

def read (c : Char) (rest : List Char) : Except LexCause (Lexeme (c :: rest)) :=
  if c.isDigit then
    let cut := number c rest
    .ok ⟨cut, .number (numberValue cut.taken), by simp [cut, number, Cut.cons, Cut.append]⟩
  else if c = '"' ∨ c = '\'' then
    match closeString c rest with
    | some body =>
      .ok ⟨body.cons c, .string (String.ofList (unescape body.taken.dropLast)), by simp [Cut.cons]⟩
    | none => .error .openString
  else if isWordStart c then
    let tail := Cut.takeWhile isWordPart rest
    .ok ⟨tail.cons c, wordKind (String.ofList (c :: tail.taken)), by simp [Cut.cons, tail]⟩
  else symbol c rest

end Lexeme

end Script
