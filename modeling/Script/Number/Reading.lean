import Script.Number.Decimal
import Script.Text.Blank
import Script.Text.Digit
import Script.Text.Letter

/-!
Reading numbers. `parse?` is a general reader of decimals, with digits of any script around an
optional point. It also takes words for infinities and for no number at all, in letters of either
case, and underscores between digits. Programs have none of these, and only one spelling of an
infinity. A blank text counts as zero; what is left is not a number.
-/

namespace Script

namespace Decimal

def ofDigits (whole fraction : List Nat) (exponent : Int) : Decimal :=
  ⟨Text.ofDigits (whole ++ fraction), exponent - fraction.length⟩

def takeDigits : List Char → List Nat × List Char
  | [] => ([], [])
  | c :: rest =>
    match Text.digitValue? c with
    | some d => (d :: (takeDigits rest).1, (takeDigits rest).2)
    | none => ([], c :: rest)

def takeSign : List Char → Bool × List Char
  | '-' :: rest => (true, rest)
  | '+' :: rest => (false, rest)
  | cs => (false, cs)

def takeFraction : List Char → List Nat × List Char
  | '.' :: rest => takeDigits rest
  | cs => ([], cs)

/-- The exponent that takes up all of the text, zero if there is no text. -/
def exponent? : List Char → Option Int
  | [] => some 0
  | c :: rest =>
    if c = 'e' ∨ c = 'E' then
      let (negative, rest) := takeSign rest
      match takeDigits rest with
      | (d :: ds, []) => some (if negative then -Text.ofDigits (d :: ds) else Text.ofDigits (d :: ds))
      | _ => none
    else none

def read? (cs : List Char) : Option (Bool × Decimal) := do
  let (negative, rest) := takeSign cs
  let (whole, rest) := takeDigits rest
  let (fraction, rest) := takeFraction rest
  if whole.isEmpty && fraction.isEmpty then none
  else
    let exponent ← exponent? rest
    return (negative, ofDigits whole fraction exponent)

end Decimal

namespace Number

def word? (cs : List Char) : Option Number :=
  let word := cs.map Char.toLower
  if word = "inf".toList ∨ word = "infinity".toList then some infinity
  else if word = "nan".toList then some nan
  else none

/-- The text without its underscores, if each of them stands between two digits. -/
def dropSeparators? : List Char → Option (List Char)
  | [] => some []
  | c :: '_' :: d :: rest =>
    if (Text.digitValue? c).isSome && (Text.digitValue? d).isSome then
      (dropSeparators? (d :: rest)).map (c :: ·)
    else none
  | c :: rest => if c = '_' then none else (dropSeparators? rest).map (c :: ·)

def parse? (cs : List Char) : Option Number :=
  let (negative, rest) := Decimal.takeSign cs
  match word? rest with
  | some x => some (if negative then -x else x)
  | none =>
    ((dropSeparators? cs).bind Decimal.read?).map fun (negative, d) => d.toNumber negative

def isSign (c : Char) : Bool := c = '+' || c = '-'

/-- A spelling that programs do not have: a letter comes first behind all signs, or there is an
underscore. -/
def isForeign (cs : List Char) : Bool :=
  (cs.dropWhile isSign).head?.any Text.isLetter || cs.contains '_'

def ofTrimmed (cs : List Char) : Number :=
  if cs = [] then 0
  else if cs = "Infinity".toList ∨ cs = "+Infinity".toList then infinity
  else if cs = "-Infinity".toList then -infinity
  else
    match parse? cs with
    | none => nan
    | some x => if isForeign cs then nan else x

def ofText (text : String) : Number := ofTrimmed (Text.trim text.toList)

end Number

end Script
