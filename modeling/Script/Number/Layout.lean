import Script.Number.Reading
import Script.Text.Integer
import Script.Text.Lines

/-!
Numbers as texts. Of a finite number `repr` is the shortest text that is read back, with an exponent
below `1e-4` and from `1e16` on. `display`, what programs see, starts from that text: it takes away
the exponent of a small number, or writes the exponent anew. None of the steps of `display?` fails,
so every number has a text.
-/

namespace Script

namespace Decimal

def zeros (n : Nat) : String := String.ofList (List.replicate n '0')

/-- Without an exponent. Behind the digits of a whole number stands `wholeEnd`. -/
def plain (wholeEnd : String) (d : Decimal) : String :=
  let digits := Nat.toDigits 10 d.digits
  let place := d.exponent + digits.length
  if place ≤ 0 then
    "0." ++ zeros (-place).toNat ++ String.ofList digits
  else if digits.length ≤ place.toNat then
    String.ofList digits ++ zeros (place.toNat - digits.length) ++ wholeEnd
  else
    String.ofList (digits.take place.toNat) ++ "." ++ String.ofList (digits.drop place.toNat)

def scientific (d : Decimal) : String :=
  let digits := Nat.toDigits 10 d.digits
  let fraction := if digits.length ≤ 1 then "" else "." ++ String.ofList (digits.drop 1)
  let power := d.exponent + digits.length - 1
  let size := Nat.toDigits 10 power.natAbs
  String.ofList (digits.take 1) ++ fraction ++ "e" ++ (if 0 ≤ power then "+" else "-") ++
    zeros (2 - size.length) ++ String.ofList size

end Decimal

namespace Number

def repr (x : Number) : String :=
  let size := x.abs
  (if x.isNegative then "-" else "") ++
    if size = 0 || 1e-4 ≤ size && size < 1e16 then x.shortest.plain ".0"
    else x.shortest.scientific

def spread? (text : String) : Option String :=
  (Decimal.read? text.toList).map fun (negative, d) => (if negative then "-" else "") ++ d.plain ""

/-- The same decimal with no zero before the digits of its exponent. -/
def shorten? (text : String) : Option String :=
  match Text.partsAt 'e' text.toList with
  | [mantissa, power] =>
    (Text.integer? (String.ofList power)).map fun power =>
      String.ofList mantissa ++ "e" ++ (if 0 < power then "+" else "-") ++ toString power.natAbs
  | _ => none

def display? (x : Number) : Option String :=
  if x.isNaN then some "NaN"
  else if x.isInf then some (if 0 < x then "Infinity" else "-Infinity")
  else if x.isWhole && x.abs < 1e21 then
    some ((if x < 0 then "-" else "") ++ toString (x.units / one))
  else
    let text := x.repr
    if text.toList.contains 'e' && 1e-6 ≤ x.abs && x.abs < 1 then spread? text
    else if text.toList.contains 'e' then shorten? text
    else some text

def display (x : Number) : String := x.display?.getD ""

end Number

end Script
