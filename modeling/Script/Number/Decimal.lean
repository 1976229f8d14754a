import Script.Number.Basic

/-!
Decimal notation of numbers: `Decimal.toNumber` reads a decimal as the nearest number, `shortest`
is the decimal with the fewest digits that is read back as the number, and the nearest of those.
-/

namespace Script

/-- `digits * 10 ^ exponent` -/
structure Decimal where
  digits : Nat
  exponent : Int
  deriving DecidableEq, Repr

namespace Decimal

/-- The nearest point of the grid, in units; far out of range only the side counts. -/
def units (d : Decimal) : Nat :=
  if d.digits = 0 then 0
  else if 400 < d.exponent then Nat.pow 2 2098
  else if d.exponent < -(d.digits.log2 + 1100 : Int) then 0
  else if 0 ≤ d.exponent then Number.nearest (d.digits * Nat.pow 10 d.exponent.toNat * Number.one) 1
  else Number.nearest (d.digits * Number.one) (Nat.pow 10 (-d.exponent).toNat)

def toNumber (d : Decimal) (negative : Bool) : Number :=
  Number.ofUnits negative d.units

def trim (d : Decimal) : Decimal :=
  if h : d.digits = 0 ∨ d.digits % 10 ≠ 0 then d
  else trim ⟨d.digits / 10, d.exponent + 1⟩
termination_by d.digits
decreasing_by omega

end Decimal

namespace Number

def digitCount (n : Nat) : Nat := (Nat.toDigits 10 n).length

/-- Where the decimal point stands, counted from before the first digit that is not zero:
`10 ^ (place - 1) ≤ u units < 10 ^ place`. -/
def decimalPlace (u : Nat) : Int :=
  if one ≤ u then digitCount (u / one) else 1 - digitCount ((one - 1) / u)

def neighbours (num den : Nat) : List Nat :=
  let low := num / den
  if divNearest num den = low then [low, low + 1] else [low + 1, low]

/-- The decimal of `count` digits that is read back, if one of the two nearest is. -/
def withDigits (u count : Nat) : Option Decimal :=
  let exponent := decimalPlace u - count
  let near :=
    if 0 ≤ exponent then neighbours u (one * Nat.pow 10 exponent.toNat)
    else neighbours (u * Nat.pow 10 (-exponent).toNat) one
  (near.map (Decimal.mk · exponent)).find? (·.units = u)

def allDigits (u : Nat) : Decimal := ⟨u * Nat.pow 5 1074, -1074⟩

/-- The fewest digits that are read back. Seventeen are always enough. -/
def shortestUnits (u : Nat) : Decimal :=
  if u = 0 then ⟨0, 0⟩
  else (((List.range 17).findSome? fun n => withDigits u (n + 1)).getD (allDigits u)).trim

def shortest (x : Number) : Decimal := shortestUnits x.units

end Number

end Script
