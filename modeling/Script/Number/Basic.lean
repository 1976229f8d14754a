/-!
Numbers are binary64. Every finite magnitude is a whole number of units of `2 ^ (-1074)` with at
most 53 leading bits in use. `nearest` takes any number of units, given as a ratio, to that grid;
below `2 ^ 53` units the grid has every whole number, so subnormals need no case of their own.
Powers are `Nat.pow`, which is the same function whatever `^` stands for.
-/

namespace Script

abbrev Number := Float

namespace Number

def nan : Number := 0.0 / 0.0
def infinity : Number := 1.0 / 0.0

def one : Nat := Nat.pow 2 1074

def isNegative (x : Number) : Bool := Nat.pow 2 63 ≤ x.toBits.toNat

/-- The magnitude of a finite number, in units. -/
def units (x : Number) : Nat :=
  let bits := x.toBits.toNat % Nat.pow 2 63
  if bits < Nat.pow 2 53 then bits
  else (bits % Nat.pow 2 52 + Nat.pow 2 52) <<< (bits / Nat.pow 2 52 - 1)

def infinityBits : Nat := 0x7ff * Nat.pow 2 52

/-- The number of so many units of the grid; past the largest there is infinity. -/
def ofUnits (negative : Bool) (u : Nat) : Number :=
  let shift := u.log2 - 52
  let bits := min ((shift <<< 52) + (u >>> shift)) infinityBits
  Float.ofBits (UInt64.ofNat (if negative then bits + Nat.pow 2 63 else bits))

/-- The whole number nearest to `num / den`, the even one of two. -/
def divNearest (num den : Nat) : Nat :=
  let low := num / den
  let rest := num % den
  if 2 * rest < den ∨ 2 * rest = den ∧ low % 2 = 0 then low else low + 1

def nearest (num den : Nat) : Nat :=
  let shift := (num / den).log2 - 52
  divNearest num (den <<< shift) <<< shift

def whole? (x : Number) : Option Nat :=
  if x.isFinite ∧ x.units % one = 0 then some (x.units / one) else none

def isWhole (x : Number) : Bool := x.whole?.isSome

def place? (x : Number) : Option Nat :=
  if x < 0 then none else x.whole?

/-- What is left of `x` after taking away `y` as often as it goes, with the sign of `x`. -/
def remainder (x y : Number) : Number :=
  if x.isNaN || y.isNaN || x.isInf then nan
  else if y.isInf then x
  else ofUnits x.isNegative (x.units % y.units)

end Number

end Script
