import Phrasebook.Binary64.Rounding

/-! # Decimal numbers

A decimal is a coefficient times a power of ten. Its binary64 value is the nearest
one; magnitudes that are far beyond either end of the range are told by the
position of the leading digit, so that no power of ten is computed for them.
-/

namespace Phrasebook

/-- The decimal `coefficient * 10 ^ exponent`. -/
structure Decimal where
  coefficient : Nat
  exponent : Int
deriving DecidableEq

namespace Decimal

def tenPow (k : Nat) : Nat := Nat.pow 10 k

/-- How many decimal digits a number is written with, none for zero. -/
def digitCount (n : Nat) : Nat := if n = 0 then 0 else (Nat.toDigits 10 n).length

/-- Decimals with their leading digit at this place or above exceed every finite number. -/
def overflowPlace : Int := 310

/-- Decimals with their leading digit at this place or below are nearest to zero. -/
def underflowPlace : Int := -330

def nearestCode (d : Decimal) : Nat :=
  let place := d.exponent + digitCount d.coefficient
  if d.coefficient = 0 then 0
  else if overflowPlace ≤ place then Binary64.infinityCode
  else if place ≤ underflowPlace then 0
  else
    match d.exponent with
    | .ofNat e => Binary64.nearestQuotient ((d.coefficient * tenPow e) <<< Binary64.unitScale) 1
    | .negSucc e => Binary64.nearestQuotient (d.coefficient <<< Binary64.unitScale) (tenPow (e + 1))

end Decimal

end Phrasebook
