import Phrasebook.Decimal.Basic

/-! # Numbers with a fixed number of places

The exact value of a number is rounded to a given number of decimal places, a half
going to the even neighbour. There is no point when there are no places.
-/

namespace Phrasebook.Decimal

def paddedDigits (width n : Nat) : List Char :=
  let digits := Nat.toDigits 10 n
  List.replicate (width - digits.length) '0' ++ digits

/-- The text of a finite magnitude, in quanta, with the given number of places. -/
def fixedMagnitude (places quanta : Nat) : List Char :=
  let units := roundDiv (quanta * tenPow places) Binary64.unitQuanta
  let whole := Nat.toDigits 10 (units / tenPow places)
  if places = 0 then whole else whole ++ '.' :: paddedDigits places (units % tenPow places)

def fixed (places : Nat) (x : Binary64) : String :=
  if x.isNaN then "NaN"
  else
    let magnitude :=
      if x.isInfinite then ['i', 'n', 'f'] else fixedMagnitude places x.quanta
    String.ofList ((if x.isNegative then ['-'] else []) ++ magnitude)

end Phrasebook.Decimal
