import Phrasebook.Binary64.Basic

/-! # Rounding to binary64

One rule rounds everything: an exact magnitude goes to the nearest code, a half
goes to the even neighbour, and what lies beyond the largest finite code becomes
infinity. `nearestQuotient` states it for a quotient of whole numbers of quanta;
`nearestScaled` is the same rule for a whole number times a power of two, and
keeps its numbers short.
-/

namespace Phrasebook

/-- The integer nearest to `num / den`; a half goes to the even neighbour. -/
def roundDiv (num den : Nat) : Nat :=
  let floor := num / den
  let twice := 2 * (num % den)
  if twice < den then floor
  else if den < twice then floor + 1
  else if floor % 2 = 0 then floor
  else floor + 1

def smallPowers : Array Nat := (Array.range 63).map (1 <<< ·)

def twoPow (k : Nat) : Nat := smallPowers.getD k (1 <<< k)

theorem twoPow_eq (k : Nat) : twoPow k = 1 <<< k := by
  unfold twoPow smallPowers
  by_cases h : k < 63 <;> simp [Array.getD, h]

def bitLength (n : Nat) : Nat := if n = 0 then 0 else n.log2 + 1

namespace Binary64

def precision : Nat := 53

def nearestQuotient (num den : Nat) : Nat :=
  let scale := bitLength (num / den) - precision
  min (scale * hiddenBit + roundDiv num (den * twoPow scale)) infinityCode

def nearestScaled (n e : Nat) : Nat :=
  let size := bitLength n
  if size ≤ precision then
    let up := min e (precision - size)
    if n = 0 then 0 else min ((e - up) * hiddenBit + n * twoPow up) infinityCode
  else
    let down := size - precision
    min ((e + down) * hiddenBit + roundDiv n (twoPow down)) infinityCode

end Binary64

end Phrasebook
