import Phrasebook.Binary64.Arithmetic

/-! # Weighted selection

The positive weights of a list, laid end to end in order, divide the interval
from zero to their sum; a draw of the unit interval, stretched over it, selects
the weight in whose part it falls. A part holds its left end and not its right.
Only positive weights take part, and when rounding puts the draw on the far end
the last of them is selected.
-/

namespace Phrasebook.Draw

def positiveTotal (weights : List Binary64) : Binary64 :=
  Binary64.sum (weights.filter Binary64.isPositive)

/-- The index at which the running sum first passes the target, counting from
`index`; `last` is the last positive weight seen. -/
def selectFrom (target : Binary64) :
    List Binary64 → (index : Nat) → (sum : Binary64) → (last : Option Nat) → Option Nat
  | [], _, _, last => last
  | w :: weights, index, sum, last =>
    if w.isPositive then
      let sum := sum.add w
      if target.lt sum then some index
      else selectFrom target weights (index + 1) sum (some index)
    else selectFrom target weights (index + 1) sum last

/-- The index that a draw selects, none when no weight is positive. -/
def selectWeighted (weights : List Binary64) (draw : Binary64) : Option Nat :=
  let total := positiveTotal weights
  if total.isPositive then selectFrom (draw.mul total) weights 0 .zero none else none

end Phrasebook.Draw
