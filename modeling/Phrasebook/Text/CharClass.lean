/-! # Classes of characters

A class of characters is given by its bounds: the code points, in ascending order, at
which a run of characters inside the class begins or ends. A character is inside when
an odd number of bounds are at its code point or below.
-/

namespace Phrasebook.Text

/-- Whether a code point is inside, when it is not below the bounds passed so far and
these leave it as `inside` says. -/
def insideFrom (inside : Bool) : List Nat → Nat → Bool
  | [], _ => inside
  | bound :: bounds, n => if n < bound then inside else insideFrom (!inside) bounds n

def inClass (bounds : List Nat) (c : Char) : Bool := insideFrom false bounds c.toNat

end Phrasebook.Text
