/-! # Decimal digits -/

namespace Phrasebook.Text

def digitsValue (digits : List Char) : Nat :=
  digits.foldl (fun n c => 10 * n + (c.toNat - '0'.toNat)) 0

def isDigits (text : List Char) : Bool := !text.isEmpty && text.all Char.isDigit

end Phrasebook.Text
