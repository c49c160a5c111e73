import Phrasebook.Decimal.Basic
import Phrasebook.Text.Digits

/-! # Reading numbers

A number is written as an optional sign and then digits with at most one point
among them and an optional exponent, or one of the words `inf`, `infinity` and
`nan` in any letter case. There is at least one digit, before the point or after
it. The value is the nearest binary64 number.
-/

namespace Phrasebook.Decimal

def readExponent? (cs : List Char) : Option Int :=
  let (negative, digits) :=
    match cs with
    | '-' :: rest => (true, rest)
    | '+' :: rest => (false, rest)
    | rest => (false, rest)
  let value : Int := Text.digitsValue digits
  if Text.isDigits digits then some (if negative then -value else value) else none

def readTail? : List Char → Option Int
  | [] => some 0
  | c :: rest => if c == 'e' || c == 'E' then readExponent? rest else none

def read? (cs : List Char) : Option Decimal :=
  let whole := cs.takeWhile Char.isDigit
  let (fraction, tail) :=
    match cs.dropWhile Char.isDigit with
    | '.' :: rest => (rest.takeWhile Char.isDigit, rest.dropWhile Char.isDigit)
    | rest => ([], rest)
  if whole.isEmpty && fraction.isEmpty then none
  else
    (readTail? tail).map fun exponent =>
      ⟨Text.digitsValue (whole ++ fraction), exponent - fraction.length⟩

end Phrasebook.Decimal

namespace Phrasebook.Binary64

/-- An unsigned number as written: a decimal, or a word for what is no finite number. -/
def readUnsigned? (negative : Bool) (cs : List Char) : Option Binary64 :=
  match Decimal.read? cs with
  | some d => some (ofCode negative d.nearestCode)
  | none =>
    let word := String.ofList (cs.map Char.toLower)
    if word = "inf" ∨ word = "infinity" then some (infinity negative)
    else if word = "nan" then some nan
    else none

def read? : List Char → Option Binary64
  | '-' :: cs => readUnsigned? true cs
  | '+' :: cs => readUnsigned? false cs
  | cs => readUnsigned? false cs

end Phrasebook.Binary64
