import Phrasebook.Decimal.Shortest

/-! # Writing numbers

How a number is laid out is a matter of the text it stands in, and each format says so
in one record: where the point may stand for the positional form, and which of two
equally near decimals is taken. Numbers in positional form have at least one digit after
the point; exponents are written with their sign.
-/

namespace Phrasebook.Decimal

/-- The positions of the point at which the positional form is used, and the choice
between equally near decimals. A point at zero stands right before the first digit. -/
structure Layout where
  isPositional : Int → Bool
  tie : Tie

/-- The digits of a number without the zeros at its end. -/
def significantDigits (n : Nat) : List Char :=
  ((Nat.toDigits 10 n).reverse.dropWhile (· == '0')).reverse

def positional (digits : List Char) (point : Int) : List Char :=
  match point with
  | .ofNat before =>
    if before = 0 then '0' :: '.' :: digits
    else if digits.length ≤ before then
      digits ++ List.replicate (before - digits.length) '0' ++ ['.', '0']
    else digits.take before ++ '.' :: digits.drop before
  | .negSucc zeros => '0' :: '.' :: (List.replicate (zeros + 1) '0' ++ digits)

def scientific (digits : List Char) (exponent : Int) : List Char :=
  let fraction := if digits.length ≤ 1 then [] else '.' :: digits.drop 1
  let sign := if exponent < 0 then '-' else '+'
  digits.take 1 ++ fraction ++ 'e' :: sign :: Nat.toDigits 10 exponent.natAbs

def Layout.magnitude (layout : Layout) (code : Nat) : List Char :=
  if code = 0 then ['0', '.', '0']
  else
    let decimal := shortest layout.tie code
    let digits := significantDigits decimal.coefficient
    let point := decimal.exponent + digitCount decimal.coefficient
    if layout.isPositional point then positional digits point
    else scientific digits (point - 1)

def Layout.render (layout : Layout) (x : Binary64) : String :=
  String.ofList ((if x.isNegative then ['-'] else []) ++ layout.magnitude x.code)

end Phrasebook.Decimal
