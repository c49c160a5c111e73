import Phrasebook.Binary64.Rounding

/-! # Arithmetic on binary64 numbers

Each operation takes the exact result of its finite operands and rounds it once;
the cases of infinities and of patterns that are no number come first.
-/

namespace Phrasebook.Binary64

def ofNat (n : Nat) : Binary64 := ofCode false (nearestScaled n unitScale)

/-- The number `k * 2 ^ (-53)`, a sample of the unit interval when `k` has 53 digits. -/
def ofUnitSample (k : Nat) : Binary64 := ofCode false (nearestScaled k (unitScale - 53))

def neg (x : Binary64) : Binary64 := ⟨x.bits + signBit⟩

/-- The sum of two finite numbers; numbers that cancel leave positive zero, and zero
changes no other number. -/
def addFinite (x y : Binary64) : Binary64 :=
  if x.isZero && !y.isZero then y
  else if y.isZero && !x.isZero then x
  else
    let common := min x.scale y.scale
    let a := x.mantissa * twoPow (x.scale - common)
    let b := y.mantissa * twoPow (y.scale - common)
    if x.isNegative == y.isNegative then
      ofCode x.isNegative (nearestScaled (a + b) common)
    else if a = b then zero
    else if b < a then ofCode x.isNegative (nearestScaled (a - b) common)
    else ofCode y.isNegative (nearestScaled (b - a) common)

def add (x y : Binary64) : Binary64 :=
  if x.isNaN || y.isNaN then nan
  else if x.isInfinite then
    if y.isInfinite && x.isNegative != y.isNegative then nan else x
  else if y.isInfinite then y
  else addFinite x y

def sub (x y : Binary64) : Binary64 := x.add y.neg

def mulCode (x y : Binary64) : Nat :=
  let product := x.mantissa * y.mantissa
  let scale := x.scale + y.scale
  if unitScale ≤ scale then nearestScaled product (scale - unitScale)
  else nearestQuotient product (twoPow (unitScale - scale))

def mul (x y : Binary64) : Binary64 :=
  let negative := x.isNegative != y.isNegative
  if x.isNaN || y.isNaN then nan
  else if x.isInfinite || y.isInfinite then
    if x.isZero || y.isZero then nan else infinity negative
  else ofCode negative (mulCode x y)

def div (x y : Binary64) : Binary64 :=
  let negative := x.isNegative != y.isNegative
  if x.isNaN || y.isNaN then nan
  else if x.isInfinite then
    if y.isInfinite then nan else infinity negative
  else if y.isInfinite then ofCode negative 0
  else if y.isZero then
    if x.isZero then nan else infinity negative
  else ofCode negative (nearestQuotient (x.quanta <<< unitScale) y.quanta)

/-- What is left of a number after taking its whole part away, with the number's sign. -/
def fraction (x : Binary64) : Binary64 :=
  if x.isFinite then ofCode x.isNegative (nearestScaled (x.quanta % unitQuanta) 0)
  else nan

/-- The least whole number that is not below the magnitude of a finite number. -/
def ceiling (x : Binary64) : Nat :=
  (x.quanta + (unitQuanta - 1)) / unitQuanta

def sum (xs : List Binary64) : Binary64 := xs.foldl add zero

end Phrasebook.Binary64
