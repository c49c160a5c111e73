import Phrasebook.Decimal.Basic

/-! # The fewest digits that read back

A binary64 number stands for all the reals that round to it. Among the decimals in
that interval `shortest` takes one with the fewest digits, and of these the nearest to
the number. The interval holds its ends when the number's code is even, since a half
goes to the even neighbour.

Everything is exact: magnitudes are counted in half quanta, so that the ends of the
interval are whole numbers.
-/

namespace Phrasebook.Decimal

inductive Tie where
  | up
  | even
deriving DecidableEq

/-- The reals that round to a number: its ends and the number, in half quanta. -/
structure Interval where
  low : Nat
  value : Nat
  high : Nat
  /-- Whether the ends round to the number too. -/
  closed : Bool

def halfQuantaInOne : Nat := 1 <<< (Binary64.unitScale + 1)

def Interval.ofCode (code : Nat) : Interval :=
  let value := Binary64.quantaOf code
  ⟨value + Binary64.quantaOf (code - 1), 2 * value, value + Binary64.quantaOf (code + 1),
    code % 2 = 0⟩

/-- The place of the leading digit of some half quanta: zero for units, one for tens. -/
def leadingPlace (value : Nat) : Int :=
  if halfQuantaInOne ≤ value then (digitCount (value / halfQuantaInOne) : Int) - 1
  else -(digitCount ((halfQuantaInOne - 1) / value) : Int)

/-- The multiples of a power of ten: half quanta times `scale` count multiples of `unit`. -/
structure Grid where
  scale : Nat
  unit : Nat

def Grid.ofPlace (place : Int) : Grid :=
  match place with
  | .ofNat k => ⟨1, tenPow k * halfQuantaInOne⟩
  | .negSucc k => ⟨tenPow (k + 1), halfQuantaInOne⟩

def Grid.hits (grid : Grid) (interval : Interval) (multiple : Nat) : Bool :=
  let low := interval.low * grid.scale
  let high := interval.high * grid.scale
  let point := multiple * grid.unit
  if interval.closed then low ≤ point && point ≤ high else low < point && point < high

def Grid.nearest? (grid : Grid) (tie : Tie) (interval : Interval) : Option Nat :=
  let value := interval.value * grid.scale
  let below := value / grid.unit
  let toBelow := value - below * grid.unit
  let toAbove := (below + 1) * grid.unit - value
  match grid.hits interval below, grid.hits interval (below + 1) with
  | false, false => none
  | true, false => some below
  | false, true => some (below + 1)
  | true, true =>
    if toBelow < toAbove then some below
    else if toAbove < toBelow then some (below + 1)
    else if tie = .even && below % 2 = 0 then some below
    else some (below + 1)

/-- Tries grids from a place downwards; `more` bounds how many come after the first. -/
def searchFrom (tie : Tie) (interval : Interval) (place : Int) : (more : Nat) → Decimal
  | 0 => ⟨interval.value * (Grid.ofPlace place).scale / (Grid.ofPlace place).unit, place⟩
  | more + 1 =>
    match (Grid.ofPlace place).nearest? tie interval with
    | some multiple => ⟨multiple, place⟩
    | none => searchFrom tie interval (place - 1) more

def mostDigits : Nat := 17

/-- The decimal with the fewest digits that reads back as the magnitude of a code above zero. -/
def shortest (tie : Tie) (code : Nat) : Decimal :=
  let interval := Interval.ofCode code
  searchFrom tie interval (leadingPlace interval.value) mostDigits

end Phrasebook.Decimal
