import Phrasebook.Draw.Hash
import Phrasebook.Seed.Vocabulary
import Phrasebook.Text.Blank
import Phrasebook.Text.Digits

/-! # Seeds

A seed is a text and the 64-bit state that it stands for. A canonical seed is a
word of the vocabulary and a number below 10000, such as `otter42`, and its state
lies below `canonicalSpace`. The states from there to the last word but one are
free-form: `#` and the state name one directly, and every other text is hashed
into them. Stepping walks each of the two ranges in a cycle.
-/

namespace Phrasebook

structure Seed where
  text : String
  state : UInt64
deriving Inhabited

namespace Seed

def suffixRange : UInt64 := 10000

def canonicalSpace : UInt64 := 1280000

/-- How many free-form states there are; the last word of all is not a state. -/
def freeFormSpace : UInt64 := 18446744073709551615 - canonicalSpace

/-- Seeds are equal when their states are, however they are written. -/
instance : BEq Seed := ⟨fun a b => a.state == b.state⟩

def isCanonical (seed : Seed) : Bool := seed.state < canonicalSpace

/-! ## Reading -/

/-- The state of a canonical seed: a word in any letter case, then its number. -/
def canonicalState? (text : List Char) : Option UInt64 :=
  let word := text.takeWhile (!·.isDigit)
  let digits := text.dropWhile (!·.isDigit)
  let number := Text.digitsValue digits
  if Text.isDigits digits && number < suffixRange.toNat then
    (wordIndex? (String.ofList (word.map Char.toLower))).map fun index =>
      (number * 128 + index).toUInt64
  else none

def freeFormState? : List Char → Option UInt64
  | '#' :: digits =>
    let number := Text.digitsValue digits
    if Text.isDigits digits && canonicalSpace.toNat ≤ number &&
        number < 18446744073709551615 then
      some number.toUInt64
    else none
  | _ => none

def hashedState (text : List Char) : UInt64 :=
  canonicalSpace + Draw.Hash.ofBytes (String.ofList text).toUTF8 % freeFormSpace

/-- The state that a text stands for; blank characters around it do not count. -/
def decode (text : String) : UInt64 :=
  let trimmed := Text.trim text.toList
  match canonicalState? trimmed with
  | some state => state
  | none =>
    match freeFormState? trimmed with
    | some state => state
    | none => hashedState trimmed

def ofText (text : String) : Seed := ⟨text, decode text⟩

/-! ## Writing -/

/-- The text of a state: word and number below `canonicalSpace`, `#` and the state above. -/
def encode (state : UInt64) : String :=
  if state < canonicalSpace then
    vocabulary.get ⟨state.toNat % 128, Nat.mod_lt _ (by decide)⟩ ++ toString (state.toNat / 128)
  else "#" ++ toString state.toNat

/-- The seed of a state; the last word of all stands for the first free-form state. -/
def ofState (state : UInt64) : Seed :=
  let state := if state == 18446744073709551615 then canonicalSpace else state
  ⟨encode state, state⟩

/-! ## Stepping -/

def rangeStart (state : UInt64) : UInt64 := if state < canonicalSpace then 0 else canonicalSpace

def rangeSize (state : UInt64) : UInt64 :=
  if state < canonicalSpace then canonicalSpace else freeFormSpace

def nextState (state : UInt64) : UInt64 :=
  rangeStart state + (state - rangeStart state + 1) % rangeSize state

def prevState (state : UInt64) : UInt64 :=
  let offset := state - rangeStart state
  rangeStart state + (if offset == 0 then rangeSize state - 1 else offset - 1)

def next (seed : Seed) : Seed := ofState (nextState seed.state)

def prev (seed : Seed) : Seed := ofState (prevState seed.state)

end Seed

end Phrasebook
