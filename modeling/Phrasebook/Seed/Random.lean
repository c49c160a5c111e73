import Phrasebook.Draw.Keystream
import Phrasebook.Seed.Basic

/-! # Random canonical seeds

A word of a keystream becomes a canonical state by taking the high half of its
product with the number of states. A word whose product has its low half outside
the acceptance zone is passed over, so that every state has equally many words.
-/

namespace Phrasebook.Seed

/-- The greatest low half of a product that is accepted. -/
def acceptanceZone : UInt64 := canonicalSpace <<< 43 - 1

structure Found where
  state : UInt64
  next : Nat

/-- The first accepted word from a place on; after `words` of them the next one is taken as it is. -/
def searchFrom (key : Draw.Keystream.Key) : (words : Nat) → (place : Nat) → Found
  | words, place =>
    let product := (key.word64 place).toNat * canonicalSpace.toNat
    let state := (product >>> 64).toUInt64
    match words with
    | 0 => ⟨state, place + 1⟩
    | words + 1 =>
      if product.toUInt64 ≤ acceptanceZone then ⟨state, place + 1⟩
      else searchFrom key words (place + 1)

/-- The words after which a keystream repeats; no search needs more. -/
def period : Nat := 1 <<< 67

def drawState (key : Draw.Keystream.Key) (place : Nat) : Found := searchFrom key period place

def drawMany (key : Draw.Keystream.Key) : (count : Nat) → (place : Nat) → List Seed
  | 0, _ => []
  | count + 1, place =>
    let found := drawState key place
    ofState found.state :: drawMany key count found.next

end Phrasebook.Seed
