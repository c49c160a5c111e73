import Phrasebook.Decimal.Fixed
import Phrasebook.Session.Basic
import Phrasebook.Text.Alphanumeric
import Phrasebook.Text.LetterCase

/-! # Variety of successive outputs

How varied the outputs of successive seeds are: how many differ, how long they are and
which words they use most. The words are ordered by falling count, and words with the
same count alphabetically, so nothing is left to chance.
-/

namespace Phrasebook.Preview

/-! ## Words -/

/-- A word as it is counted: in lower case, without what is neither letter nor digit at
its ends. -/
def countedForm (word : List Char) : String :=
  let isOther := fun c => !Text.isAlphanumeric c
  String.ofList (Text.lowerCase (Text.dropEndWhile isOther (word.dropWhile isOther)))

/-- Words are counted when they are longer than this, in bytes. -/
def shortestCounted : Nat := 3

def countedWords (text : String) : List String :=
  ((Text.words text.toList).map countedForm).filter (shortestCounted < ·.utf8ByteSize)

/-- A word and how often it occurs. The count has no bound here; one kept in 32 bits is the same
while no word occurs `2 ^ 32` times or more. -/
structure WordCount where
  word : String
  count : Nat
deriving DecidableEq

/-- Counts one more occurrence of a word; the counts stay in ascending order of the words. -/
def countWord (counts : List WordCount) (word : String) : List WordCount :=
  let before := ((counts.find? (·.word == word)).map (·.count)).getD 0
  Ascending.insert WordCount.word ⟨word, before + 1⟩ counts

def wordCounts (texts : List String) : List WordCount :=
  (texts.flatMap countedWords).foldl countWord []

def precedes (a b : WordCount) : Bool :=
  b.count < a.count || (a.count == b.count && decide (a.word ≤ b.word))

def ranked (counts : List WordCount) : List WordCount := counts.mergeSort precedes

/-! ## Lengths -/

def averageLength (texts : List String) : Binary64 :=
  if texts.isEmpty then .zero
  else
    (Binary64.sum (texts.map fun text => Binary64.ofNat text.utf8ByteSize)).div
      (Binary64.ofNat texts.length)

/-! ## The statistics -/

def padLeft (width : Nat) (text : String) : String :=
  String.ofList (List.replicate (width - text.length) ' ') ++ text

def listedWords : Nat := 10

def shownSamples : Nat := 5

/-- The statistics of some variants, as they are printed; `counts` are those of their words. -/
def statisticsOf (counts : List WordCount) (variants : List Session.Variant) : String :=
  let texts := variants.map (·.text)
  let total := toString variants.length
  -- The most used words, most used first.
  let words := ((ranked counts).take listedWords).map fun entry =>
    "  " ++ entry.word ++ ": " ++ toString entry.count ++ "\n"
  let samples := (variants.take shownSamples).map fun variant =>
    "  " ++ padLeft 14 variant.seed.text ++ "  " ++ variant.text ++ "\n"
  "\n=== Bulk Generation: " ++ total ++ " seeds ===\n\n" ++
    "Unique outputs: " ++ toString texts.eraseDups.length ++ " / " ++ total ++ "\n" ++
    "Average length: " ++ Decimal.fixed 0 (averageLength texts) ++ " chars\n" ++
    "\nTop 10 words:\n" ++ String.join words ++ "\nSamples:\n" ++ String.join samples ++ "\n"

def statistics (variants : List Session.Variant) : String :=
  statisticsOf (wordCounts (variants.map (·.text))) variants

end Phrasebook.Preview
