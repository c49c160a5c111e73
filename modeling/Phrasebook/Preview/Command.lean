import Phrasebook.Decimal.Reader
import Phrasebook.Text.Blank
import Phrasebook.Text.LetterCase

/-! # Commands

A line typed at the prompt is a word in any letter case and what follows it.
-/

namespace Phrasebook.Preview

inductive Command where
  | nothing
  | quit
  | help
  | next
  | prev
  | showSeed
  | setSeed (text : String)
  /-- Renders at a time, none when no number is given. -/
  | frame (t : Option Binary64)
  /-- Plays at some frames per second, none when what is given is no such number. -/
  | play (framesPerSecond : Option Nat)
  /-- Renders successive seeds, none when no count is given. -/
  | bulk (count : Option Nat)
  | reload
  | dump
  | unknown (word : String)

def readCount? (cs : List Char) : Option Nat :=
  let digits := match cs with
    | '+' :: rest => rest
    | rest => rest
  if Text.isDigits digits then some (Text.digitsValue digits) else none

def readPositive? (limit : Nat) (cs : List Char) : Option Nat :=
  (readCount? cs).filter fun n => 0 < n && n ≤ limit

def largestRate : Nat := 4294967295

def largestCount : Nat := 18446744073709551615

def defaultRate : Nat := 10

namespace Command

/-- The command of a word, the word after it, and the rest of the line after the word. -/
def ofWords (word : String) (argument : Option (List Char)) (rest : List Char) : Command :=
  if word ∈ ["quit", "exit", "q"] then .quit
  else if word ∈ ["help", "h", "?"] then .help
  else if word ∈ ["next", "n"] then .next
  else if word ∈ ["prev", "p"] then .prev
  else if word = "seed" then
    if argument.isSome then .setSeed (String.ofList (Text.trim rest)) else .showSeed
  else if word = "frame" then .frame (argument.bind Binary64.read?)
  else if word = "play" then
    .play (match argument with
      | none => some defaultRate
      | some written => readPositive? largestRate written)
  else if word = "bulk" then .bulk (argument.bind (readPositive? largestCount))
  else if word = "reload" then .reload
  else if word = "dump" then .dump
  else .unknown word

def read (line : String) : Command :=
  let trimmed := Text.trim line.toList
  match Text.words trimmed with
  | [] => .nothing
  | word :: arguments =>
    ofWords (String.ofList (Text.lowerCase word)) arguments.head? (trimmed.drop word.length)

end Command

end Phrasebook.Preview
