import Phrasebook.Text.Blank

/-! # Code fences

A fence opens a block of code: up to three spaces, then at least three backticks or
tildes and the info string, which after backticks holds no backtick. It is closed by a
line of at least as many of the same marks and nothing else.
-/

namespace Phrasebook.Docs

structure Fence where
  mark : Char
  length : Nat
  indent : Nat
deriving DecidableEq

/-- A line without the line feeds and carriage returns at its end. -/
def withoutEnd (line : List Char) : List Char :=
  Text.dropEndWhile (fun c => c == '\n' || c == '\r') line

def deepestIndent : Nat := 3

def shortestFence : Nat := 3

def openingFence? (line : List Char) : Option (Fence × List Char) :=
  let line := withoutEnd line
  let indent := (line.takeWhile (· == ' ')).length
  let rest := line.drop indent
  match rest with
  | [] => none
  | mark :: _ =>
    let length := (rest.takeWhile (· == mark)).length
    let info := Text.trim (rest.drop length)
    if deepestIndent < indent || (mark != '\x60' && mark != '~') || length < shortestFence ||
        (mark == '\x60' && info.contains '\x60') then none
    else some (⟨mark, length, indent⟩, info)

def Fence.isClosedBy (fence : Fence) (line : List Char) : Bool :=
  let line := withoutEnd line
  let indent := (line.takeWhile (· == ' ')).length
  let rest := line.drop indent
  let length := (rest.takeWhile (· == fence.mark)).length
  indent ≤ deepestIndent && fence.length ≤ length && Text.isBlankText (rest.drop length)

/-- A line of the block without the spaces that the fence stands behind, as far as it
has them. -/
def Fence.dedent (fence : Fence) (line : List Char) : List Char :=
  line.drop ((line.take fence.indent).takeWhile (· == ' ')).length

end Phrasebook.Docs
