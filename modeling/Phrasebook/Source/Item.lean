import Phrasebook.Book.Basic
import Phrasebook.Decimal.Basic
import Phrasebook.Source.Error
import Phrasebook.Text.Digits

/-! # Items

The text of an item is an optional weight token such as `3x`, then the text of the
alternative, which may be quoted. Double quotes allow escapes; within single quotes
two quotes stand for one.
-/

namespace Phrasebook.Source

/-! ## Weights -/

/-- Whether a text is made of decimal digits, at least one, and at most one point. -/
def isPlainDecimal (cs : List Char) : Bool :=
  cs.all (fun c => c.isDigit || c == '.') && cs.any Char.isDigit && cs.count '.' ≤ 1

def weightDigits? (token : List Char) : Option (List Char) :=
  match token.reverse with
  | 'x' :: digits => if isPlainDecimal digits.reverse then some digits.reverse else none
  | _ => none

def plainDecimal (digits : List Char) : Decimal :=
  let fraction := (digits.dropWhile Char.isDigit).drop 1
  ⟨Text.digitsValue (digits.takeWhile Char.isDigit ++ fraction), -fraction.length⟩

/-- An item's text parted at its weight: the weight, the rest, and how many characters
stand before the rest. -/
structure Weighted where
  weight : Binary64
  rest : List Char
  consumed : Nat

/-- Takes the weight token off an item's text; the weight is one when there is none. -/
def splitWeight (text : List Char) : Except FormFault Weighted :=
  let token := text.takeWhile (!Text.isIndent ·)
  let tail := text.dropWhile (!Text.isIndent ·)
  match (if tail.isEmpty then none else weightDigits? token) with
  | none => .ok ⟨.one, text, 0⟩
  | some digits =>
    let weight := Binary64.ofCode false (plainDecimal digits).nearestCode
    if weight.isFinite then
      let gap := tail.takeWhile Text.isIndent
      .ok ⟨weight, tail.dropWhile Text.isIndent, token.length + gap.length⟩
    else .error (.weightOutOfRange (String.ofList token))

/-! ## Quotes -/

def dropLast? (c : Char) (cs : List Char) : Option (List Char) :=
  match cs.reverse with
  | d :: rest => if d == c then some rest.reverse else none
  | [] => none

/-- Reads the inside of double quotes; `done` is the text read so far, reversed. -/
def unescapeFrom (done : List Char) : List Char → Except FormFault (List Char)
  | [] => .ok done.reverse
  | '\\' :: [] => .error .unterminatedDouble
  | '\\' :: 'n' :: cs => unescapeFrom ('\n' :: done) cs
  | '\\' :: 't' :: cs => unescapeFrom ('\t' :: done) cs
  | '\\' :: '"' :: cs => unescapeFrom ('"' :: done) cs
  | '\\' :: '\\' :: cs => unescapeFrom ('\\' :: done) cs
  | '\\' :: c :: _ => .error (.unknownEscape c)
  | c :: cs => unescapeFrom (c :: done) cs

/-- Reads the inside of single quotes; `done` is the text read so far, reversed. -/
def undoubleFrom (done : List Char) : List Char → List Char
  | [] => done.reverse
  | '\'' :: '\'' :: cs => undoubleFrom ('\'' :: done) cs
  | c :: cs => undoubleFrom (c :: done) cs

structure Unquoted where
  text : List Char
  quoted : Bool

def unquote : List Char → Except FormFault Unquoted
  | '"' :: rest =>
    match dropLast? '"' rest with
    | none => .error .unterminatedDouble
    | some inner =>
      match unescapeFrom [] inner with
      | .error fault => .error fault
      | .ok text => .ok ⟨text, true⟩
  | '\'' :: rest =>
    match dropLast? '\'' rest with
    | none => .error .unterminatedSingle
    | some inner => .ok ⟨undoubleFrom [] inner, true⟩
  | text => .ok ⟨text, false⟩

/-! ## Alternatives -/

/-- An item: where its content starts, and the texts of its lines, the last one first. -/
structure Item where
  line : Nat
  column : Nat
  pieces : List (List Char)

namespace Item

/-- Whether the item runs over more than one line, so that columns show nothing. -/
def isFolded (item : Item) : Bool := 1 < item.pieces.length

/-- The item's lines joined by single spaces; an empty first line joins nothing. -/
def text (item : Item) : List Char :=
  [' '].intercalate (item.pieces.reverse.filter (!·.isEmpty))

def alternative (category : String) (item : Item) : Except Error Alternative :=
  match splitWeight item.text with
  | .error fault => .error ⟨item.line, .form fault⟩
  | .ok weighted =>
    match unquote weighted.rest with
    | .error fault => .error ⟨item.line, .form fault⟩
    | .ok unquoted =>
      match Template.parse unquoted.text with
      | .ok template => .ok ⟨weighted.weight, template⟩
      | .error error =>
        let column :=
          if item.isFolded || unquoted.quoted then none
          else some (item.column + weighted.consumed + error.offset)
        .error ⟨item.line, .placeholder category column error.fault⟩

end Item

end Phrasebook.Source
