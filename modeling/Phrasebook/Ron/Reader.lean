import Phrasebook.Binary64.Arithmetic
import Phrasebook.Decimal.Reader
import Phrasebook.Ron.Quoted
import Phrasebook.Ron.Value

/-! # Reading RON

A document holds one record, with space around it. Space may hold comments: `//` up to
the end of the line, and `/*` up to its `*/`, which nest. Elements are parted by commas,
and one more comma may follow the last.

Values tell by themselves what they are. How deep they may be nested is limited:
entering brackets counts once, and so does each element in them.
-/

namespace Phrasebook.Ron

/-! ## Space -/

/-- Where the reading of space stands: outside comments, in a line comment, or in
block comments, one within the other. -/
inductive SpaceMode where
  | plain
  | line
  | block (outer : Nat)

def isSpace (c : Char) : Bool := c == ' ' || c == '\n' || c == '\t' || c == '\r'

/-- What follows the space and comments; none when a comment is not one or has no end. -/
def skipSpace : SpaceMode → List Char → Option (List Char)
  | .plain, '/' :: '/' :: cs => skipSpace .line cs
  | .plain, '/' :: '*' :: cs => skipSpace (.block 0) cs
  | .plain, '/' :: _ => none
  | .plain, c :: cs => if isSpace c then skipSpace .plain cs else some (c :: cs)
  | .line, '\n' :: cs => skipSpace .plain cs
  | .line, _ :: cs => skipSpace .line cs
  | .block outer, '/' :: '*' :: cs => skipSpace (.block (outer + 1)) cs
  | .block 0, '*' :: '/' :: cs => skipSpace .plain cs
  | .block (outer + 1), '*' :: '/' :: cs => skipSpace (.block outer) cs
  | .block outer, _ :: cs => skipSpace (.block outer) cs
  | .block _, [] => none
  | _, [] => some []

/-! ## Names -/

def isNameStart (c : Char) : Bool := c.isAlpha || c == '_'

def isNameRest (c : Char) : Bool := c.isAlphanum || c == '_'

def isRawNameRest (c : Char) : Bool := isNameRest c || c == '.' || c == '+' || c == '-'

def readName? : List Char → Option (String × List Char)
  | 'r' :: '"' :: _ => none
  | 'r' :: '#' :: cs =>
    let name := cs.takeWhile isRawNameRest
    if name.isEmpty then none else some (String.ofList name, cs.dropWhile isRawNameRest)
  | c :: cs =>
    if isNameStart c then
      some (String.ofList (c :: cs.takeWhile isNameRest), cs.dropWhile isNameRest)
    else none
  | [] => none

/-- A word at the start of a text that is no part of a longer name, and what follows it. -/
def readWord? (words : List String) (cs : List Char) : Option (String × List Char) :=
  let word := String.ofList (cs.takeWhile isNameRest)
  if word ∈ words then some (word, cs.dropWhile isNameRest) else none

/-! ## Numbers -/

/-- The value of digits in a base, underscores left aside; none when one is not a digit
of the base. -/
def digitsIn? (base : Nat) (digits : List Char) : Option Nat :=
  (digits.filter (· != '_')).foldlM (fun value c =>
    match hexValue? c with
    | some digit => if digit < base then some (base * value + digit) else none
    | none => none) 0

def readBase : List Char → Nat × List Char
  | '0' :: 'x' :: cs => (16, cs)
  | '0' :: 'b' :: cs => (2, cs)
  | '0' :: 'o' :: cs => (8, cs)
  | cs => (10, cs)

def isDigitChar (c : Char) : Bool := (hexValue? c).isSome || c == '_'

def isFloatChar (c : Char) : Bool :=
  c.isDigit || c == 'e' || c == 'E' || c == '.' || c == '+' || c == '-' || c == '_'

def readNatural? (largest : Nat) (cs : List Char) : Option (Nat × List Char) :=
  let (base, rest) := readBase cs
  let digits := rest.takeWhile isDigitChar
  if digits.isEmpty || digits.head? == some '_' then none
  else
    ((digitsIn? base digits).filter (· ≤ largest)).map fun n => (n, rest.dropWhile isDigitChar)

/-- The largest whole numbers: without a sign, after a plus sign and after a minus sign. -/
def largestNatural : Nat := 18446744073709551615

def largestPositive : Nat := 9223372036854775807

def largestNegative : Nat := 9223372036854775808

def readWhole? : List Char → Option (Value × List Char)
  | '+' :: cs =>
    (readNatural? largestPositive cs).map fun (n, rest) => (.float (Binary64.ofNat n), rest)
  | '-' :: cs =>
    (readNatural? largestNegative cs).map fun (n, rest) => (.float (Binary64.ofNat n).neg, rest)
  | cs => (readNatural? largestNatural cs).map fun (n, rest) => (.natural n, rest)

def floatWords : List String := ["inf", "NaN"]

def withoutSign : List Char → List Char
  | '+' :: cs => cs
  | '-' :: cs => cs
  | cs => cs

def readFloat? (cs : List Char) : Option (Value × List Char) :=
  match readWord? floatWords (withoutSign cs) with
  | some (word, rest) =>
    let isNegative := cs.head? == some '-'
    some (.float (if word = "inf" then .infinity isNegative else .nan), rest)
  | none =>
    (Binary64.read? (cs.takeWhile isFloatChar)).map fun x =>
      (.float x, cs.dropWhile isFloatChar)

/-- A number at the start of a text. It is whole when it has no fewer characters of digits
than of decimal notation; what cannot be read as a whole number is read in decimal
notation. -/
def readNumber? (cs : List Char) : Option (Value × List Char) :=
  let unsigned := withoutSign cs
  let isWhole :=
    (unsigned.takeWhile isFloatChar).length ≤ (unsigned.takeWhile isDigitChar).length
  match (if isWhole then readWhole? cs else none) with
  | some whole => some whole
  | none => readFloat? cs

def readChar? : List Char → Option (Value × List Char)
  | '\\' :: cs =>
    match readEscape? cs with
    | some (c, '\'' :: rest) => some (.char c, rest)
    | _ => none
  | c :: '\'' :: cs => if c = '\'' then none else some (.char c, cs)
  | _ => none

/-! ## Elements -/

/-- What reads a value, or a part of one, at the start of a text, and tells what follows. -/
abbrev Reader (α : Type) := List Char → Option (α × List Char)

def afterElement? (close : Char) (cs : List Char) : Option (List Char) :=
  match skipSpace .plain cs with
  | some (',' :: rest) => skipSpace .plain rest
  | some (c :: rest) => if c = close then some (c :: rest) else none
  | _ => none

def readElements? (element : Reader α) (close : Char) (cs : List Char) :
    Option (List α × List Char) :=
  if cs.head? == some close then some ([], cs.drop 1)
  else
    match element cs with
    | none => none
    | some (x, rest) =>
      match afterElement? close rest with
      | none => none
      | some next =>
        if _shorter : next.length < cs.length then
          (readElements? element close next).map fun (xs, rest) => (x :: xs, rest)
        else none
termination_by cs.length

def readBracketed? (element : Reader α) (close : Char) (cs : List Char) :
    Option (List α × List Char) :=
  (skipSpace .plain cs).bind (readElements? element close)

def afterColon? (cs : List Char) : Option (List Char) :=
  match skipSpace .plain cs with
  | some (':' :: rest) => skipSpace .plain rest
  | _ => none

def readPair? (key : Reader α) (value : Reader β) (cs : List Char) :
    Option ((α × β) × List Char) := do
  let (key, rest) ← key cs
  let (value, rest) ← value (← afterColon? rest)
  return ((key, value), rest)

/-! ## Values -/

/-- The readers of what stands inside a value: the value after `Some`, and elements in
brackets. -/
structure Inner where
  wrapped : Reader Value
  element : Reader Value

/-- Whether parentheses hold fields: a name stands first, and a colon after it. -/
def holdsFields (cs : List Char) : Bool :=
  match readName? cs with
  | some (_, rest) => (afterColon? rest).isSome
  | none => false

def readParentheses? (inner : Inner) (name : Option String) (cs : List Char) :
    Option (Value × List Char) := do
  let cs ← skipSpace .plain cs
  if holdsFields cs then
    let (fields, rest) ← readElements? (readPair? readName? inner.element) ')' cs
    return (.record name fields, rest)
  else
    let (elements, rest) ← readElements? inner.element ')' cs
    return (.tuple name elements, rest)

/-- A value under the name `Some`, after that name: the only one between parentheses.
Without parentheses the value follows at once, where that is allowed. -/
def readWrapped? (bareSome : Bool) (inner : Inner) (cs : List Char) :
    Option (Value × List Char) := do
  match ← skipSpace .plain cs with
  | '(' :: cs =>
    let (value, rest) ← inner.wrapped (← skipSpace .plain cs)
    match ← afterElement? ')' rest with
    | ')' :: rest => return (.tuple (some "Some") [value], rest)
    | _ => none
  | cs =>
    if bareSome then
      let (value, rest) ← inner.wrapped cs
      return (.tuple (some "Some") [value], rest)
    else none

def valueWords : List String := ["true", "false", "None"] ++ floatWords

def readNamed? (bareSome : Bool) (inner : Option Inner) (cs : List Char) :
    Option (Value × List Char) :=
  match readWord? valueWords cs, readWord? ["Some"] cs with
  | some (word, rest), _ => some (.name word, rest)
  | none, some (_, rest) => inner.bind (readWrapped? bareSome · rest)
  | none, none => do
    let (name, rest) ← readName? cs
    match ← skipSpace .plain rest with
    | '(' :: rest => readParentheses? (← inner) (some name) rest
    | rest => return (.name name, rest)

def readWith? (bareSome : Bool) (inner : Option Inner) (cs : List Char) :
    Option (Value × List Char) :=
  match cs with
  | '(' :: ')' :: rest => some (.tuple none [], rest)
  | '(' :: rest => inner.bind (readParentheses? · none rest)
  | '[' :: rest =>
    inner.bind fun inner =>
      (readBracketed? inner.element ']' rest).map fun (elements, rest) => (.list elements, rest)
  | '{' :: rest =>
    inner.bind fun inner =>
      (readBracketed? (readPair? inner.element inner.element) '}' rest).map
        fun (entries, rest) => (.map entries, rest)
  | '"' :: rest => (readQuoted? [] rest).map fun (s, rest) => (.text s, rest)
  | '\'' :: rest => readChar? rest
  | cs =>
    if (readName? cs).isSome then readNamed? bareSome inner cs
    else
      match cs with
      | 'r' :: rest => (readRawText? rest).map fun (s, rest) => (.text s, rest)
      | cs => readNumber? cs

/-- A value that may be nested as deep as the limit says. -/
def readValue? (bareSome : Bool) : (limit : Nat) → List Char → Option (Value × List Char)
  | 0, cs => readWith? bareSome none cs
  | 1, cs => readWith? bareSome (some ⟨readValue? bareSome 0, fun _ => none⟩) cs
  | limit + 2, cs =>
    readWith? bareSome (some ⟨readValue? bareSome (limit + 1), readValue? bareSome limit⟩) cs

/-! ## Documents -/

def nestingLimit : Nat := 128

def features : List String := ["unwrap_newtypes", "implicit_some", "unwrap_variant_newtypes"]

def afterMarks? : (marks : List (List Char)) → List Char → Option (List Char)
  | [], cs => some cs
  | mark :: marks, cs =>
    if cs.take mark.length == mark then
      (skipSpace .plain (cs.drop mark.length)).bind (afterMarks? marks)
    else none

def readAttribute? (cs : List Char) : Option (List String × List Char) := do
  let cs ← afterMarks? [['#'], ['!'], ['['], "enable".toList, ['(']] cs
  let (names, rest) ← readElements? readName? ')' cs
  let rest ← afterMarks? [[']']] (← skipSpace .plain rest)
  if names.isEmpty || names.any (!features.contains ·) then none else some (names, rest)

def readAttributes? (cs : List Char) : Option (List String × List Char) :=
  if cs.head? == some '#' then
    match readAttribute? cs with
    | none => none
    | some (names, rest) =>
      if _shorter : rest.length < cs.length then
        (readAttributes? rest).map fun (more, rest) => (names ++ more, rest)
      else none
  else some ([], cs)
termination_by cs.length

/-- What follows the name of a record, which may be left out, and the space after it. -/
def afterRecordName? (name : String) (cs : List Char) : Option (List Char) :=
  if (cs.head?.map isNameRest).getD false then
    match readName? cs with
    | some (found, rest) => if found = name then skipSpace .plain rest else none
    | none => none
  else some cs

/-- Reads a document that holds a record with the given name or none; the fields are
answered in the order in which they stand. -/
def readRecord? (name : String) (text : List Char) : Option (List (String × Value)) := do
  let (names, cs) ← readAttributes? (← skipSpace .plain text)
  let value := readValue? (names.contains "implicit_some") (nestingLimit - 2)
  match ← afterRecordName? name cs with
  | '(' :: cs =>
    let (fields, rest) ← readBracketed? (readPair? readName? value) ')' cs
    if (← skipSpace .plain rest).isEmpty then some fields else none
  | _ => none

end Phrasebook.Ron
