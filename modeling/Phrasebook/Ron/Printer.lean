import Phrasebook.Decimal.Layout
import Phrasebook.Ron.Quoted
import Phrasebook.Ron.Value

/-! # Writing RON

A value is written in one of two forms: the compact one has no space at all, the
indented one puts every element on a line of its own, four spaces further in, with a
comma after each. Elements without names stand on the line of their name in both.
-/

namespace Phrasebook.Ron

/-- Numbers are written in positional form, however far the point is. -/
def numberLayout : Decimal.Layout := ⟨fun _ => true, .up⟩

def writeFloat (x : Binary64) : String :=
  if x.isNaN then "NaN"
  else if x.isInfinite then (if x.isNegative then "-inf" else "inf")
  else numberLayout.render x

mutual

def Value.compact : Value → String
  | .natural n => toString n
  | .float x => writeFloat x
  | .text s => quote s
  | .char c => "'" ++ escapeChar c ++ "'"
  | .name name => name
  | .list elements => "[" ++ compactElements elements ++ "]"
  | .map entries => "\x7b" ++ compactEntries entries ++ "\x7d"
  | .record name fields => name.getD "" ++ "(" ++ compactFields fields ++ ")"
  | .tuple name elements => name.getD "" ++ "(" ++ compactElements elements ++ ")"

def compactElements : List Value → String
  | [] => ""
  | [value] => value.compact
  | value :: values => value.compact ++ "," ++ compactElements values

def compactEntries : List (Value × Value) → String
  | [] => ""
  | [(key, value)] => key.compact ++ ":" ++ value.compact
  | (key, value) :: entries =>
    key.compact ++ ":" ++ value.compact ++ "," ++ compactEntries entries

def compactFields : List (String × Value) → String
  | [] => ""
  | [(name, value)] => name ++ ":" ++ value.compact
  | (name, value) :: fields => name ++ ":" ++ value.compact ++ "," ++ compactFields fields

end

def indentation (depth : Nat) : String := String.ofList (List.replicate (4 * depth) ' ')

def bracketed (left right : String) (depth : Nat) (lines : String) : String :=
  if lines.isEmpty then left ++ right else left ++ "\n" ++ lines ++ indentation depth ++ right

mutual

def Value.indented (depth : Nat) : Value → String
  | .natural n => toString n
  | .float x => writeFloat x
  | .text s => quote s
  | .char c => "'" ++ escapeChar c ++ "'"
  | .name name => name
  | .list elements => bracketed "[" "]" depth (indentedElements (depth + 1) elements)
  | .map entries => bracketed "\x7b" "\x7d" depth (indentedEntries (depth + 1) entries)
  | .record name fields =>
    name.getD "" ++ bracketed "(" ")" depth (indentedFields (depth + 1) fields)
  | .tuple name elements => name.getD "" ++ "(" ++ inlineElements depth elements ++ ")"

def indentedElements (depth : Nat) : List Value → String
  | [] => ""
  | value :: values =>
    indentation depth ++ value.indented depth ++ ",\n" ++ indentedElements depth values

def indentedEntries (depth : Nat) : List (Value × Value) → String
  | [] => ""
  | (key, value) :: entries =>
    indentation depth ++ key.indented depth ++ ": " ++ value.indented depth ++ ",\n" ++
      indentedEntries depth entries

def indentedFields (depth : Nat) : List (String × Value) → String
  | [] => ""
  | (name, value) :: fields =>
    indentation depth ++ name ++ ": " ++ value.indented depth ++ ",\n" ++
      indentedFields depth fields

def inlineElements (depth : Nat) : List Value → String
  | [] => ""
  | [value] => value.indented depth
  | value :: values => value.indented depth ++ ", " ++ inlineElements depth values

end

end Phrasebook.Ron
