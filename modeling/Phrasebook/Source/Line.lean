import Phrasebook.Text.Blank

/-! # Lines of a source

A line is blank or a comment, or it is an item, a heading or an indented line. An
item is marked by a dash that stands alone or before a space or tab. A tab in the
indentation makes any line that counts unreadable.
-/

namespace Phrasebook.Source

/-- What a line is, with its parts; texts carry no blank characters at their end. -/
inductive Line where
  /-- A blank line or a comment. -/
  | blank
  /-- A line with a tab in its indentation. -/
  | tabbed
  /-- An item, with the spaces before its dash and the spaces and tabs after it. -/
  | item (indent gap : Nat) (content : List Char)
  /-- A line that is not indented. -/
  | heading (body : List Char)
  /-- A line that is indented by some spaces. -/
  | indented (indent : Nat) (body : List Char)
deriving DecidableEq

def afterMarker? : List Char → Option (List Char)
  | '-' :: [] => some []
  | '-' :: c :: rest => if Text.isIndent c then some (c :: rest) else none
  | _ => none

def Line.read (cs : List Char) : Line :=
  let leading := cs.takeWhile Text.isIndent
  let body := cs.dropWhile Text.isIndent
  if Text.isBlankText body || body.head? == some '#' then .blank
  else if leading.contains '\t' then .tabbed
  else
    match afterMarker? body with
    | some rest =>
      .item leading.length (rest.takeWhile Text.isIndent).length
        (Text.trimEnd (rest.dropWhile Text.isIndent))
    | none =>
      if leading.isEmpty then .heading (Text.trimEnd body)
      else .indented leading.length (Text.trimEnd body)

end Phrasebook.Source
