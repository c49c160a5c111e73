/-! # HTML text

Text in HTML stands for itself but for the five characters that mark up; these are
written as entities.
-/

namespace Phrasebook.Docs

def escapeChar (c : Char) : List Char :=
  if c = '&' then "&amp;".toList
  else if c = '<' then "&lt;".toList
  else if c = '>' then "&gt;".toList
  else if c = '"' then "&quot;".toList
  else if c = '\'' then "&#39;".toList
  else [c]

def escape (text : List Char) : List Char := text.flatMap escapeChar

/-- A text as it is written on one line of HTML: line feeds are entities too. -/
def escapeOneLine (text : List Char) : List Char :=
  (escape text).flatMap fun c => if c = '\n' then "&#10;".toList else [c]

end Phrasebook.Docs
