import Phrasebook.Decimal.Layout

/-! # JSON text

Texts, numbers and their collections as JSON writes them. Numbers from `1e-5` up to
below `1e16` are written in positional form, all others with an exponent.
-/

namespace Phrasebook.Json

def hexDigit (n : Nat) : Char := Nat.digitChar (n % 16)

def escapeChar (c : Char) : String :=
  if c = '"' then "\\\""
  else if c = '\\' then "\\\\"
  else if c = '\n' then "\\n"
  else if c = '\r' then "\\r"
  else if c = '\t' then "\\t"
  else if c.toNat = 8 then "\\b"
  else if c.toNat = 12 then "\\f"
  else if c.toNat < 32 then
    "\\u00" ++ (hexDigit (c.toNat / 16)).toString ++ (hexDigit c.toNat).toString
  else c.toString

def quote (s : String) : String := "\"" ++ String.join (s.toList.map escapeChar) ++ "\""

/-- The point stands among the digits, up to four zeros before them, or after zeros that
fill up to sixteen places; of two equally near decimals the even one is taken. -/
def numberLayout : Decimal.Layout := ⟨fun point => -5 < point && point ≤ 16, .even⟩

def number (x : Binary64) : String := numberLayout.render x

def object (members : List (String × String)) : String :=
  "\x7b" ++ ",".intercalate (members.map fun m => quote m.1 ++ ":" ++ m.2) ++ "\x7d"

def array (elements : List String) : String := "[" ++ ",".intercalate elements ++ "]"

end Phrasebook.Json
