import Phrasebook.Binary64.Basic

/-! # RON values

RON is the notation of configuration files and of dumps. Beside numbers, texts, lists
and maps it has bare names, and parentheses that hold either fields or elements, after an
optional name.
-/

namespace Phrasebook.Ron

inductive Value where
  /-- A whole number written without a sign that fits 64 binary digits. -/
  | natural (n : Nat)
  /-- Any other number. -/
  | float (x : Binary64)
  | text (s : String)
  | char (c : Char)
  | name (name : String)
  | list (elements : List Value)
  | map (entries : List (Value × Value))
  | record (name : Option String) (fields : List (String × Value))
  | tuple (name : Option String) (elements : List Value)
deriving Inhabited

end Phrasebook.Ron
