/-! # Names

Categories and placeholders are named by `[A-Za-z_][A-Za-z0-9_-]*`.
-/

namespace Phrasebook.Name

def isStart (c : Char) : Bool := c.isAlpha || c == '_'

def isRest (c : Char) : Bool := c.isAlphanum || c == '_' || c == '-'

def isValid : List Char → Bool
  | [] => false
  | c :: cs => isStart c && cs.all isRest

end Phrasebook.Name
