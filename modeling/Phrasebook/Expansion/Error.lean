/-! # Faults of an expansion -/

namespace Phrasebook.Expansion

inductive Error where
  /-- A category that is not in the book, and the one whose placeholder names it. -/
  | unknownCategory (name : String) (referencedFrom : Option String)
  | depthExceeded (category : String) (maxDepth : Nat)
  | noPositiveWeight (category : String)
  | expansionLimit (category : String) (limit : Nat)
deriving DecidableEq

namespace Error

def category : Error → String
  | .unknownCategory name _ => name
  | .depthExceeded category _ => category
  | .noPositiveWeight category => category
  | .expansionLimit category _ => category

def message : Error → String
  | .unknownCategory name referencedFrom =>
    let reference := match referencedFrom with
      | some parent => " (referenced from '" ++ parent ++ "')"
      | none => ""
    "unknown category '" ++ name ++ "'" ++ reference
  | .depthExceeded category maxDepth =>
    "recursion depth limit of " ++ toString maxDepth ++ " exceeded while expanding '" ++
      category ++ "'"
  | .noPositiveWeight category =>
    "category '" ++ category ++ "' has no alternative with positive weight"
  | .expansionLimit category limit =>
    "expansion limit of " ++ toString limit ++ " exceeded while expanding '" ++ category ++ "'"

end Error

end Phrasebook.Expansion
