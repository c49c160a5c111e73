import Phrasebook.Lint.Reach

/-! # Checking books

The faults of a book that generation would meet, and what is merely suspicious in it.
Categories are checked in ascending order of their names.
-/

namespace Phrasebook.Lint

inductive Error where
  | undefinedStart (start : String)
  | noPositiveWeight (category : String)
  | undefinedReference (category reference : String)
  | endlessRecursion (category : String)
deriving DecidableEq

def Error.message : Error → String
  | .undefinedStart start => "start category '" ++ start ++ "' is not defined"
  | .noPositiveWeight category =>
    "Category '" ++ category ++ "' has no alternative with positive weight"
  | .undefinedReference category reference =>
    "Category '" ++ category ++ "' references undefined category '" ++ reference ++ "'"
  | .endlessRecursion category =>
    "Category '" ++ category ++ "' has no non-recursive alternative (infinite recursion)"

inductive Warning where
  | fewAlternatives (category : String) (count minimum : Nat)
  | unreachable (category start : String)
deriving DecidableEq

def Warning.message : Warning → String
  | .fewAlternatives category count minimum =>
    "Category '" ++ category ++ "' has only " ++ toString count ++ " alternatives (minimum " ++
      toString minimum ++ " recommended)"
  | .unreachable category start =>
    "Category '" ++ category ++ "' is unreachable from '" ++ start ++ "'"

structure Report where
  errors : List Error
  warnings : List Warning

structure Options where
  start : String
  minAlternatives : Nat

def Options.default : Options := ⟨"root", 2⟩

def undefinedReferences (isDefined : String → Bool) (category : Category) : List String :=
  (category.references.filter (!isDefined ·)).foldl (fun names name => addName name names) []

/-- Whether every alternative that can be chosen refers to the category itself. -/
def alwaysRecurs (category : Category) : Bool :=
  (category.alternatives.filter (·.weight.isPositive)).all fun a =>
    a.template.placeholders.contains category.name

def categoryErrors (isDefined : String → Bool) (category : Category) : List Error :=
  let total := category.totalWeight
  (if total.le .zero then [.noPositiveWeight category.name] else []) ++
  (undefinedReferences isDefined category).map (.undefinedReference category.name) ++
  (if alwaysRecurs category && total.isPositive then [.endlessRecursion category.name] else [])

def fewAlternatives? (options : Options) (category : Category) : Option Warning :=
  let count := category.alternatives.length
  if count < options.minAlternatives then
    some (.fewAlternatives category.name count options.minAlternatives)
  else none

def unreachableWarnings (book : Book) (options : Options) : List Warning :=
  if book.contains options.start then
    let reachable := reachableFrom book options.start
    (book.names.filter (!reachable.contains ·)).map (.unreachable · options.start)
  else []

def check (book : Book) (options : Options) : Report where
  errors :=
    (if book.contains options.start then [] else [.undefinedStart options.start]) ++
    book.categories.flatMap (categoryErrors book.contains)
  warnings :=
    book.categories.filterMap (fewAlternatives? options) ++ unreachableWarnings book options

end Phrasebook.Lint
