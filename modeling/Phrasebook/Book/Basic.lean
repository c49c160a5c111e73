import Phrasebook.Ascending
import Phrasebook.Binary64.Arithmetic
import Phrasebook.Template.Basic

/-! # Phrase books

A phrase book is a set of named categories, each a list of weighted alternatives,
together with the settings for playing it. The categories are kept in ascending
order of their names, each name once, so two books with the same entries are the
same book.
-/

namespace Phrasebook

structure Alternative where
  weight : Binary64
  template : Template
deriving DecidableEq, Inhabited

structure Category where
  name : String
  alternatives : List Alternative
deriving DecidableEq, Inhabited

namespace Category

def weights (category : Category) : List Binary64 := category.alternatives.map (·.weight)

def totalWeight (category : Category) : Binary64 := Binary64.sum category.weights

end Category

/-- How playing goes on once the duration has elapsed: over again, or no further. -/
inductive Animation where
  | bounce
  | once
deriving DecidableEq, Inhabited

namespace Animation

def name : Animation → String
  | .bounce => "bounce"
  | .once => "once"

def ofName? (name : String) : Option Animation :=
  if name = "bounce" then some .bounce
  else if name = "once" then some .once
  else none

end Animation

structure Preamble where
  duration : Binary64
  animation : Animation
deriving DecidableEq, Inhabited

namespace Preamble

def isDuration (seconds : Binary64) : Bool := seconds.isFinite && seconds.isPositive

def default : Preamble := ⟨.two, .bounce⟩

end Preamble

structure Book where
  categories : List Category
  preamble : Preamble
  ascending : Ascending Category.name categories

namespace Book

def empty (preamble : Preamble) : Book := ⟨[], preamble, List.Pairwise.nil⟩

/-- The book with one category more, instead of one with the same name. -/
def insert (book : Book) (category : Category) : Book :=
  ⟨Ascending.insert Category.name category book.categories, book.preamble,
    Ascending.ascending_insert category book.ascending⟩

/-- The book of the given categories; of two with the same name the later one stays. -/
def ofCategories (categories : List Category) (preamble : Preamble) : Book :=
  categories.foldl insert (empty preamble)

def find? (book : Book) (name : String) : Option Category :=
  book.categories.find? (·.name == name)

theorem find?_insert_self (book : Book) (category : Category) :
    (book.insert category).find? category.name = some category :=
  Ascending.find?_insert_self Category.name category book.categories

theorem find?_insert_of_ne (book : Book) {category : Category} {name : String}
    (h : category.name ≠ name) : (book.insert category).find? name = book.find? name :=
  Ascending.find?_insert_of_ne h book.categories

def contains (book : Book) (name : String) : Bool := (book.find? name).isSome

def size (book : Book) : Nat := book.categories.length

def names (book : Book) : List String := book.categories.map (·.name)

end Book

end Phrasebook
