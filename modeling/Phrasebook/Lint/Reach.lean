import Phrasebook.Book.Basic

/-! # Reachable names

A name is reachable from a start when a chain of placeholders leads to it. Names that
the book does not define are reachable as well, but nothing lies beyond them.
-/

namespace Phrasebook

def Category.references (category : Category) : List String :=
  category.alternatives.flatMap fun a => a.template.placeholders

namespace Lint

def addName (name : String) (names : List String) : List String :=
  Ascending.insert id name names

def without (name : String) (categories : List Category) : List Category :=
  categories.filter (·.name != name)

theorem length_without_lt {name : String} {category : Category} {categories : List Category}
    (h : categories.find? (·.name == name) = some category) :
    (without name categories).length < categories.length :=
  List.length_filter_lt_length_iff_exists.2
    ⟨category, List.mem_of_find?_eq_some h, by simpa using List.find?_some h⟩

/-- Visits the names of a queue and all that follows from them; `unvisited` holds the
categories not met so far and `seen` the names met. -/
def visit (unvisited : List Category) (queue seen : List String) : List String :=
  match queue with
  | [] => seen
  | name :: queue =>
    match h : unvisited.find? (·.name == name) with
    | none => visit unvisited queue (addName name seen)
    | some category =>
      have _fewer := length_without_lt h
      visit (without name unvisited) (category.references ++ queue) (addName name seen)
termination_by (unvisited.length, queue.length)
decreasing_by
  · exact Prod.Lex.right _ (Nat.lt_succ_self _)
  · exact Prod.Lex.left _ _ _fewer

def reachableFrom (book : Book) (start : String) : List String :=
  visit book.categories [start] []

end Lint

end Phrasebook
