import Phrasebook.Proofs.Lint.Reach

/-!
# Checks of tables

A table lists the categories of a book in an order that says nothing of them, as a table that is
hashed does. A check that goes by the sorted names of a table, and looks up every category under
its name, says the same of all these orders.
-/

namespace Phrasebook

namespace Lint

def sortedNames (table : List Category) : List String :=
  (table.map (·.name)).mergeSort fun a b => decide (a ≤ b)

def lookUp (table : List Category) (name : String) : Option Category :=
  table.find? (·.name == name)

/-- Checks the book that a table holds, reading the table by its sorted names and by look-ups
alone. -/
def checkTable (table : List Category) (options : Options) : Report :=
  let isDefined := fun name => (lookUp table name).isSome
  let categories := (sortedNames table).filterMap (lookUp table)
  let reachable := visit table [options.start] []
  { errors :=
      (if isDefined options.start then [] else [.undefinedStart options.start]) ++
      categories.flatMap (categoryErrors isDefined)
    warnings :=
      categories.filterMap (fewAlternatives? options) ++
      if isDefined options.start then
        ((sortedNames table).filter (!reachable.contains ·)).map (.unreachable · options.start)
      else [] }

/-- A search looks categories up only, so it does not see their order. -/
theorem visit_eq_of_perm {table other : List Category} (hperm : table.Perm other)
    (hnames : (table.map (·.name)).Nodup) (queue seen : List String) :
    visit table queue seen = visit other queue seen := by
  induction table, queue, seen using visit.induct generalizing other with
  | case1 unvisited seen => rw [visit_nil, visit_nil]
  | case2 unvisited seen name queue hnone ih =>
      have hsame := find?_eq_of_perm hperm hnames name
      rw [visit_of_find?_eq_none _ _ hnone, visit_of_find?_eq_none _ _ (hsame.symm.trans hnone)]
      exact ih hperm hnames
  | case3 unvisited seen name queue category hsome _ ih =>
      have hsame := find?_eq_of_perm hperm hnames name
      have hleft : ((without name unvisited).map (·.name)).Nodup :=
        hnames.sublist (List.filter_sublist.map _)
      rw [visit_of_find?_eq_some _ _ hsome, visit_of_find?_eq_some _ _ (hsame.symm.trans hsome)]
      exact ih (hperm.filter _) hleft

section
variable {book : Book} {table : List Category} (htable : table.Perm book.categories)
include htable

theorem nodup_names_of_perm : (table.map (·.name)).Nodup :=
  (htable.map _).nodup_iff.2 book.ascending.nodup

theorem lookUp_eq (name : String) : lookUp table name = book.find? name :=
  find?_eq_of_perm htable (nodup_names_of_perm htable) name

theorem sortedNames_eq : sortedNames table = book.names := by
  have hdistinct : ((table.map (·.name)).map id).Nodup := by
    rw [List.map_id]
    exact nodup_names_of_perm htable
  have hsorted : Ascending id (sortedNames table) := pairwise_mergeSort_place (by simp) hdistinct
  have hnames : Ascending id book.names := List.pairwise_map.2 book.ascending
  refine hsorted.eq_of_mem_iff hnames fun name => ?_
  rw [sortedNames, List.mem_mergeSort, (htable.map _).mem_iff, Book.names]

theorem checkTable_eq (options : Options) : checkTable table options = check book options := by
  have hlookUp : lookUp table = book.find? := funext (lookUp_eq htable)
  have hcategories : book.names.filterMap book.find? = book.categories := by
    rw [Book.names, List.filterMap_map]
    refine (List.filterMap_congr fun category hmem => ?_).trans List.filterMap_some
    exact Book.mem_categories_iff.1 hmem
  have hreached := visit_eq_of_perm htable (nodup_names_of_perm htable) [options.start] []
  have hdefined : (fun name => (book.find? name).isSome) = book.contains := rfl
  simp only [checkTable, sortedNames_eq htable, hlookUp, hcategories, hreached, hdefined]
  rfl

end

end Lint

end Phrasebook
