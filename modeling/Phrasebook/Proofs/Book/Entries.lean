import Phrasebook.Book.Basic
import Phrasebook.Proofs.Ascending

/-!
# Entries of a book

A book is its set of categories and its preamble, and each category is found under its
name. A book made of categories with different names has exactly these.
-/

namespace Phrasebook

namespace Book

theorem eq_of_mem_iff {book other : Book} (hpreamble : book.preamble = other.preamble)
    (hmem : ∀ category, category ∈ book.categories ↔ category ∈ other.categories) :
    book = other := by
  obtain ⟨categories, preamble, hascending⟩ := book
  obtain ⟨others, preamble', hascending'⟩ := other
  obtain rfl : categories = others := hascending.eq_of_mem_iff hascending' hmem
  obtain rfl : preamble = preamble' := hpreamble
  rfl

theorem name_of_find? {book : Book} {name : String} {category : Category}
    (hfind : book.find? name = some category) : category.name = name := by
  simpa using List.find?_some hfind

theorem mem_of_find? {book : Book} {name : String} {category : Category}
    (hfind : book.find? name = some category) : category ∈ book.categories :=
  List.mem_of_find?_eq_some hfind

theorem mem_categories_iff {book : Book} {category : Category} :
    category ∈ book.categories ↔ book.find? category.name = some category :=
  ⟨book.ascending.find?_of_mem, mem_of_find?⟩

/-! ## Books made of categories -/

theorem find?_foldl_insert_of_not_mem {categories : List Category} {name : String}
    (hname : name ∉ categories.map Category.name) (book : Book) :
    (categories.foldl insert book).find? name = book.find? name := by
  induction categories generalizing book with
  | nil => rfl
  | cons category categories ih =>
      obtain ⟨hne, hrest⟩ : name ≠ category.name ∧ name ∉ categories.map Category.name := by
        simpa using hname
      rw [List.foldl_cons, ih hrest, find?_insert_of_ne _ hne.symm]

theorem find?_foldl_insert_of_mem {categories : List Category} {category : Category}
    (hnames : (categories.map Category.name).Nodup) (hmem : category ∈ categories) (book : Book) :
    (categories.foldl insert book).find? category.name = some category := by
  induction categories generalizing book with
  | nil => cases hmem
  | cons first categories ih =>
      obtain ⟨hfirst, hrest⟩ := List.nodup_cons.1 (List.map_cons ▸ hnames)
      rw [List.foldl_cons]
      rcases List.mem_cons.1 hmem with rfl | hmem
      · rw [find?_foldl_insert_of_not_mem hfirst, find?_insert_self]
      · exact ih hrest hmem _

theorem preamble_foldl_insert (categories : List Category) (book : Book) :
    (categories.foldl insert book).preamble = book.preamble := by
  induction categories generalizing book with
  | nil => rfl
  | cons category categories ih => exact ih (book.insert category)

theorem preamble_ofCategories (categories : List Category) (preamble : Preamble) :
    (ofCategories categories preamble).preamble = preamble :=
  preamble_foldl_insert categories (empty preamble)

theorem mem_ofCategories {categories : List Category}
    (hnames : (categories.map Category.name).Nodup) (preamble : Preamble) (category : Category) :
    category ∈ (ofCategories categories preamble).categories ↔ category ∈ categories := by
  rw [mem_categories_iff, ofCategories]
  constructor
  · intro hfind
    by_cases hname : category.name ∈ categories.map Category.name
    · obtain ⟨other, hother, hsame⟩ := List.mem_map.1 hname
      rw [← hsame, find?_foldl_insert_of_mem hnames hother] at hfind
      exact Option.some.inj hfind ▸ hother
    · rw [find?_foldl_insert_of_not_mem hname] at hfind
      cases hfind
  · exact fun hmem => find?_foldl_insert_of_mem hnames hmem _

end Book

end Phrasebook
