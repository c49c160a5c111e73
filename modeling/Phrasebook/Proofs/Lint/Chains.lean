import Mathlib.Logic.Relation
import Phrasebook.Proofs.Lint.Reach

/-!
# Chains of references

A name refers to another where an alternative of its category has a placeholder of that, whether
or not the alternative can be drawn. A search reaches a name exactly when a chain of such
references leads there: it meets nothing else, and what it has met at its end is closed.
-/

namespace Phrasebook

namespace Book

/-- An alternative of the category with the first name, of any weight, has a placeholder of the
second. -/
def RefersTo (book : Book) (name reference : String) : Prop :=
  ∃ category, book.find? name = some category ∧
    ∃ alternative ∈ category.alternatives, reference ∈ alternative.template.placeholders

def LeadsTo (book : Book) : String → String → Prop := Relation.ReflTransGen book.RefersTo

theorem refersTo_iff {book : Book} {name reference : String} :
    book.RefersTo name reference ↔
      ∃ category, book.find? name = some category ∧ reference ∈ category.references := by
  simp only [RefersTo, Category.references, List.mem_flatMap]

theorem refersTo_of_mem {book : Book} {category : Category} (hmem : category ∈ book.categories)
    {reference : String} (hreference : reference ∈ category.references) :
    book.RefersTo category.name reference :=
  refersTo_iff.2 ⟨category, mem_categories_iff.1 hmem, hreference⟩

/-- A closed set holds with a name all that a chain leads to from there. -/
theorem IsReferenceClosed.mem_of_leadsTo {book : Book} {names : Set String}
    (hclosed : book.IsReferenceClosed names) {start name : String} (hstart : start ∈ names)
    (hchain : book.LeadsTo start name) : name ∈ names := by
  induction hchain with
  | refl => exact hstart
  | tail _ hrefers ih =>
      obtain ⟨category, hfind, hreference⟩ := refersTo_iff.1 hrefers
      exact hclosed _ ih category hfind _ hreference

end Book

namespace Lint

theorem ascending_addName {names : List String} (hnames : Ascending id names) (name : String) :
    Ascending id (addName name names) :=
  Ascending.ascending_insert name hnames

theorem ascending_visit {unvisited : List Category} {queue seen : List String}
    (hseen : Ascending id seen) : Ascending id (visit unvisited queue seen) := by
  induction unvisited, queue, seen using visit.induct with
  | case1 unvisited seen => rwa [visit_nil]
  | case2 unvisited seen first queue hnone ih =>
      rw [visit_of_find?_eq_none queue seen hnone]
      exact ih (ascending_addName hseen first)
  | case3 unvisited seen first queue category hsome _ ih =>
      rw [visit_of_find?_eq_some queue seen hsome]
      exact ih (ascending_addName hseen first)

/-- A search that a chain has led to everywhere so far meets nothing else. -/
theorem leadsTo_of_mem_visit {book : Book} {start : String} {unvisited : List Category}
    {queue seen : List String} (hunvisited : ∀ category ∈ unvisited, category ∈ book.categories)
    (hqueue : ∀ name ∈ queue, book.LeadsTo start name)
    (hseen : ∀ name ∈ seen, book.LeadsTo start name) {name : String}
    (hname : name ∈ visit unvisited queue seen) : book.LeadsTo start name := by
  induction unvisited, queue, seen using visit.induct with
  | case1 unvisited seen =>
      rw [visit_nil] at hname
      exact hseen name hname
  | case2 unvisited seen first queue hnone ih =>
      obtain ⟨hfirst, hrest⟩ := List.forall_mem_cons.1 hqueue
      rw [visit_of_find?_eq_none queue seen hnone] at hname
      refine ih hunvisited hrest (fun other hother => ?_) hname
      rcases mem_addName_iff.1 hother with rfl | hother
      · exact hfirst
      · exact hseen other hother
  | case3 unvisited seen first queue category hsome _ ih =>
      obtain ⟨hfirst, hrest⟩ := List.forall_mem_cons.1 hqueue
      have hmem : category ∈ book.categories := hunvisited _ (List.mem_of_find?_eq_some hsome)
      obtain rfl : category.name = first := by simpa using List.find?_some hsome
      rw [visit_of_find?_eq_some queue seen hsome] at hname
      refine ih (fun other hother => hunvisited other (List.mem_filter.1 hother).1)
        (fun other hother => ?_) (fun other hother => ?_) hname
      · rcases List.mem_append.1 hother with hother | hother
        · exact hfirst.tail (Book.refersTo_of_mem hmem hother)
        · exact hrest other hother
      · rcases mem_addName_iff.1 hother with rfl | hother
        · exact hfirst
        · exact hseen other hother

section
variable (book : Book) (start : String)

theorem ascending_reachableFrom : Ascending id (reachableFrom book start) :=
  ascending_visit List.Pairwise.nil

/-- What is reached from a start is what a chain leads to from there. -/
theorem mem_reachableFrom_iff {name : String} :
    name ∈ reachableFrom book start ↔ book.LeadsTo start name := by
  constructor
  · refine leadsTo_of_mem_visit (fun _ hmem => hmem) (fun other hother => ?_)
      (fun other hother => by cases hother)
    rw [List.mem_singleton.1 hother]
    exact Relation.ReflTransGen.refl
  · exact (isReferenceClosed_reachableFrom book start).mem_of_leadsTo
      (mem_reachableFrom_start book start)

end

/-! ## Warnings -/

theorem ascending_names (book : Book) : Ascending id book.names :=
  List.pairwise_map.2 book.ascending

theorem mem_names_iff {book : Book} {name : String} :
    name ∈ book.names ↔ book.contains name = true := by
  rw [Book.contains, Option.isSome_iff_exists, Book.names, List.mem_map]
  constructor
  · rintro ⟨category, hmem, rfl⟩
    exact ⟨category, Book.mem_categories_iff.1 hmem⟩
  · rintro ⟨category, hfind⟩
    exact ⟨category, Book.mem_of_find? hfind, Book.name_of_find? hfind⟩

/-- What a check warns of as unreachable are the categories that no chain leads to from the start,
when that is one, once each and in ascending order. -/
theorem exists_unreachableWarnings_eq (book : Book) (options : Options) :
    ∃ names : List String,
      unreachableWarnings book options = names.map (.unreachable · options.start) ∧
      names.Pairwise (· < ·) ∧
      ∀ name, name ∈ names ↔ book.contains options.start = true ∧ book.contains name = true ∧
        ¬book.LeadsTo options.start name := by
  unfold unreachableWarnings
  split
  · next hstart =>
    refine ⟨_, rfl, (ascending_names book).filter _, fun name => ?_⟩
    rw [and_iff_right hstart, List.mem_filter, mem_names_iff, ← mem_reachableFrom_iff,
      ← List.contains_iff_mem, Bool.not_eq_true']
    simp
  · next hstart => exact ⟨[], rfl, List.Pairwise.nil, by simp [hstart]⟩

/-- A check from a category warns, after the warnings of another kind, of the categories that no
chain leads to from there, once each and in ascending order. -/
theorem exists_warnings_eq {book : Book} (options : Options)
    (hstart : book.contains options.start = true) :
    ∃ (others : List Warning) (names : List String), (check book options).warnings =
        others ++ names.map (.unreachable · options.start) ∧
      (∀ warning ∈ others, ∀ category start, warning ≠ .unreachable category start) ∧
      names.Pairwise (· < ·) ∧
      ∀ name, name ∈ names ↔
        book.contains name = true ∧ ¬book.LeadsTo options.start name := by
  obtain ⟨names, hwarnings, hascending, hnames⟩ := exists_unreachableWarnings_eq book options
  refine ⟨book.categories.filterMap (fewAlternatives? options), names, ?_,
    fun _ hwarning => ne_unreachable_of_mem_filterMap hwarning, hascending, fun name => ?_⟩
  · rw [check, hwarnings]
  · rw [hnames, and_iff_right hstart]

end Lint

end Phrasebook
