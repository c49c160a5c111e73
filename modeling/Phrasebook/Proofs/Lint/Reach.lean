import Mathlib.Data.Set.Basic
import Mathlib.Tactic.Tauto
import Phrasebook.Lint.Report
import Phrasebook.Proofs.Book.Entries

/-!
# What a search reaches

The names that a search reaches hold its start, and with the name of a category all that the
category refers to. While the search goes on, what was seen refers to nothing but what was seen
as well or waits in the queue, and nothing waits at its end.
-/

namespace Phrasebook

/-- A set of names that has, with the name of a category, all that the category refers to. -/
def Book.IsReferenceClosed (book : Book) (names : Set String) : Prop :=
  ∀ name ∈ names, ∀ category, book.find? name = some category →
    ∀ reference ∈ category.references, reference ∈ names

namespace Lint

theorem mem_addName_iff {name other : String} {names : List String} :
    other ∈ addName name names ↔ other = name ∨ other ∈ names := by
  induction names with
  | nil => simp [addName, Ascending.insert]
  | cons first names ih =>
      unfold addName Ascending.insert
      split
      · simp
      · split
        · next hsame =>
          have hfirst : name = first := hsame
          simp [hfirst]
        · rw [List.mem_cons, List.mem_cons, ← addName, ih]
          exact or_left_comm

theorem find?_without_of_ne {name other : String} (hne : other ≠ name)
    (categories : List Category) :
    (without name categories).find? (·.name == other) = categories.find? (·.name == other) := by
  rw [without, List.find?_filter]
  congr 1
  funext category
  by_cases hname : category.name = other
  · simp [hname, hne]
  · simp [hname]

/-! ## One step of a search -/

section
variable {unvisited : List Category} {name : String} (queue seen : List String)

theorem visit_nil (unvisited : List Category) (seen : List String) :
    visit unvisited [] seen = seen := by
  rw [visit]

theorem visit_of_find?_eq_none (hnone : unvisited.find? (·.name == name) = none) :
    visit unvisited (name :: queue) seen = visit unvisited queue (addName name seen) := by
  rw [visit]
  split
  · rfl
  · next hsome =>
    rw [hnone] at hsome
    cases hsome

theorem visit_of_find?_eq_some {category : Category}
    (hsome : unvisited.find? (·.name == name) = some category) :
    visit unvisited (name :: queue) seen =
      visit (without name unvisited) (category.references ++ queue) (addName name seen) := by
  rw [visit]
  split
  · next hnone =>
    rw [hsome] at hnone
    cases hnone
  · next hother =>
    rw [hsome] at hother
    cases hother
    rfl

end

/-- What holds of a search whenever it goes on: the categories not visited are those of the
names not seen, and what a name that was seen refers to was seen as well or waits. -/
structure IsSearch (book : Book) (unvisited : List Category) (queue seen : List String) :
    Prop where
  unseen : ∀ name, name ∉ seen → unvisited.find? (·.name == name) = book.find? name
  followed : ∀ name ∈ seen, ∀ category, book.find? name = some category →
    ∀ reference ∈ category.references, reference ∈ seen ∨ reference ∈ queue

theorem isSearch_start (book : Book) (start : String) :
    IsSearch book book.categories [start] [] where
  unseen _ _ := rfl
  followed name hname := by cases hname

section
variable {book : Book} {unvisited : List Category} {name : String} {queue seen : List String}

/-- A name under which nothing is left to visit has no category, or it was seen before. -/
theorem IsSearch.skip (hsearch : IsSearch book unvisited (name :: queue) seen)
    (hnone : unvisited.find? (·.name == name) = none) :
    IsSearch book unvisited queue (addName name seen) where
  unseen other hother := by
    rw [mem_addName_iff, not_or] at hother
    exact hsearch.unseen other hother.2
  followed other hother category hfind reference hreference := by
    have hseen : other ∈ seen := by
      rcases mem_addName_iff.1 hother with rfl | hseen
      · by_contra hunseen
        rw [hsearch.unseen other hunseen, hfind] at hnone
        cases hnone
      · exact hseen
    rw [mem_addName_iff]
    rcases hsearch.followed other hseen category hfind reference hreference with hmem | hmem
    · exact .inl (.inr hmem)
    · exact (List.mem_cons.1 hmem).imp .inl id

theorem IsSearch.visit {category : Category}
    (hsearch : IsSearch book unvisited (name :: queue) seen)
    (hsome : unvisited.find? (·.name == name) = some category) :
    IsSearch book (without name unvisited) (category.references ++ queue) (addName name seen) where
  unseen other hother := by
    rw [mem_addName_iff, not_or] at hother
    rw [find?_without_of_ne hother.1]
    exact hsearch.unseen other hother.2
  followed other hother found hfind reference hreference := by
    rw [mem_addName_iff, List.mem_append]
    by_cases hseen : other ∈ seen
    · rcases hsearch.followed other hseen found hfind reference hreference with hmem | hmem
      · exact .inl (.inr hmem)
      · exact (List.mem_cons.1 hmem).imp .inl .inr
    · obtain rfl : other = name := (mem_addName_iff.1 hother).resolve_right hseen
      rw [hsearch.unseen other hseen, hfind] at hsome
      cases hsome
      exact .inr (.inl hreference)

end

/-! ## Whole searches -/

theorem mem_visit {unvisited : List Category} {queue seen : List String} {name : String}
    (hname : name ∈ queue ∨ name ∈ seen) : name ∈ visit unvisited queue seen := by
  induction unvisited, queue, seen using visit.induct with
  | case1 unvisited seen =>
      rw [visit_nil]
      simpa using hname
  | case2 unvisited seen first queue hnone ih =>
      rw [visit_of_find?_eq_none queue seen hnone]
      apply ih
      rw [mem_addName_iff]
      rw [List.mem_cons] at hname
      tauto
  | case3 unvisited seen first queue category hsome _ ih =>
      rw [visit_of_find?_eq_some queue seen hsome]
      apply ih
      rw [mem_addName_iff, List.mem_append]
      rw [List.mem_cons] at hname
      tauto

theorem isReferenceClosed_visit {book : Book} {unvisited : List Category}
    {queue seen : List String} (hsearch : IsSearch book unvisited queue seen) :
    book.IsReferenceClosed {name | name ∈ visit unvisited queue seen} := by
  induction unvisited, queue, seen using visit.induct with
  | case1 unvisited seen =>
      intro name hname category hfind reference hreference
      rw [visit_nil] at hname ⊢
      simpa using hsearch.followed name hname category hfind reference hreference
  | case2 unvisited seen first queue hnone ih =>
      rw [visit_of_find?_eq_none queue seen hnone]
      exact ih (hsearch.skip hnone)
  | case3 unvisited seen first queue category hsome _ ih =>
      rw [visit_of_find?_eq_some queue seen hsome]
      exact ih (hsearch.visit hsome)

theorem mem_reachableFrom_start (book : Book) (start : String) :
    start ∈ reachableFrom book start :=
  mem_visit (.inl List.mem_cons_self)

theorem isReferenceClosed_reachableFrom (book : Book) (start : String) :
    book.IsReferenceClosed {name | name ∈ reachableFrom book start} :=
  isReferenceClosed_visit (isSearch_start book start)

/-- No warning of few alternatives is one of a category that is not reached. -/
theorem ne_unreachable_of_mem_filterMap {book : Book} {options : Options} {warning : Warning}
    (hwarning : warning ∈ book.categories.filterMap (fewAlternatives? options))
    (category start : String) : warning ≠ .unreachable category start := by
  rintro rfl
  obtain ⟨found, -, hfound⟩ := List.mem_filterMap.1 hwarning
  unfold fewAlternatives? at hfound
  dsimp only at hfound
  split at hfound <;> cases hfound

/-- What a check calls unreachable is not among the names reached. -/
theorem not_mem_reachableFrom_of_unreachable {book : Book} {options : Options}
    {name start : String} (hwarning : .unreachable name start ∈ (check book options).warnings) :
    name ∉ reachableFrom book options.start := by
  rcases List.mem_append.1 hwarning with hfew | hunreachable
  · exact (ne_unreachable_of_mem_filterMap hfew name start rfl).elim
  · unfold unreachableWarnings at hunreachable
    split at hunreachable
    · obtain ⟨other, hother, hsame⟩ := List.mem_map.1 hunreachable
      cases hsame
      simpa using (List.mem_filter.1 hother).2
    · cases hunreachable

end Lint

end Phrasebook
