import Mathlib.Data.Set.Subsingleton
import Phrasebook.Lint.Reach
import Phrasebook.Proofs.Derivation.Tree

/-!
# Traps

A trap is a set of categories out of which no choice leads: each of their alternatives that
can be chosen refers to one of them again. A name in a trap has no derivation, and where
every name referred to is defined, the names without a derivation make up a trap.
-/

namespace Phrasebook

/-- A set of names, not empty, each that of a category whose alternatives of positive weight
all refer to a name of the set. -/
structure Book.IsTrap (book : Book) (names : Set String) : Prop where
  nonempty : names.Nonempty
  closed : ∀ name ∈ names, ∃ category, book.find? name = some category ∧
    ∀ alternative ∈ category.alternatives, alternative.weight.isPositive = true →
      ∃ reference ∈ alternative.template.placeholders, reference ∈ names

variable {book : Book} {bindings : Bindings} {names : Set String}

mutual

theorem Derivation.not_mem_of_isTrap {name : String} (htrap : book.IsTrap names)
    (hfree : ∀ name ∈ names, bindings.get? name = none) :
    Derivation book bindings name → name ∉ names
  | .node category hfind i hpositive filling => by
      intro hname
      obtain ⟨other, hother, hclosed⟩ := htrap.closed name hname
      have hsame : category = other := Option.some.inj (hfind.symm.trans hother)
      subst hsame
      obtain ⟨reference, hreference, hmem⟩ := hclosed _ (List.get_mem _ i) hpositive
      exact filling.not_mem_of_isTrap htrap hfree reference hreference hmem

/-- No placeholder of a template that can be filled is in a trap. -/
theorem Filling.not_mem_of_isTrap {template : Template} (htrap : book.IsTrap names)
    (hfree : ∀ name ∈ names, bindings.get? name = none) :
    Filling book bindings template → ∀ name ∈ template.placeholders, name ∉ names
  | .nil => by
      intro name hname
      cases hname
  | .literal text tail => by
      intro name hname
      exact tail.not_mem_of_isTrap htrap hfree name hname
  | .bound text hbound tail => by
      intro name hname
      rcases List.mem_cons.1 hname with hhead | hrest
      · intro hmem
        rw [← hhead, hfree name hmem] at hbound
        cases hbound
      · exact tail.not_mem_of_isTrap htrap hfree name hrest
  | .derived _ piece tail => by
      intro name hname
      rcases List.mem_cons.1 hname with hhead | hrest
      · rw [hhead]
        exact piece.not_mem_of_isTrap htrap hfree
      · exact tail.not_mem_of_isTrap htrap hfree name hrest

end

/-- Where every reference is defined, the names that cannot be derived make up a trap. -/
theorem Book.isTrap_underivable
    (hdefined : ∀ category ∈ book.categories, ∀ name ∈ category.references,
      book.contains name = true)
    (hsome : ∃ name, book.contains name = true ∧
      ¬Nonempty (Derivation book Bindings.empty name)) :
    book.IsTrap {name | book.contains name = true ∧
      ¬Nonempty (Derivation book Bindings.empty name)} := by
  refine ⟨hsome, ?_⟩
  intro name hname
  obtain ⟨hcontains, hunderivable⟩ := hname
  obtain ⟨category, hfind⟩ := Option.isSome_iff_exists.1 hcontains
  refine ⟨category, hfind, ?_⟩
  intro alternative halternative hpositive
  -- Otherwise the alternative could be filled, and the category derived by it.
  by_contra hescape
  have hfilling : Nonempty (Filling book Bindings.empty alternative.template) := by
    refine nonempty_filling ?_
    intro reference hreference hfree
    by_contra hnone
    have hmem : reference ∈ category.references :=
      List.mem_flatMap.2 ⟨alternative, halternative, hreference⟩
    have hreferenceDefined := hdefined category (Book.mem_of_find? hfind) reference hmem
    exact hescape ⟨reference, hreference, hreferenceDefined, hnone⟩
  exact hunderivable (nonempty_derivation_iff.2
    ⟨category, hfind, alternative, halternative, hpositive, hfilling⟩)

end Phrasebook
