import Phrasebook.Proofs.Derivation.Trap
import Phrasebook.Proofs.Lint.Safety

/-!
# Checked books and derivations

The check for endless recursion looks at one category at a time, so it finds exactly the
traps of a single name. A book without errors has a derivation of every category when, and
only when, it has no trap of several names.
-/

namespace Phrasebook

theorem Lint.alwaysRecurs_iff {category : Category} :
    alwaysRecurs category = true ↔
      ∀ alternative ∈ category.alternatives, alternative.weight.isPositive = true →
        category.name ∈ alternative.template.placeholders := by
  simp only [alwaysRecurs, List.all_eq_true, List.mem_filter, List.contains_iff_mem, and_imp]

/-- A category is a trap by itself when all that can be chosen in it refers to itself. -/
theorem Book.isTrap_singleton_iff {book : Book} {category : Category}
    (hmem : category ∈ book.categories) :
    book.IsTrap {category.name} ↔ Lint.alwaysRecurs category = true := by
  have hfind := mem_categories_iff.1 hmem
  constructor
  · intro htrap
    obtain ⟨other, hother, hclosed⟩ := htrap.closed category.name rfl
    have hsame : category = other := Option.some.inj (hfind.symm.trans hother)
    subst hsame
    simpa [Lint.alwaysRecurs_iff] using hclosed
  · intro hrecurs
    refine ⟨Set.singleton_nonempty _, ?_⟩
    intro name hname
    obtain rfl : name = category.name := hname
    exact ⟨category, hfind, by simpa [Lint.alwaysRecurs_iff] using hrecurs⟩

theorem Lint.alwaysRecurs_eq_false {book : Book} {options : Options} {category : Category}
    (herrors : (check book options).errors = []) (hmem : category ∈ book.categories)
    (hweights : ∀ w ∈ category.weights, w.IsNonneg) : alwaysRecurs category = false := by
  have hpositive : category.totalWeight.isPositive = true :=
    (isPositive_totalWeight_iff hweights).2 (exists_isPositive_weight herrors hmem hweights)
  have hnone := categoryErrors_eq_nil herrors hmem
  rw [categoryErrors, List.append_eq_nil_iff] at hnone
  simpa [hpositive] using hnone.2

/-- A book that was read and in which a check finds no errors has a derivation of every
category exactly when it has no trap of more than one name. -/
theorem Book.forall_nonempty_derivation_iff {text : String} {book : Book} {options : Lint.Options}
    (hparse : Source.parse text = .ok book) (herrors : (Lint.check book options).errors = []) :
    (∀ category ∈ book.categories, Nonempty (Derivation book Bindings.empty category.name)) ↔
      ∀ names, book.IsTrap names → ¬names.Nontrivial := by
  constructor
  · intro hderivable names htrap _
    obtain ⟨name, hname⟩ := htrap.nonempty
    obtain ⟨category, hfind, -⟩ := htrap.closed name hname
    obtain ⟨tree⟩ := hderivable category (mem_of_find? hfind)
    rw [← name_of_find? hfind] at hname
    exact tree.not_mem_of_isTrap htrap (fun _ _ => rfl) hname
  · intro hsmall category hmem
    by_contra hunderivable
    have hcontains : book.contains category.name = true :=
      Option.isSome_iff_exists.2 ⟨category, mem_categories_iff.1 hmem⟩
    have htrap := Book.isTrap_underivable (Book.isClosed_of_errors_eq_nil hparse herrors).defined
      ⟨category.name, hcontains, hunderivable⟩
    -- What cannot be derived is this category alone, and then the check reports it.
    have hsubsingleton := Set.not_nontrivial_iff.1 (hsmall _ htrap)
    rw [hsubsingleton.eq_singleton_of_mem ⟨hcontains, hunderivable⟩,
      isTrap_singleton_iff hmem] at htrap
    rw [Lint.alwaysRecurs_eq_false herrors hmem (Source.isNonneg_weights_of_parse hparse hmem)]
      at htrap
    cases htrap

theorem Book.forall_nonempty_derivation_iff_mutual :
    ∃ book, Source.parse "root:\n- {{list}}\n- 0x none\nlist:\n- {{root}}, {{list}}\n- 2x end\n" =
        .ok book ∧
      (Lint.check book ⟨"root", 2⟩).errors = [] ∧
      (∀ category ∈ book.categories, Nonempty (Derivation book Bindings.empty category.name)) ∧
      ∀ names, book.IsTrap names → ¬names.Nontrivial := by
  let list : Category := ⟨"list", [⟨.one, [.placeholder "root", .literal ", ",
    .placeholder "list"]⟩, ⟨.two, [.literal "end"]⟩]⟩
  let root : Category := ⟨"root", [⟨.one, [.placeholder "list"]⟩, ⟨.zero, [.literal "none"]⟩]⟩
  obtain ⟨book, hparse, htest⟩ := Source.exists_parse_of_test
    "root:\n- {{list}}\n- 0x none\nlist:\n- {{root}}, {{list}}\n- 2x end\n"
    (fun book => (Lint.check book ⟨"root", 2⟩).errors.isEmpty &&
      decide (book.categories = [list, root]))
    (by decide +kernel)
  simp only [Bool.and_eq_true, decide_eq_true_eq, List.isEmpty_iff] at htest
  obtain ⟨herrors, hcategories⟩ := htest
  have hlist : book.find? "list" = some list := by
    rw [find?, hcategories]
    rfl
  have hroot : book.find? "root" = some root := by
    rw [find?, hcategories]
    rfl
  let ending : Derivation book Bindings.empty "list" :=
    .node list hlist ⟨1, by decide⟩ (by decide) (.literal "end" .nil)
  let whole : Derivation book Bindings.empty "root" :=
    .node root hroot ⟨0, by decide⟩ (by decide) (.derived rfl ending .nil)
  have hderivable : ∀ category ∈ book.categories,
      Nonempty (Derivation book Bindings.empty category.name) := by
    rw [hcategories]
    intro category hmem
    rcases List.mem_cons.1 hmem with rfl | hmem
    · exact ⟨ending⟩
    · obtain rfl := List.mem_singleton.1 hmem
      exact ⟨whole⟩
  exact ⟨book, hparse, herrors, hderivable,
    (Book.forall_nonempty_derivation_iff hparse herrors).1 hderivable⟩

/-- Two categories that can only refer to each other pass the check, though neither has a
derivation. -/
theorem Book.exists_underivable_of_errors_eq_nil :
    ∃ book, Source.parse "a:\n- {{ b }}\nb:\n- {{ a }}\n" = .ok book ∧
      (Lint.check book ⟨"a", 1⟩).errors = [] ∧
      ∃ category ∈ book.categories, ¬Nonempty (Derivation book Bindings.empty category.name) := by
  let first : Category := ⟨"a", [⟨.one, [.placeholder "b"]⟩]⟩
  let second : Category := ⟨"b", [⟨.one, [.placeholder "a"]⟩]⟩
  obtain ⟨book, hparse, htest⟩ := Source.exists_parse_of_test
    "a:\n- {{ b }}\nb:\n- {{ a }}\n"
    (fun book => (Lint.check book ⟨"a", 1⟩).errors.isEmpty &&
      decide (book.find? "a" = some first) && decide (book.find? "b" = some second))
    (by decide +kernel)
  simp only [Bool.and_eq_true, decide_eq_true_eq, List.isEmpty_iff] at htest
  obtain ⟨⟨herrors, hfirst⟩, hsecond⟩ := htest
  have htrap : book.IsTrap {"a", "b"} := by
    refine ⟨⟨"a", by simp⟩, ?_⟩
    intro name hname
    rcases hname with rfl | rfl
    · exact ⟨first, hfirst, by simp [first, Template.placeholders, Segment.name?]⟩
    · exact ⟨second, hsecond, by simp [second, Template.placeholders, Segment.name?]⟩
  refine ⟨book, hparse, herrors, first, Book.mem_of_find? hfirst, ?_⟩
  intro hderivation
  obtain ⟨tree⟩ := hderivation
  exact tree.not_mem_of_isTrap htrap (fun _ _ => rfl) (by simp [first])

end Phrasebook
