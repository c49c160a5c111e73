import Mathlib.Data.Prod.Lex
import Mathlib.Data.String.Basic
import Mathlib.Order.WithBot
import Phrasebook.Proofs.Lint.Chains
import Phrasebook.Proofs.Lint.Recursion

/-!
# What a report lists

A report lists what is wrong with a book and what is suspicious in it, each once, in an order that
is fixed by the names: all that applies to the book and nothing else.
-/

namespace Phrasebook

theorem Book.find?_eq_some_iff {book : Book} {name : String} {category : Category} :
    book.find? name = some category ↔ category ∈ book.categories ∧ category.name = name :=
  find?_eq_some_iff_of_nodup book.ascending.nodup

namespace Lint

/-! ## Places -/

/-- Where an error stands in a report: the start comes first and then one category after the
other, and of a category its weights, the undefined names in it and its recursion. -/
def Error.place : Error → WithBot String ×ₗ ℕ ×ₗ String
  | .undefinedStart _ => toLex (⊥, toLex (0, ""))
  | .noPositiveWeight category => toLex (↑category, toLex (0, ""))
  | .undefinedReference category reference => toLex (↑category, toLex (1, reference))
  | .endlessRecursion category => toLex (↑category, toLex (2, ""))

/-- Where a warning stands in a report: of the two kinds one comes after the other, and each goes
by the names of the categories. -/
def Warning.place : Warning → ℕ ×ₗ String
  | .fewAlternatives category _ _ => toLex (0, category)
  | .unreachable category _ => toLex (1, category)

def Error.Applies (book : Book) (options : Options) : Error → Prop
  | .undefinedStart start => start = options.start ∧ book.contains start = false
  | .noPositiveWeight name => ∃ category, book.find? name = some category ∧
      ∀ w ∈ category.weights, w.isPositive = false
  | .undefinedReference name reference =>
      book.RefersTo name reference ∧ book.contains reference = false
  | .endlessRecursion name => ∃ category, book.find? name = some category ∧
      (∃ w ∈ category.weights, w.isPositive = true) ∧
      ∀ alternative ∈ category.alternatives, alternative.weight.isPositive = true →
        name ∈ alternative.template.placeholders

def Warning.Applies (book : Book) (options : Options) : Warning → Prop
  | .fewAlternatives name count minimum => minimum = options.minAlternatives ∧ count < minimum ∧
      ∃ category, book.find? name = some category ∧ category.alternatives.length = count
  | .unreachable name start => start = options.start ∧ book.contains start = true ∧
      book.contains name = true ∧ ¬book.LeadsTo start name

/-- A report that lists all that applies to a book and nothing else, in order. -/
structure Report.IsExact (report : Report) (book : Book) (options : Options) : Prop where
  errors : ∀ error, error ∈ report.errors ↔ error.Applies book options
  errorsInOrder : report.errors.Pairwise fun a b => a.place < b.place
  warnings : ∀ warning, warning ∈ report.warnings ↔ warning.Applies book options
  warningsInOrder : report.warnings.Pairwise fun a b => a.place < b.place

theorem Report.IsExact.unique {book : Book} {options : Options} {report other : Report}
    (hreport : report.IsExact book options) (hother : other.IsExact book options) :
    report = other := by
  obtain ⟨errors, warnings⟩ := report
  obtain ⟨errors', warnings'⟩ := other
  obtain rfl : errors = errors' := eq_of_pairwise_place hreport.errorsInOrder
    hother.errorsInOrder fun a => (hreport.errors a).trans (hother.errors a).symm
  obtain rfl : warnings = warnings' := eq_of_pairwise_place hreport.warningsInOrder
    hother.warningsInOrder fun a => (hreport.warnings a).trans (hother.warnings a).symm
  rfl

/-! ## Errors -/

theorem mem_foldl_addName_iff {name : String} {names seen : List String} :
    name ∈ names.foldl (fun seen name => addName name seen) seen ↔ name ∈ names ∨ name ∈ seen := by
  induction names generalizing seen with
  | nil => simp
  | cons first names ih => rw [List.foldl_cons, ih, mem_addName_iff, List.mem_cons]; tauto

theorem ascending_foldl_addName {names seen : List String} (hseen : Ascending id seen) :
    Ascending id (names.foldl (fun seen name => addName name seen) seen) := by
  induction names generalizing seen with
  | nil => exact hseen
  | cons first names ih => exact ih (ascending_addName hseen first)

section
variable {isDefined : String → Bool} {category : Category}

theorem mem_undefinedReferences_iff {name : String} :
    name ∈ undefinedReferences isDefined category ↔
      name ∈ category.references ∧ isDefined name = false := by
  rw [undefinedReferences, mem_foldl_addName_iff]
  simp

theorem ascending_undefinedReferences : Ascending id (undefinedReferences isDefined category) :=
  ascending_foldl_addName List.Pairwise.nil

theorem exists_place_of_mem_categoryErrors {error : Error}
    (herror : error ∈ categoryErrors isDefined category) :
    ∃ rest, error.place = toLex (↑category.name, rest) := by
  simp only [categoryErrors, List.mem_append, List.mem_map, List.mem_ite_nil_right,
    List.mem_singleton] at herror
  obtain (⟨-, rfl⟩ | ⟨reference, -, rfl⟩) | ⟨-, rfl⟩ := herror
  · exact ⟨_, rfl⟩
  · exact ⟨_, rfl⟩
  · exact ⟨_, rfl⟩

theorem noPositiveWeight_mem_categoryErrors_iff {name : String} :
    .noPositiveWeight name ∈ categoryErrors isDefined category ↔
      category.totalWeight.le .zero = true ∧ name = category.name := by
  simp [categoryErrors]

theorem undefinedReference_mem_categoryErrors_iff {name reference : String} :
    .undefinedReference name reference ∈ categoryErrors isDefined category ↔
      (reference ∈ category.references ∧ isDefined reference = false) ∧
        name = category.name := by
  simp [categoryErrors, mem_undefinedReferences_iff, @eq_comm _ name]

theorem endlessRecursion_mem_categoryErrors_iff {name : String} :
    .endlessRecursion name ∈ categoryErrors isDefined category ↔
      (alwaysRecurs category = true ∧ category.totalWeight.isPositive = true) ∧
        name = category.name := by
  simp [categoryErrors]

theorem pairwise_categoryErrors (isDefined : String → Bool) (category : Category) :
    (categoryErrors isDefined category).Pairwise fun a b => a.place < b.place := by
  have hreferences : ((undefinedReferences isDefined category).map
      (Error.undefinedReference category.name)).Pairwise fun a b => a.place < b.place := by
    refine List.pairwise_map.2 (ascending_undefinedReferences.imp ?_)
    intro first second hlt
    exact Prod.Lex.toLex_lt_toLex.2 (.inr ⟨rfl, Prod.Lex.toLex_lt_toLex.2 (.inr ⟨rfl, hlt⟩)⟩)
  unfold categoryErrors
  dsimp only
  rw [List.pairwise_append, List.pairwise_append]
  refine ⟨⟨?_, hreferences, ?_⟩, ?_, ?_⟩
  · split <;> simp
  · simp [Error.place, Prod.Lex.toLex_lt_toLex]
  · split <;> simp
  · simp only [List.mem_append, List.mem_map, List.mem_ite_nil_right, List.mem_singleton]
    rintro a (⟨-, rfl⟩ | ⟨reference, -, rfl⟩) b ⟨-, rfl⟩ <;>
      simp [Error.place, Prod.Lex.toLex_lt_toLex]

end

section
variable {book : Book} (options : Options)

theorem pairwise_errors : (check book options).errors.Pairwise fun a b => a.place < b.place := by
  rw [check, List.pairwise_append, List.pairwise_flatMap]
  refine ⟨?_, ⟨fun category _ => pairwise_categoryErrors book.contains category, ?_⟩, ?_⟩
  · split <;> simp
  · refine book.ascending.imp fun {a b} hlt x hx y hy => ?_
    obtain ⟨rest, hrest⟩ := exists_place_of_mem_categoryErrors hx
    obtain ⟨rest', hrest'⟩ := exists_place_of_mem_categoryErrors hy
    rw [hrest, hrest', Prod.Lex.toLex_lt_toLex]
    exact .inl (WithBot.coe_lt_coe.2 hlt)
  · intro a ha b hb
    obtain ⟨category, -, hb⟩ := List.mem_flatMap.1 hb
    obtain ⟨rest, hrest⟩ := exists_place_of_mem_categoryErrors hb
    obtain rfl : a = .undefinedStart options.start := by
      split at ha
      · cases ha
      · exact List.mem_singleton.1 ha
    rw [hrest, Error.place, Prod.Lex.toLex_lt_toLex]
    exact .inl (WithBot.bot_lt_coe _)

/-- An error is listed when it applies, for the weights that a book has when it is read. -/
theorem mem_errors_iff
    (hweights : ∀ category ∈ book.categories, ∀ w ∈ category.weights, w.IsNonneg)
    {error : Error} : error ∈ (check book options).errors ↔ error.Applies book options := by
  have hkinds : error ∈ (check book options).errors ↔
      (book.contains options.start = false ∧ error = .undefinedStart options.start) ∨
        ∃ category ∈ book.categories, error ∈ categoryErrors book.contains category := by
    simp [check]
  rw [hkinds]
  cases error with
  | undefinedStart start =>
      have hnot : ¬∃ category ∈ book.categories,
          .undefinedStart start ∈ categoryErrors book.contains category := by
        simp [categoryErrors]
      rw [or_iff_left hnot, Error.undefinedStart.injEq, Error.Applies, and_comm]
      exact and_congr_right fun hstart => by rw [hstart]
  | noPositiveWeight name =>
      simp only [reduceCtorEq, and_false, false_or, noPositiveWeight_mem_categoryErrors_iff,
        Error.Applies, Book.find?_eq_some_iff]
      constructor
      · rintro ⟨category, hmem, hle, rfl⟩
        exact ⟨category, ⟨hmem, rfl⟩, (le_zero_totalWeight_iff (hweights category hmem)).1 hle⟩
      · rintro ⟨category, ⟨hmem, rfl⟩, hnone⟩
        exact ⟨category, hmem, (le_zero_totalWeight_iff (hweights category hmem)).2 hnone, rfl⟩
  | undefinedReference name reference =>
      simp only [reduceCtorEq, and_false, false_or, undefinedReference_mem_categoryErrors_iff,
        Error.Applies, Book.refersTo_iff, Book.find?_eq_some_iff]
      constructor
      · rintro ⟨category, hmem, ⟨hrefers, hundefined⟩, rfl⟩
        exact ⟨⟨category, ⟨hmem, rfl⟩, hrefers⟩, hundefined⟩
      · rintro ⟨⟨category, ⟨hmem, rfl⟩, hrefers⟩, hundefined⟩
        exact ⟨category, hmem, ⟨hrefers, hundefined⟩, rfl⟩
  | endlessRecursion name =>
      simp only [reduceCtorEq, and_false, false_or, endlessRecursion_mem_categoryErrors_iff,
        Error.Applies, Book.find?_eq_some_iff]
      constructor
      · rintro ⟨category, hmem, ⟨hrecurs, hpositive⟩, rfl⟩
        exact ⟨category, ⟨hmem, rfl⟩,
          (isPositive_totalWeight_iff (hweights category hmem)).1 hpositive,
          alwaysRecurs_iff.1 hrecurs⟩
      · rintro ⟨category, ⟨hmem, rfl⟩, hpositive, hrecurs⟩
        exact ⟨category, hmem, ⟨alwaysRecurs_iff.2 hrecurs,
          (isPositive_totalWeight_iff (hweights category hmem)).2 hpositive⟩, rfl⟩

/-! ## Warnings -/

theorem fewAlternatives?_eq_some_iff {category : Category} {warning : Warning} :
    fewAlternatives? options category = some warning ↔
      category.alternatives.length < options.minAlternatives ∧
        warning = .fewAlternatives category.name category.alternatives.length
          options.minAlternatives := by
  simp [fewAlternatives?, eq_comm]

theorem pairwise_warnings :
    (check book options).warnings.Pairwise fun a b => a.place < b.place := by
  obtain ⟨names, hunreachable, hascending, -⟩ := exists_unreachableWarnings_eq book options
  rw [check, hunreachable, List.pairwise_append, List.pairwise_filterMap, List.pairwise_map]
  simp only [fewAlternatives?_eq_some_iff]
  refine ⟨book.ascending.imp ?_, hascending.imp ?_, ?_⟩
  · rintro a b hlt x ⟨-, rfl⟩ y ⟨-, rfl⟩
    exact Prod.Lex.toLex_lt_toLex.2 (.inr ⟨rfl, hlt⟩)
  · exact fun hlt => Prod.Lex.toLex_lt_toLex.2 (.inr ⟨rfl, hlt⟩)
  · intro a ha b hb
    obtain ⟨category, -, hfew⟩ := List.mem_filterMap.1 ha
    obtain ⟨-, rfl⟩ := (fewAlternatives?_eq_some_iff options).1 hfew
    obtain ⟨name, -, rfl⟩ := List.mem_map.1 hb
    exact Prod.Lex.toLex_lt_toLex.2 (.inl Nat.zero_lt_one)

theorem mem_warnings_iff {warning : Warning} :
    warning ∈ (check book options).warnings ↔ warning.Applies book options := by
  obtain ⟨names, hunreachable, -, hnames⟩ := exists_unreachableWarnings_eq book options
  rw [check, hunreachable, List.mem_append, List.mem_filterMap, List.mem_map]
  simp only [fewAlternatives?_eq_some_iff]
  cases warning with
  | fewAlternatives name count minimum =>
      simp only [Warning.Applies, Book.find?_eq_some_iff, reduceCtorEq, and_false, exists_false,
        or_false, Warning.fewAlternatives.injEq]
      constructor
      · rintro ⟨category, hmem, hfew, rfl, rfl, rfl⟩
        exact ⟨rfl, hfew, category, ⟨hmem, rfl⟩, rfl⟩
      · rintro ⟨rfl, hfew, category, ⟨hmem, rfl⟩, rfl⟩
        exact ⟨category, hmem, hfew, rfl, rfl, rfl⟩
  | unreachable name start =>
      simp only [Warning.Applies, reduceCtorEq, and_false, exists_false, false_or,
        Warning.unreachable.injEq, hnames]
      constructor
      · rintro ⟨_, hname, rfl, rfl⟩
        exact ⟨rfl, hname⟩
      · rintro ⟨rfl, hname⟩
        exact ⟨name, hname, rfl, rfl⟩

end

theorem isExact_check {book : Book} (options : Options)
    (hweights : ∀ category ∈ book.categories, ∀ w ∈ category.weights, w.IsNonneg) :
    (check book options).IsExact book options where
  errors _ := mem_errors_iff options hweights
  errorsInOrder := pairwise_errors options
  warnings _ := mem_warnings_iff options
  warningsInOrder := pairwise_warnings options

end Lint

end Phrasebook
