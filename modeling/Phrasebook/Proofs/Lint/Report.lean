import Phrasebook.Lint.Report
import Phrasebook.Proofs.Binary64.Addition

/-!
# Reports without errors

What it says about a book that a check reports no errors.
-/

namespace Phrasebook.Lint

theorem addName_ne_nil (name : String) (names : List String) : addName name names ≠ [] := by
  cases names with
  | nil => exact List.cons_ne_nil _ _
  | cons first names =>
      unfold addName Ascending.insert
      split
      · exact List.cons_ne_nil _ _
      · split <;> exact List.cons_ne_nil _ _

theorem foldl_addName_eq_nil_iff {names : List String} :
    names.foldl (fun seen name => addName name seen) [] = [] ↔ names = [] := by
  rcases names.eq_nil_or_concat with rfl | ⟨front, last, rfl⟩
  · simp
  · simp [addName_ne_nil]

theorem undefinedReferences_eq_nil_iff {isDefined : String → Bool} {category : Category} :
    undefinedReferences isDefined category = [] ↔
      ∀ name ∈ category.references, isDefined name = true := by
  rw [undefinedReferences, foldl_addName_eq_nil_iff, List.filter_eq_nil_iff]
  simp

/-- A category whose weights are not below zero has a positive total exactly when one of
its weights is positive. -/
theorem isPositive_totalWeight_iff {category : Category}
    (hweights : ∀ w ∈ category.weights, w.IsNonneg) :
    category.totalWeight.isPositive = true ↔ ∃ w ∈ category.weights, w.isPositive = true :=
  Binary64.isPositive_sum_iff hweights

theorem le_zero_totalWeight_iff {category : Category}
    (hweights : ∀ w ∈ category.weights, w.IsNonneg) :
    category.totalWeight.le .zero = true ↔ ∀ w ∈ category.weights, w.isPositive = false := by
  have htotal : category.totalWeight.IsNonneg := Binary64.isNonneg_sum hweights
  rw [htotal.le_zero_iff, ← Bool.not_eq_true, isPositive_totalWeight_iff hweights]
  simp

section
variable {book : Book} {options : Options} (herrors : (check book options).errors = [])
include herrors

theorem contains_start_of_errors_eq_nil : book.contains options.start = true := by
  have hstart := (List.append_eq_nil_iff.1 herrors).1
  cases hcontains : book.contains options.start with
  | true => rfl
  | false => simp [hcontains] at hstart

theorem categoryErrors_eq_nil {category : Category} (hmem : category ∈ book.categories) :
    categoryErrors book.contains category = [] :=
  List.flatMap_eq_nil_iff.1 (List.append_eq_nil_iff.1 herrors).2 category hmem

theorem contains_of_mem_references {category : Category} (hmem : category ∈ book.categories)
    {name : String} (hname : name ∈ category.references) : book.contains name = true := by
  have hnone := categoryErrors_eq_nil herrors hmem
  rw [categoryErrors, List.append_eq_nil_iff, List.append_eq_nil_iff, List.map_eq_nil_iff] at hnone
  exact undefinedReferences_eq_nil_iff.1 hnone.1.2 name hname

theorem exists_isPositive_weight {category : Category} (hmem : category ∈ book.categories)
    (hweights : ∀ w ∈ category.weights, w.IsNonneg) :
    ∃ w ∈ category.weights, w.isPositive = true := by
  have hnone := categoryErrors_eq_nil herrors hmem
  rw [categoryErrors, List.append_eq_nil_iff, List.append_eq_nil_iff] at hnone
  have hpositive : ¬category.totalWeight.le .zero = true := by
    intro hle
    simp [hle] at hnone
  rw [le_zero_totalWeight_iff hweights] at hpositive
  simpa using hpositive

end

end Phrasebook.Lint
