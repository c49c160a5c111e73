import Phrasebook.Proofs.Draw.Selection
import Phrasebook.Proofs.Source.Contents

/-!
# When selection succeeds

Whether a draw selects anything depends on the weights alone, and on nothing of them but that one
is above zero. In a book that was read this is told by the total of a category, which is the number
that selection forms of the positive weights only.
-/

namespace Phrasebook

/-! ## Totals -/

/-- Numbers that are not positive add nothing to a sum of numbers that are not below zero. -/
theorem Binary64.foldl_add_filter {xs : List Binary64} (hxs : ∀ x ∈ xs, x.IsNonneg)
    {total : Binary64} (htotal : total.IsNonneg) :
    (xs.filter isPositive).foldl add total = xs.foldl add total := by
  induction xs generalizing total with
  | nil => rfl
  | cons x xs ih =>
      have hx : x.IsNonneg := hxs x List.mem_cons_self
      have hrest {total : Binary64} := @ih (fun y hy => hxs y (List.mem_cons_of_mem _ hy)) total
      rw [List.foldl_cons]
      cases hpositive : x.isPositive with
      | true =>
          rw [List.filter_cons_of_pos hpositive, List.foldl_cons, hrest (isNonneg_add htotal hx)]
      | false =>
          have hskip : ¬x.isPositive = true := Bool.eq_false_iff.1 hpositive
          rw [List.filter_cons_of_neg hskip, hrest htotal,
            add_eq_of_isZero htotal (hx.isZero_iff.2 hpositive)]

/-- The sum of the positive weights is the sum of all when none is below zero. -/
theorem Draw.positiveTotal_eq_sum {weights : List Binary64}
    (hweights : ∀ w ∈ weights, w.IsNonneg) : positiveTotal weights = Binary64.sum weights :=
  Binary64.foldl_add_filter hweights Binary64.isNonneg_zero

/-- Of a book that was read, a check and an expansion form the same total of each category. -/
theorem Category.positiveTotal_weights {text : String} {book : Book} {category : Category}
    (hparse : Source.parse text = .ok book) (hmem : category ∈ book.categories) :
    Draw.positiveTotal category.weights = category.totalWeight :=
  Draw.positiveTotal_eq_sum (Source.isNonneg_weights_of_parse hparse hmem)

/-! ## Success -/

namespace Draw

theorem isPositive_positiveTotal_of_selectWeighted {weights : List Binary64} {draw : Binary64}
    {i : Nat} (hselect : selectWeighted weights draw = some i) :
    (positiveTotal weights).isPositive = true := by
  obtain ⟨w, hget, hw⟩ := selectWeighted_eq_some hselect
  exact (isPositive_positiveTotal_iff weights).2 ⟨w, List.mem_of_getElem? hget, hw⟩

/-- Selection fails only where no weight is above zero and never answers a place of another, of
whatever numbers the weights and the draw are. For a category of a book that was read, a total
above zero is thus the same as success, be it for every draw or for one. -/
theorem selectWeighted_succeeds :
    (∀ (weights : List Binary64) (draw : Binary64),
      (selectWeighted weights draw = none ↔ ∀ w ∈ weights, Binary64.zero.lt w = false) ∧
      ∀ i, selectWeighted weights draw = some i →
        ∃ w, weights[i]? = some w ∧ Binary64.zero.lt w = true) ∧
    ∀ text book, Source.parse text = .ok book → ∀ category ∈ book.categories,
      (Binary64.zero.lt category.totalWeight = true ↔
        ∀ draw, ∃ i, selectWeighted category.weights draw = some i) ∧
      (Binary64.zero.lt category.totalWeight = true ↔
        ∃ draw i, selectWeighted category.weights draw = some i) := by
  refine ⟨fun weights draw => ⟨selectWeighted_eq_none_iff, fun i => selectWeighted_eq_some⟩,
    fun text book hparse category hmem => ?_⟩
  rw [← Category.positiveTotal_weights hparse hmem]
  have hevery (htotal : (positiveTotal category.weights).isPositive = true) :
      ∀ draw, ∃ i, selectWeighted category.weights draw = some i :=
    exists_selectWeighted ((isPositive_positiveTotal_iff category.weights).1 htotal)
  have hsome : (∃ draw i, selectWeighted category.weights draw = some i) →
      (positiveTotal category.weights).isPositive = true :=
    fun ⟨_, _, hselect⟩ => isPositive_positiveTotal_of_selectWeighted hselect
  exact ⟨⟨hevery, fun hall => hsome ⟨.zero, hall .zero⟩⟩,
    ⟨fun htotal => ⟨.zero, hevery htotal .zero⟩, hsome⟩⟩

/-- A draw that is no number still selects from a list with one, and from a category that has an
alternative of weight 2 beside one of weight 0 every draw does. -/
theorem selectWeighted_succeeds_nan :
    (∃ w, [Binary64.nan, .zero, .two, ⟨0xbff0000000000000⟩][2]? = some w ∧
      Binary64.zero.lt w = true) ∧
    ∃ book, Source.parse "root:\n- 0x none\n- 2x some\n" = .ok book ∧
      ∃ category ∈ book.categories, ∀ draw, ∃ i,
        selectWeighted category.weights draw = some i := by
  refine ⟨(selectWeighted_succeeds.1 [.nan, .zero, .two, ⟨0xbff0000000000000⟩] .nan).2 2
    (by decide +kernel), ?_⟩
  obtain ⟨book, hparse, htest⟩ := Source.exists_parse_of_test "root:\n- 0x none\n- 2x some\n"
    (fun book => book.categories.any fun category => Binary64.zero.lt category.totalWeight)
    (by decide +kernel)
  obtain ⟨category, hmem, htotal⟩ := List.any_eq_true.1 htest
  exact ⟨book, hparse, category, hmem,
    (selectWeighted_succeeds.2 _ book hparse category hmem).1.1 htotal⟩

end Draw

end Phrasebook
