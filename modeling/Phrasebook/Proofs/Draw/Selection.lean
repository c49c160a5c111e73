import Phrasebook.Book.Basic
import Phrasebook.Draw.Weighted
import Phrasebook.Proofs.Binary64.Addition

/-!
# The place that a draw selects

A selected index is the place of a positive weight, whatever the draw and the weights
are, so it always leads to an alternative. An index is selected as soon as one weight is
positive, also when the sum of the weights is no longer finite.
-/

namespace Phrasebook.Draw

/-- What the scan answers is the last positive weight before it or one that it meets. -/
theorem selectFrom_eq_some {target sum : Binary64} {weights : List Binary64} {index i : Nat}
    {last : Option Nat} (hselect : selectFrom target weights index sum last = some i) :
    last = some i ∨ ∃ k w, i = index + k ∧ weights[k]? = some w ∧ w.isPositive = true := by
  induction weights generalizing index sum last with
  | nil =>
      exact .inl hselect
  | cons w weights ih =>
      have hshift {last' : Option Nat} {sum' : Binary64}
          (htail : selectFrom target weights (index + 1) sum' last' = some i) :
          last' = some i ∨ ∃ k w', i = index + k ∧ (w :: weights)[k]? = some w' ∧
            w'.isPositive = true := by
        rcases ih htail with hlast | ⟨k, w', hi, hget, hpos⟩
        · exact .inl hlast
        · exact .inr ⟨k + 1, w', by omega, by simpa using hget, hpos⟩
      unfold selectFrom at hselect
      by_cases hw : w.isPositive = true
      · have hhere : ∃ k w', index = index + k ∧ (w :: weights)[k]? = some w' ∧
            w'.isPositive = true :=
          ⟨0, w, rfl, rfl, hw⟩
        rw [if_pos hw] at hselect
        dsimp only at hselect
        split at hselect
        · cases hselect
          exact .inr hhere
        · rcases hshift hselect with hlast | hfound
          · cases hlast
            exact .inr hhere
          · exact .inr hfound
      · rw [if_neg hw] at hselect
        exact hshift hselect

theorem selectWeighted_eq_some {weights : List Binary64} {draw : Binary64} {i : Nat}
    (hselect : selectWeighted weights draw = some i) :
    ∃ w, weights[i]? = some w ∧ w.isPositive = true := by
  unfold selectWeighted at hselect
  dsimp only at hselect
  split at hselect
  · rcases selectFrom_eq_some hselect with hlast | ⟨k, w, hi, hget, hpos⟩
    · cases hlast
    · have hk : i = k := by omega
      exact ⟨w, hk ▸ hget, hpos⟩
  · cases hselect

theorem lt_length_of_selectWeighted {weights : List Binary64} {draw : Binary64} {i : Nat}
    (hselect : selectWeighted weights draw = some i) : i < weights.length := by
  obtain ⟨w, hget, -⟩ := selectWeighted_eq_some hselect
  exact (List.getElem?_eq_some_iff.1 hget).1

/-- The scan answers nothing only where no weight is positive. -/
theorem selectFrom_eq_none {target sum : Binary64} {weights : List Binary64} {index : Nat}
    {last : Option Nat} (hselect : selectFrom target weights index sum last = none) :
    last = none ∧ ∀ w ∈ weights, w.isPositive = false := by
  induction weights generalizing index sum last with
  | nil =>
      exact ⟨hselect, by simp⟩
  | cons w weights ih =>
      unfold selectFrom at hselect
      by_cases hw : w.isPositive = true
      · rw [if_pos hw] at hselect
        dsimp only at hselect
        split at hselect
        · cases hselect
        · cases (ih hselect).1
      · rw [if_neg hw] at hselect
        obtain ⟨hlast, hrest⟩ := ih hselect
        refine ⟨hlast, fun w' hw' => ?_⟩
        rcases List.mem_cons.1 hw' with rfl | hw'
        · exact Bool.not_eq_true _ ▸ hw
        · exact hrest w' hw'

theorem isPositive_positiveTotal_iff (weights : List Binary64) :
    (positiveTotal weights).isPositive = true ↔ ∃ w ∈ weights, w.isPositive = true := by
  have hpositive : ∀ w ∈ weights.filter Binary64.isPositive, w.IsNonneg := fun w hw =>
    .of_isPositive (List.mem_filter.1 hw).2
  rw [positiveTotal, Binary64.isPositive_sum_iff hpositive]
  simp only [List.mem_filter, and_assoc, and_self]

theorem selectWeighted_eq_none_iff {weights : List Binary64} {draw : Binary64} :
    selectWeighted weights draw = none ↔ ∀ w ∈ weights, w.isPositive = false := by
  unfold selectWeighted
  dsimp only
  constructor
  · intro hselect
    split at hselect
    · exact (selectFrom_eq_none hselect).2
    · next htotal =>
      intro w hw
      cases hpos : w.isPositive with
      | false => rfl
      | true => exact (htotal ((isPositive_positiveTotal_iff weights).2 ⟨w, hw, hpos⟩)).elim
  · intro hnone
    refine if_neg fun htotal => ?_
    obtain ⟨w, hw, hpos⟩ := (isPositive_positiveTotal_iff weights).1 htotal
    rw [hnone w hw] at hpos
    cases hpos

theorem exists_selectWeighted {weights : List Binary64}
    (hpositive : ∃ w ∈ weights, w.isPositive = true) (draw : Binary64) :
    ∃ i, selectWeighted weights draw = some i := by
  refine Option.ne_none_iff_exists'.1 fun hnone => ?_
  obtain ⟨w, hmem, hw⟩ := hpositive
  rw [selectWeighted_eq_none_iff.1 hnone w hmem] at hw
  cases hw

end Phrasebook.Draw

namespace Phrasebook.Category

/-- The place of the alternative that a draw selects, none when no weight is positive. -/
def selected (category : Category) (draw : Binary64) : Option (Fin category.alternatives.length) :=
  match h : Draw.selectWeighted category.weights draw with
  | none => none
  | some i => some ⟨i, by simpa [weights] using Draw.lt_length_of_selectWeighted h⟩

theorem map_val_selected (category : Category) (draw : Binary64) :
    (category.selected draw).map Fin.val = Draw.selectWeighted category.weights draw := by
  unfold selected
  split
  · next hselect => exact hselect.symm
  · next i hselect => exact hselect.symm

theorem selected_eq_none_iff {category : Category} {draw : Binary64} :
    category.selected draw = none ↔ Draw.selectWeighted category.weights draw = none := by
  rw [← map_val_selected, Option.map_eq_none_iff]

/-- A weight that is not positive is never selected. -/
theorem isPositive_of_selected {category : Category} {draw : Binary64}
    {i : Fin category.alternatives.length} (hselect : category.selected draw = some i) :
    (category.alternatives.get i).weight.isPositive = true := by
  have hval : Draw.selectWeighted category.weights draw = some i.val := by
    rw [← map_val_selected, hselect, Option.map_some]
  obtain ⟨w, hget, hpos⟩ := Draw.selectWeighted_eq_some hval
  have hw : (category.alternatives.get i).weight = w := by
    simpa [weights] using hget
  exact hw ▸ hpos

end Phrasebook.Category
