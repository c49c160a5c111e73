import Phrasebook.Proofs.Binary64.Quotients
import Phrasebook.Proofs.Draw.Selection

/-!
# Selection in the order of draws

A later draw never selects an earlier place: its target is no lower, and a running sum that passes
a target passes each lower one. A draw of zero selects the first positive weight as long as the
total is finite. Weights whose sum is beyond the range leave no target that a running sum could
pass, so every draw selects the last of them.
-/

namespace Phrasebook

namespace Draw

/-! ## Scans -/

/-- Of two targets, the one that every running sum passes which passes the other is found no
later. -/
theorem selectFrom_le_selectFrom {target target' : Binary64}
    (hpass : ∀ sum : Binary64, sum.IsNonneg → target'.lt sum = true → target.lt sum = true)
    {weights : List Binary64} {index : Nat} {sum : Binary64} {last : Option Nat}
    (hsum : sum.IsNonneg) {i j : Nat} (hi : selectFrom target weights index sum last = some i)
    (hj : selectFrom target' weights index sum last = some j) : i ≤ j := by
  induction weights generalizing index sum last with
  | nil =>
      rw [selectFrom] at hi hj
      rw [hi] at hj
      exact (Option.some.inj hj).le
  | cons w weights ih =>
      unfold selectFrom at hi hj
      by_cases hw : w.isPositive = true
      · rw [if_pos hw] at hi hj
        dsimp only at hi hj
        have hnext := Binary64.isNonneg_add hsum (.of_isPositive hw)
        by_cases hhere : target.lt (sum.add w) = true
        · rw [if_pos hhere, Option.some.injEq] at hi
          subst hi
          split at hj
          · exact (Option.some.inj hj).le
          · rcases selectFrom_eq_some hj with hlast | ⟨k, -, hk, -⟩
            · exact (Option.some.inj hlast).le
            · omega
        · rw [if_neg hhere] at hi
          rw [if_neg (mt (hpass _ hnext) hhere)] at hj
          exact ih hnext hi hj
      · rw [if_neg hw] at hi hj
        exact ih hsum hi hj

/-- A target below every positive sum is found at the first positive weight. -/
theorem selectFrom_eq_findIdx? {target : Binary64}
    (hpass : ∀ sum : Binary64, sum.isPositive = true → target.lt sum = true)
    {weights : List Binary64} {index : Nat} {sum : Binary64} (hsum : sum.IsNonneg) :
    selectFrom target weights index sum none =
      (weights.findIdx? Binary64.isPositive).map (index + ·) := by
  induction weights generalizing index with
  | nil => rfl
  | cons w weights ih =>
      unfold selectFrom
      rw [List.findIdx?_cons]
      by_cases hw : w.isPositive = true
      · have hhere : target.lt (sum.add w) = true :=
          hpass _ ((Binary64.isPositive_add_iff hsum (.of_isPositive hw)).2 (.inr hw))
        rw [if_pos hw, if_pos hw]
        dsimp only
        rw [if_pos hhere]
        rfl
      · rw [if_neg hw, if_neg hw, ih, Option.map_map]
        congr 1
        funext k
        exact Nat.add_right_comm index 1 k

/-- A target that no sum passes is given up at the last positive weight. -/
theorem le_of_selectFrom {target : Binary64} (hnever : ∀ sum : Binary64, target.lt sum = false)
    {weights : List Binary64} {index : Nat} {sum : Binary64} {last : Option Nat} {i : Nat}
    (hi : selectFrom target weights index sum last = some i) {k : Nat} {w : Binary64}
    (hget : weights[k]? = some w) (hw : w.isPositive = true) : index + k ≤ i := by
  induction weights generalizing index sum last k with
  | nil => simp at hget
  | cons first weights ih =>
      have hrest {sum' : Binary64} {last' : Option Nat}
          (htail : selectFrom target weights (index + 1) sum' last' = some i) {k' : Nat}
          (hk : k = k' + 1) : index + k ≤ i := by
        subst hk
        have hle := ih htail (by simpa using hget)
        omega
      unfold selectFrom at hi
      by_cases hfirst : first.isPositive = true
      · rw [if_pos hfirst] at hi
        dsimp only at hi
        rw [if_neg (Bool.eq_false_iff.1 (hnever _))] at hi
        cases k with
        | zero =>
            rcases selectFrom_eq_some hi with hlast | ⟨k', -, hk', -⟩
            · exact (Option.some.inj hlast).le
            · omega
        | succ k => exact hrest hi rfl
      · rw [if_neg hfirst] at hi
        cases k with
        | zero =>
            obtain rfl : first = w := by simpa using hget
            exact absurd hw hfirst
        | succ k => exact hrest hi rfl

/-! ## Targets -/

section
variable {total : Binary64} (htotal : total.isPositive = true)
include htotal

/-- No sum passes the target that a draw sets in an infinite total. -/
theorem not_lt_target {draw : Binary64} (hdraw : Binary64.zero.le draw = true)
    (hinfinite : total.isInfinite = true) (sum : Binary64) : (draw.mul total).lt sum = false := by
  rw [Binary64.mul_of_isInfinite hdraw (.of_isPositive htotal) hinfinite]
  split
  · exact Binary64.not_lt_of_isNaN (by decide) sum
  · exact Binary64.isNonneg_infinity.not_lt_of_isInfinite Binary64.isInfinite_infinity

/-- Each positive sum passes the target that a draw of zero sets in a finite total. -/
theorem target_lt_of_isZero {draw : Binary64} (hdraw : draw.isZero = true)
    (hfinite : total.isFinite = true) {sum : Binary64} (hsum : sum.isPositive = true) :
    (draw.mul total).lt sum = true :=
  Binary64.lt_of_isZero (Binary64.isZero_mul hdraw (.of_isPositive htotal) hfinite) hsum

/-- What passes the target of a draw passes that of each earlier one. -/
theorem target_lt_of_le {draw draw' : Binary64} (hdraw : Binary64.zero.le draw = true)
    (hle : draw.le draw' = true) (hbelow : draw'.isFinite = true) {sum : Binary64}
    (hsum : sum.IsNonneg) (hpass : (draw'.mul total).lt sum = true) :
    (draw.mul total).lt sum = true := by
  have hnonneg := Binary64.IsNonneg.of_isPositive htotal
  have hdraw' := Binary64.zero_le_of_le hdraw hle
  have hfinite : total.isFinite = true := by
    refine hnonneg.isFinite_iff.2 (Bool.eq_false_iff.2 fun hinfinite => ?_)
    rw [not_lt_target htotal hdraw' hinfinite] at hpass
    cases hpass
  by_cases hzero : draw.isZero = true
  · refine target_lt_of_isZero htotal hzero hfinite (Binary64.isPositive_of_lt ?_ hsum hpass)
    rcases Binary64.zero_le_iff.1 hdraw' with hdraw' | hzero'
    · exact (Binary64.isNonneg_mul hdraw' hnonneg hbelow hfinite).zero_le
    · exact Binary64.zero_le_iff.2 (.inr (Binary64.isZero_mul hzero' hnonneg hfinite))
  · have hdraw := (Binary64.zero_le_iff.1 hdraw).resolve_right hzero
    have hpositive : draw.isPositive = true := by
      rw [← Bool.not_eq_false, ← hdraw.isZero_iff]
      exact hzero
    obtain ⟨hdraw', hcodes⟩ := Binary64.IsNonneg.of_le hpositive hle
    have hfinite' := Binary64.isFinite_of_code_le hcodes hbelow
    rw [(Binary64.isNonneg_mul hdraw' hnonneg hbelow hfinite).lt_iff hsum] at hpass
    rw [(Binary64.isNonneg_mul hdraw hnonneg hfinite' hfinite).lt_iff hsum]
    exact (Binary64.code_mul_le hdraw hdraw' hcodes hbelow hnonneg hfinite).trans_lt hpass

end

/-! ## Selection -/

section
variable {weights : List Binary64}

theorem isNonneg_positiveTotal (weights : List Binary64) : (positiveTotal weights).IsNonneg :=
  Binary64.isNonneg_sum fun _ hmem => .of_isPositive (List.mem_filter.1 hmem).2

theorem selectWeighted_eq_selectFrom (htotal : (positiveTotal weights).isPositive = true)
    (draw : Binary64) :
    selectWeighted weights draw =
      selectFrom (draw.mul (positiveTotal weights)) weights 0 .zero none :=
  if_pos htotal

/-- When only one weight is positive, it is the total. -/
theorem positiveTotal_of_unique {i : Nat}
    (hfirst : weights.findIdx? Binary64.isPositive = some i)
    (hlast : ∀ j w, weights[j]? = some w → w.isPositive = true → j ≤ i) :
    ∃ w ∈ weights, positiveTotal weights = w := by
  obtain ⟨hi, hw, hbefore⟩ := List.findIdx?_eq_some_iff_getElem.1 hfirst
  refine ⟨weights[i], List.getElem_mem hi, ?_⟩
  have hpre : (weights.take i).filter Binary64.isPositive = [] := by
    refine List.filter_eq_nil_iff.2 fun w hmem => ?_
    obtain ⟨j, hj, rfl⟩ := List.mem_take_iff_getElem.1 hmem
    exact hbefore j (by omega)
  have hpost : (weights.drop (i + 1)).filter Binary64.isPositive = [] := by
    refine List.filter_eq_nil_iff.2 fun w hmem hpos => ?_
    obtain ⟨j, hj, rfl⟩ := List.mem_drop_iff_getElem.1 hmem
    have hle := hlast (i + 1 + j) _ (List.getElem?_eq_getElem (by omega)) hpos
    omega
  have hsplit : weights.filter Binary64.isPositive = [weights[i]] := by
    conv_lhs => rw [← List.take_append_drop i weights, List.drop_eq_getElem_cons hi]
    rw [List.filter_append, hpre, List.filter_cons_of_pos hw, hpost, List.nil_append]
  rw [positiveTotal, hsplit, Binary64.sum, List.foldl_cons, List.foldl_nil, Binary64.zero_add hw]

/-- In an infinite total each draw selects the last positive weight. -/
theorem le_of_selectWeighted {draw : Binary64} (hdraw : Binary64.zero.le draw = true)
    (hinfinite : (positiveTotal weights).isInfinite = true) {i : Nat}
    (hselect : selectWeighted weights draw = some i) {k : Nat} {w : Binary64}
    (hget : weights[k]? = some w) (hw : w.isPositive = true) : k ≤ i := by
  have htotal := (isNonneg_positiveTotal weights).isPositive_of_isInfinite hinfinite
  rw [selectWeighted_eq_selectFrom htotal] at hselect
  have hle := le_of_selectFrom (not_lt_target htotal hdraw hinfinite) hselect hget hw
  omega

variable (hfinite : ∀ w ∈ weights, w.isFinite = true)
  (hpositive : ∃ w ∈ weights, w.isPositive = true)
include hfinite hpositive

/-- A draw of zero selects the first positive weight as long as the total is in range. -/
theorem selectWeighted_eq_findIdx?_iff {draw : Binary64} (hdraw : draw.isZero = true) :
    selectWeighted weights draw = weights.findIdx? Binary64.isPositive ↔
      (positiveTotal weights).isFinite = true := by
  have htotal := (isPositive_positiveTotal_iff weights).2 hpositive
  constructor
  · intro hfirst
    rw [(isNonneg_positiveTotal weights).isFinite_iff, Bool.eq_false_iff]
    intro hinfinite
    obtain ⟨i, hselect⟩ := exists_selectWeighted hpositive draw
    have hlast (j : Nat) (w : Binary64) (hget : weights[j]? = some w)
        (hw : w.isPositive = true) : j ≤ i :=
      le_of_selectWeighted (Binary64.zero_le_iff.2 (.inr hdraw)) hinfinite hselect hget hw
    -- Being the first positive weight and the last, it is the only one, and no sum was formed.
    obtain ⟨w, hmem, hw⟩ := positiveTotal_of_unique (hfirst ▸ hselect) hlast
    have hnot := ((isNonneg_positiveTotal weights).isFinite_iff.1 (hw ▸ hfinite w hmem))
    rw [hinfinite] at hnot
    cases hnot
  · intro hrange
    rw [selectWeighted_eq_selectFrom htotal,
      selectFrom_eq_findIdx? (fun _ => target_lt_of_isZero htotal hdraw hrange)
        Binary64.isNonneg_zero]
    simp

omit hfinite in
/-- Of two draws, the later one never selects an earlier place. -/
theorem selectWeighted_le_selectWeighted {draw draw' : Binary64}
    (hdraw : Binary64.zero.le draw = true) (hle : draw.le draw' = true)
    (hbelow : draw'.lt .one = true) :
    ∃ i j, selectWeighted weights draw = some i ∧ selectWeighted weights draw' = some j ∧
      i ≤ j := by
  have htotal := (isPositive_positiveTotal_iff weights).2 hpositive
  have hrange := Binary64.isFinite_of_lt (Binary64.zero_le_of_le hdraw hle) Binary64.isNonneg_one
    hbelow
  obtain ⟨i, hi⟩ := exists_selectWeighted hpositive draw
  obtain ⟨j, hj⟩ := exists_selectWeighted hpositive draw'
  refine ⟨i, j, hi, hj, ?_⟩
  rw [selectWeighted_eq_selectFrom htotal] at hi hj
  exact selectFrom_le_selectFrom (fun _ => target_lt_of_le htotal hdraw hle hrange)
    Binary64.isNonneg_zero hi hj

end

/-- Selection follows the draw in the order of the weights. For draws from zero to below one, the
later of two never selects the earlier place. A draw of zero selects the first positive weight
exactly when the total of the positive weights is finite; when it is not, all of them select the
last one. -/
theorem selectWeighted_ordered {weights : List Binary64}
    (hfinite : ∀ w ∈ weights, w.isFinite = true)
    (hpositive : ∃ w ∈ weights, w.isPositive = true) :
    (∀ draw draw' : Binary64, Binary64.zero.le draw = true → draw.le draw' = true →
      draw'.lt .one = true → ∃ i j, selectWeighted weights draw = some i ∧
        selectWeighted weights draw' = some j ∧ i ≤ j) ∧
    (∀ draw : Binary64, draw.isZero = true →
      (selectWeighted weights draw = weights.findIdx? Binary64.isPositive ↔
        (positiveTotal weights).isFinite = true)) ∧
    ((positiveTotal weights).isFinite = false → ∀ draw : Binary64, Binary64.zero.le draw = true →
      ∃ i, selectWeighted weights draw = some i ∧
        ∀ k w, weights[k]? = some w → w.isPositive = true → k ≤ i) := by
  refine ⟨fun _ _ => selectWeighted_le_selectWeighted hpositive,
    fun _ => selectWeighted_eq_findIdx?_iff hfinite hpositive, fun hrange draw hdraw => ?_⟩
  have hinfinite : (positiveTotal weights).isInfinite = true := by
    by_contra hnot
    rw [(isNonneg_positiveTotal weights).isFinite_iff.2 (Bool.eq_false_iff.2 hnot)] at hrange
    cases hrange
  obtain ⟨i, hselect⟩ := exists_selectWeighted hpositive draw
  exact ⟨i, hselect, fun _ _ => le_of_selectWeighted hdraw hinfinite hselect⟩

/-- Of the weights 0, 1 and 2, the draw 0 selects the second and the draw 1/2 the third. -/
theorem selectWeighted_ordered_half :
    (∃ i j, selectWeighted [.zero, .one, .two] .zero = some i ∧
      selectWeighted [.zero, .one, .two] ⟨0x3fe0000000000000⟩ = some j ∧ i ≤ j) ∧
    selectWeighted [.zero, .one, .two] .zero = some 1 ∧
    selectWeighted [.zero, .one, .two] ⟨0x3fe0000000000000⟩ = some 2 := by
  have hordered := @selectWeighted_ordered [.zero, .one, .two] (by decide) (by decide)
  refine ⟨hordered.1 _ _ (by decide) (by decide) (by decide), ?_, by decide +kernel⟩
  rw [(hordered.2.1 .zero (by decide)).2 (by decide +kernel)]
  decide

/-- The largest number twice over is more than the range holds, and a draw of zero selects the
second of the two. -/
theorem exists_selectWeighted_zero_ne_findIdx? :
    ∃ weights : List Binary64, (∀ w ∈ weights, w.isFinite = true ∧ Binary64.zero.le w = true) ∧
      (∃ w ∈ weights, w.isPositive = true) ∧
      weights.findIdx? Binary64.isPositive = some 0 ∧
      selectWeighted weights .zero = some 1 :=
  ⟨[⟨0x7fefffffffffffff⟩, ⟨0x7fefffffffffffff⟩], by decide, by decide, by decide,
    by decide +kernel⟩

end Draw

end Phrasebook
