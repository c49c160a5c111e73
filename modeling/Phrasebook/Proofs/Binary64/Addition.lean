import Phrasebook.Binary64.Arithmetic

/-!
# Sums of numbers that are not below zero

Numbers with a clear sign stay such when they are added, through rounding and overflow,
and a sum of them is positive exactly when one of them is.
-/

namespace Phrasebook.Binary64

/-- A number, infinity included, whose sign is clear. -/
structure IsNonneg (x : Binary64) : Prop where
  unsigned : x.isNegative = false
  numeric : x.isNaN = false

/-! ## Codes -/

theorem infinityCode_lt : infinityCode < 9223372036854775808 := by decide

theorem isNonneg_ofCode {code : Nat} (hcode : code ≤ infinityCode) :
    (ofCode false code).IsNonneg := by
  have hlt : code < 9223372036854775808 := Nat.lt_of_le_of_lt hcode infinityCode_lt
  constructor
  · exact isNegative_ofCode false hlt
  · rw [isNaN, code_ofCode false hlt]
    exact decide_eq_false (Nat.not_lt.2 hcode)

theorem isNonneg_zero : zero.IsNonneg := ⟨by decide, by decide⟩

theorem isNonneg_one : one.IsNonneg := ⟨by decide, by decide⟩

@[simp] theorem code_zero : zero.code = 0 := by decide

theorem ofCode_false_zero : ofCode false 0 = zero := rfl

namespace IsNonneg

/-- Among numbers with a clear sign, the codes tell the order. -/
theorem lt_iff {x y : Binary64} (hx : x.IsNonneg) (hy : y.IsNonneg) :
    x.lt y = true ↔ x.code < y.code := by
  simp [lt, hx.numeric, hy.numeric, hx.unsigned, hy.unsigned]

theorem le_iff {x y : Binary64} (hx : x.IsNonneg) (hy : y.IsNonneg) :
    x.le y = true ↔ x.code ≤ y.code := by
  simp [le, hx.numeric, hy.numeric, hx.unsigned, hy.unsigned]

theorem isPositive_iff {x : Binary64} (hx : x.IsNonneg) : x.isPositive = true ↔ 0 < x.code := by
  rw [isPositive, isNonneg_zero.lt_iff hx, code_zero]

theorem zero_le {x : Binary64} (hx : x.IsNonneg) : zero.le x = true := by
  rw [isNonneg_zero.le_iff hx, code_zero]
  exact Nat.zero_le _

theorem le_zero_iff {x : Binary64} (hx : x.IsNonneg) :
    x.le zero = true ↔ x.isPositive = false := by
  rw [← Bool.not_eq_true, hx.isPositive_iff, hx.le_iff isNonneg_zero, code_zero, Nat.not_lt]

theorem isZero_iff {x : Binary64} (hx : x.IsNonneg) :
    x.isZero = true ↔ x.isPositive = false := by
  rw [← Bool.not_eq_true, hx.isPositive_iff, isZero, beq_iff_eq]
  omega

theorem of_isPositive {x : Binary64} (hx : x.isPositive = true) : x.IsNonneg := by
  rw [isPositive, lt] at hx
  split at hx
  · cases hx
  · next hnumeric =>
    have hnan : x.isNaN = false := by simpa using (not_or.1 (mt Bool.or_eq_true_iff.2 hnumeric)).2
    have hzero : zero.isNegative = false := by decide
    refine ⟨?_, hnan⟩
    cases hsign : x.isNegative with
    | false => rfl
    | true => simp [hzero, hsign] at hx

theorem isPositive_of_isInfinite {x : Binary64} (hx : x.IsNonneg)
    (hinfinite : x.isInfinite = true) : x.isPositive = true := by
  have hcode : x.code = infinityCode := beq_iff_eq.1 hinfinite
  rw [hx.isPositive_iff, hcode]
  decide

theorem eq_zero {x : Binary64} (hx : x.IsNonneg) (hzero : x.isZero = true) : x = zero := by
  have hcode : x.code = 0 := beq_iff_eq.1 hzero
  rw [← ofCode_code x, hx.unsigned, hcode, ofCode_false_zero]

end IsNonneg

theorem isPositive_ofCode_iff {code : Nat} (hcode : code ≤ infinityCode) :
    (ofCode false code).isPositive = true ↔ 0 < code := by
  rw [(isNonneg_ofCode hcode).isPositive_iff,
    code_ofCode false (Nat.lt_of_le_of_lt hcode infinityCode_lt)]

/-! ## Rounding -/

theorem mantissa_pos_iff {x : Binary64} : 0 < x.mantissa ↔ 0 < x.code := by
  unfold mantissa mantissaOf
  have hhidden : 0 < hiddenBit := by decide
  split
  · rfl
  · omega

theorem mantissa_of_isZero {x : Binary64} (hzero : x.isZero = true) : x.mantissa = 0 := by
  have hcode : x.code = 0 := beq_iff_eq.1 hzero
  exact Nat.eq_zero_of_not_pos (mt mantissa_pos_iff.1 (by omega))

theorem nearestScaled_le (n e : Nat) : nearestScaled n e ≤ infinityCode := by
  unfold nearestScaled
  dsimp only
  split
  · split
    · exact Nat.zero_le _
    · exact Nat.min_le_right _ _
  · exact Nat.min_le_right _ _

theorem twoPow_pos (k : Nat) : 0 < twoPow k := by
  rw [twoPow_eq, Nat.shiftLeft_eq, Nat.one_mul]
  exact Nat.two_pow_pos k

/-- Rounding leaves no magnitude at zero that is not there. -/
theorem nearestScaled_pos_iff (n e : Nat) : 0 < nearestScaled n e ↔ 0 < n := by
  have hinfinity : 0 < infinityCode := by decide
  unfold nearestScaled
  dsimp only
  split
  · split
    · next hzero => simp [hzero]
    · next hne =>
      have hn : 0 < n := Nat.pos_of_ne_zero hne
      have hshifted : 0 < n * twoPow (min e (precision - bitLength n)) :=
        Nat.mul_pos hn (twoPow_pos _)
      exact ⟨fun _ => hn, fun _ => Nat.lt_min.2 ⟨Nat.lt_add_left _ hshifted, hinfinity⟩⟩
  · next hlong =>
    -- A number that is too long to keep has a scale above zero.
    have hn : 0 < n := by
      refine Nat.pos_of_ne_zero ?_
      rintro rfl
      exact hlong (Nat.zero_le _)
    have hscale : 0 < (e + (bitLength n - precision)) * hiddenBit :=
      Nat.mul_pos (by omega) (by decide)
    exact ⟨fun _ => hn, fun _ => Nat.lt_min.2 ⟨Nat.lt_add_right _ hscale, hinfinity⟩⟩

theorem nearestScaled_zero (e : Nat) : nearestScaled 0 e = 0 :=
  Nat.eq_zero_of_not_pos (mt (nearestScaled_pos_iff 0 e).1 (Nat.lt_irrefl 0))

/-! ## Sums -/

theorem isNonneg_addFinite {x y : Binary64} (hx : x.IsNonneg) (hy : y.IsNonneg) :
    (addFinite x y).IsNonneg := by
  unfold addFinite
  split
  · exact hy
  · split
    · exact hx
    · simp only [hx.unsigned, hy.unsigned, BEq.rfl, if_true]
      exact isNonneg_ofCode (nearestScaled_le _ _)

theorem isPositive_addFinite_iff {x y : Binary64} (hx : x.IsNonneg) (hy : y.IsNonneg) :
    (addFinite x y).isPositive = true ↔ x.isPositive = true ∨ y.isPositive = true := by
  unfold addFinite
  split
  · next hzero =>
    have hnot : x.isPositive = false := hx.isZero_iff.1 (Bool.and_eq_true_iff.1 hzero).1
    simp [hnot]
  · split
    · next hzero =>
      have hnot : y.isPositive = false := hy.isZero_iff.1 (Bool.and_eq_true_iff.1 hzero).1
      simp [hnot]
    · simp only [hx.unsigned, hy.unsigned, BEq.rfl, if_true]
      rw [isPositive_ofCode_iff (nearestScaled_le _ _), nearestScaled_pos_iff,
        Nat.add_pos_iff_pos_or_pos, Nat.mul_pos_iff_of_pos_right (twoPow_pos _),
        Nat.mul_pos_iff_of_pos_right (twoPow_pos _), mantissa_pos_iff, mantissa_pos_iff,
        hx.isPositive_iff, hy.isPositive_iff]

theorem add_eq {x y : Binary64} (hx : x.IsNonneg) (hy : y.IsNonneg) :
    x.add y = if x.isInfinite then x else if y.isInfinite then y else addFinite x y := by
  simp [add, hx.numeric, hy.numeric, hx.unsigned, hy.unsigned]

/-- A zero of either sign is neutral for numbers with a clear sign. -/
theorem add_eq_of_isZero {x y : Binary64} (hx : x.IsNonneg) (hy : y.isZero = true) :
    x.add y = x := by
  have hcode : y.code = 0 := beq_iff_eq.1 hy
  have hnumeric : y.isNaN = false := by
    rw [isNaN, hcode]
    rfl
  have hfinite : y.isInfinite = false := by
    rw [isInfinite, hcode]
    rfl
  cases hzero : x.isZero with
  | false => simp [add, hx.numeric, hnumeric, hfinite, addFinite, hy, hzero]
  | true =>
      -- Of two zeros that differ in sign, the positive one stays.
      obtain rfl := hx.eq_zero hzero
      cases hsign : y.isNegative <;>
        simp [add, hx.numeric, hx.unsigned, hnumeric, hfinite, addFinite, hy, hsign,
          mantissa_of_isZero hy, mantissa_of_isZero hzero, nearestScaled_zero, ofCode_false_zero]

theorem isNonneg_add {x y : Binary64} (hx : x.IsNonneg) (hy : y.IsNonneg) :
    (x.add y).IsNonneg := by
  rw [add_eq hx hy]
  split
  · exact hx
  · split
    · exact hy
    · exact isNonneg_addFinite hx hy

theorem isPositive_add_iff {x y : Binary64} (hx : x.IsNonneg) (hy : y.IsNonneg) :
    (x.add y).isPositive = true ↔ x.isPositive = true ∨ y.isPositive = true := by
  rw [add_eq hx hy]
  split
  · next hinfinite => simp [hx.isPositive_of_isInfinite hinfinite]
  · split
    · next hinfinite => simp [hy.isPositive_of_isInfinite hinfinite]
    · exact isPositive_addFinite_iff hx hy

theorem isNonneg_foldl_add {xs : List Binary64} (hxs : ∀ x ∈ xs, x.IsNonneg) {total : Binary64}
    (htotal : total.IsNonneg) :
    (xs.foldl add total).IsNonneg ∧
      ((xs.foldl add total).isPositive = true ↔
        total.isPositive = true ∨ ∃ x ∈ xs, x.isPositive = true) := by
  induction xs generalizing total with
  | nil => simp [htotal]
  | cons x xs ih =>
      have hx : x.IsNonneg := hxs x List.mem_cons_self
      obtain ⟨hnonneg, hpositive⟩ := ih (fun y hy => hxs y (List.mem_cons_of_mem _ hy))
        (isNonneg_add htotal hx)
      refine ⟨hnonneg, hpositive.trans ?_⟩
      simp only [isPositive_add_iff htotal hx, List.mem_cons, exists_eq_or_imp, or_assoc]

theorem isNonneg_sum {xs : List Binary64} (hxs : ∀ x ∈ xs, x.IsNonneg) : (sum xs).IsNonneg :=
  (isNonneg_foldl_add hxs isNonneg_zero).1

/-- A sum is positive exactly when one of the numbers is, whatever is lost in rounding. -/
theorem isPositive_sum_iff {xs : List Binary64} (hxs : ∀ x ∈ xs, x.IsNonneg) :
    (sum xs).isPositive = true ↔ ∃ x ∈ xs, x.isPositive = true := by
  have hzero : ¬zero.isPositive = true := by decide
  rw [sum, (isNonneg_foldl_add hxs isNonneg_zero).2, or_iff_right hzero]

end Phrasebook.Binary64
