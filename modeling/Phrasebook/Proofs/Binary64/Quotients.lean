import Phrasebook.Proofs.Binary64.Magnitude
import Phrasebook.Proofs.Binary64.Order

/-!
# Products and quotients

A product of finite numbers is the product of their magnitudes rounded once, whichever way it is
computed, so it grows with each factor. A quotient of numbers that are not below zero is rounded
once as well; it is infinite from a fixed multiple of the divisor on.
-/

namespace Phrasebook.Binary64

/-! ## Magnitudes in quanta -/

theorem quanta_of_isZero {x : Binary64} (hx : x.isZero = true) : x.quanta = 0 := by
  rw [isZero, beq_iff_eq] at hx
  rw [quanta, hx]
  rfl

theorem quanta_lt_overflowQuanta {x : Binary64} (hx : x.isFinite = true) :
    x.quanta < overflowQuanta := by
  refine Nat.lt_of_not_le fun hle => ?_
  have hinfinite := (nearestQuotient_eq_infinityCode_iff Nat.one_pos).2
    ((Nat.mul_one overflowQuanta).trans_le hle)
  rw [quanta, nearestQuotient_quantaOf, min_eq_right_iff] at hinfinite
  exact absurd (decide_eq_true_iff.1 hx) (Nat.not_lt.2 hinfinite)

/-! ## Products -/

theorem quanta_eq (x : Binary64) : x.quanta = x.mantissa * 2 ^ x.scale :=
  Nat.shiftLeft_eq _ _

theorem mulCode_eq (x y : Binary64) :
    mulCode x y = nearestQuotient (x.quanta * y.quanta) unitQuanta := by
  have hquanta : x.quanta * y.quanta = x.mantissa * y.mantissa * 2 ^ (x.scale + y.scale) := by
    rw [quanta_eq, quanta_eq, Nat.pow_add]
    ring
  unfold mulCode
  dsimp only
  rw [hquanta, unitQuanta_eq]
  generalize x.scale + y.scale = scale
  split
  · next hle =>
    obtain ⟨up, hup⟩ := Nat.exists_eq_add_of_le hle
    rw [hup, Nat.add_sub_cancel_left, nearestScaled_eq,
      ← nearestQuotient_mul_right _ 1 (Nat.two_pow_pos unitScale), Nat.one_mul, Nat.add_comm,
      Nat.pow_add, Nat.mul_assoc]
  · next hnot =>
    obtain ⟨down, hdown⟩ := Nat.exists_eq_add_of_le (Nat.le_of_not_le hnot)
    rw [hdown, Nat.add_sub_cancel_left, twoPow_eq_two_pow,
      ← nearestQuotient_mul_right _ (2 ^ down) (Nat.two_pow_pos scale), ← Nat.pow_add,
      Nat.add_comm down]

section
variable {x y : Binary64}

theorem mul_of_isFinite (hx : x.IsNonneg) (hy : y.IsNonneg) (hxfinite : x.isFinite = true)
    (hyfinite : y.isFinite = true) :
    x.mul y = ofCode false (nearestQuotient (x.quanta * y.quanta) unitQuanta) := by
  simp [mul, hx.numeric, hy.numeric, hx.unsigned, hy.unsigned, hx.isFinite_iff.1 hxfinite,
    hy.isFinite_iff.1 hyfinite, mulCode_eq]

theorem isZero_mul (hx : x.isZero = true) (hy : y.IsNonneg) (hfinite : y.isFinite = true) :
    (x.mul y).isZero = true := by
  simp [mul, numeric_of_isZero hx, hy.numeric, isInfinite_of_isZero hx, hy.isFinite_iff.1 hfinite,
    mulCode_eq, quanta_of_isZero hx, nearestQuotient_zero, isZero, code_ofCode]

/-- A number that is not below zero makes nothing or infinity of an infinite one. -/
theorem mul_of_isInfinite (hx : zero.le x = true) (hy : y.IsNonneg)
    (hinfinite : y.isInfinite = true) : x.mul y = if x.isZero then nan else infinity false := by
  have hyzero : y.isZero = false := by
    rw [isInfinite, beq_iff_eq] at hinfinite
    rw [isZero, hinfinite]
    rfl
  rcases zero_le_iff.1 hx with hnonneg | hzero
  · simp [mul, hnonneg.numeric, hy.numeric, hnonneg.unsigned, hy.unsigned, hinfinite, hyzero]
  · simp [mul, numeric_of_isZero hzero, hy.numeric, hinfinite, hzero]

theorem isNonneg_mul (hx : x.IsNonneg) (hy : y.IsNonneg) (hxfinite : x.isFinite = true)
    (hyfinite : y.isFinite = true) : (x.mul y).IsNonneg := by
  rw [mul_of_isFinite hx hy hxfinite hyfinite]
  exact isNonneg_ofCode (nearestQuotient_le_infinityCode _ _)

/-- Products keep the order of their factors. -/
theorem code_mul_le {x' : Binary64} (hx : x.IsNonneg) (hx' : x'.IsNonneg) (hle : x.code ≤ x'.code)
    (hx'finite : x'.isFinite = true) (hy : y.IsNonneg) (hyfinite : y.isFinite = true) :
    (x.mul y).code ≤ (x'.mul y).code := by
  have hcode := code_le_of_isFinite hx'finite
  have hxfinite := isFinite_of_code_le hle hx'finite
  rw [mul_of_isFinite hx hy hxfinite hyfinite, mul_of_isFinite hx' hy hx'finite hyfinite,
    code_ofCode_nearestQuotient, code_ofCode_nearestQuotient]
  exact nearestQuotient_mono (Nat.mul_le_mul_right _ (quantaOf_le_quantaOf hle hcode)) _

/-! ## Quotients -/

theorem div_of_isFinite (hx : x.IsNonneg) (hy : y.isPositive = true) (hxfinite : x.isFinite = true)
    (hyfinite : y.isFinite = true) :
    x.div y = ofCode false (nearestQuotient (x.quanta * unitQuanta) y.quanta) := by
  have hnonneg := IsNonneg.of_isPositive hy
  simp [div, hx.numeric, hnonneg.numeric, hx.unsigned, hnonneg.unsigned,
    hx.isFinite_iff.1 hxfinite, hnonneg.isFinite_iff.1 hyfinite,
    isZero_of_isPositive hy, Nat.shiftLeft_eq, unitQuanta_eq]

theorem quanta_pos (hy : y.isPositive = true) (hyfinite : y.isFinite = true) : 0 < y.quanta :=
  quantaOf_pos ((IsNonneg.of_isPositive hy).isPositive_iff.1 hy) (code_le_of_isFinite hyfinite)

theorem isNonneg_div (hx : x.IsNonneg) (hy : y.isPositive = true) (hxfinite : x.isFinite = true)
    (hyfinite : y.isFinite = true) : (x.div y).IsNonneg := by
  rw [div_of_isFinite hx hy hxfinite hyfinite]
  exact isNonneg_ofCode (nearestQuotient_le_infinityCode _ _)

/-- A quotient of finite numbers is infinite when its exact value is beyond the range. -/
theorem isInfinite_div_iff (hx : x.IsNonneg) (hy : y.isPositive = true)
    (hxfinite : x.isFinite = true) (hyfinite : y.isFinite = true) :
    (x.div y).isInfinite = true ↔ overflowQuanta * y.quanta ≤ x.quanta * unitQuanta := by
  rw [div_of_isFinite hx hy hxfinite hyfinite, isInfinite, beq_iff_eq,
    code_ofCode_nearestQuotient, nearestQuotient_eq_infinityCode_iff (quanta_pos hy hyfinite)]

end

end Phrasebook.Binary64
