import Phrasebook.Proofs.Binary64.SignedSums

/-!
# The unit interval

Numbers from zero on and below one. The fraction of a finite number is one of them unless it is
below zero. A sum of two of them may reach one, but it stays so far below two that taking one away
leaves a number of the interval again.
-/

namespace Phrasebook.Binary64

def IsInUnit (x : Binary64) : Prop :=
  x.isNaN = false ∧ zero.le x = true ∧ x.lt one = true

instance (x : Binary64) : Decidable x.IsInUnit := inferInstanceAs (Decidable (_ ∧ _))

theorem IsNonneg.isInUnit_iff {x : Binary64} (hx : x.IsNonneg) :
    x.IsInUnit ↔ x.code < one.code := by
  rw [← hx.lt_iff isNonneg_one]
  exact ⟨fun hunit => hunit.2.2, fun hlt => ⟨hx.numeric, hx.zero_le, hlt⟩⟩

theorem IsInUnit.isFinite {x : Binary64} (hx : x.IsInUnit) : x.isFinite = true :=
  isFinite_of_lt hx.2.1 isNonneg_one hx.2.2

/-- What is from zero on and not from one on lies in between. -/
theorem isInUnit_of_not_le {x : Binary64} (hx : x.isNaN = false) (hzero : zero.le x = true)
    (hone : ¬one.le x = true) : x.IsInUnit := by
  refine ⟨hx, hzero, ?_⟩
  rw [lt_eq_not_le hx isNonneg_one.numeric, Bool.eq_false_iff.2 hone]
  rfl

/-! ## Fractions -/

theorem isNaN_fraction {x : Binary64} (hinfinite : x.isInfinite = true) :
    x.fraction.isNaN = true := by
  have hfinite : ¬x.isFinite = true := by
    rw [isInfinite, beq_iff_eq] at hinfinite
    rw [isFinite, decide_eq_true_iff, hinfinite]
    exact Nat.lt_irrefl _
  rw [fraction, if_neg hfinite]
  decide

/-- Every finite number that is not below zero has a fraction of the unit interval. -/
theorem isInUnit_fraction_iff {x : Binary64} (hx : x.IsNonneg) :
    x.fraction.IsInUnit ↔ x.isInfinite = false := by
  constructor
  · intro hunit
    cases hinfinite : x.isInfinite with
    | false => rfl
    | true => exact absurd (isNaN_fraction hinfinite) (Bool.eq_false_iff.1 hunit.1)
  · intro hfinite
    obtain ⟨hnonneg, hlt⟩ := isNonneg_fraction hx (hx.isFinite_iff.2 hfinite)
    exact ⟨hnonneg.numeric, hnonneg.zero_le, hlt⟩

section
variable {x : Binary64} (hfinite : x.isFinite = true)
include hfinite

theorem isFinite_fraction : x.fraction.isFinite = true :=
  isFinite_of_code_le (code_fraction_lt hfinite).le (by decide)

/-- A fraction is above minus one. -/
theorem lt_value_fraction : -(unitQuanta : Int) < x.fraction.value := by
  have hquanta : x.fraction.quanta < unitQuanta := by
    rw [← quantaOf_code_one]
    exact quantaOf_lt_quantaOf (code_fraction_lt hfinite) code_one_lt.le
  rw [value]
  cases x.fraction.isNegative <;> simp [signed] <;> omega

end

/-! ## Rounding within the interval -/

def lastUnitQuanta : Nat := quantaOf (one.code - 1)

theorem lastUnitQuanta_lt : lastUnitQuanta < unitQuanta := by
  rw [← quantaOf_code_one]
  exact quantaOf_lt_quantaOf (by decide) code_one_lt.le

/-- Twice the largest number below one is the largest number below two. -/
theorem quantaOf_pred_code_two : quantaOf (two.code - 1) = 2 * lastUnitQuanta := by decide

theorem isNonneg_nearest {z : Int} (hz : 0 ≤ z) : (nearest z).IsNonneg := by
  rw [nearest, decide_eq_false (Int.not_lt.2 hz)]
  exact isNonneg_ofCode (nearestQuotient_le_infinityCode _ _)

/-- Rounding does not pass a magnitude. -/
theorem code_nearest_le {z : Int} (hz : 0 ≤ z) {code : Nat} (hcode : code ≤ infinityCode)
    (hle : z ≤ quantaOf code) : (nearest z).code ≤ code := by
  have habs : z.natAbs ≤ quantaOf code := by omega
  have hround := nearestQuotient_mono habs 1
  rw [nearestQuotient_quantaOf, Nat.min_eq_left hcode] at hround
  rwa [nearest, code_ofCode_nearestQuotient]

theorem isInUnit_nearest {z : Int} (hz : 0 ≤ z) (hle : z ≤ lastUnitQuanta) :
    (nearest z).IsInUnit := by
  have hcode : (nearest z).code ≤ one.code - 1 :=
    code_nearest_le hz (by decide) hle
  have hone : 0 < one.code := by decide
  rw [(isNonneg_nearest hz).isInUnit_iff]
  omega

theorem IsInUnit.value_mem {x : Binary64} (hx : x.IsInUnit) :
    0 ≤ x.value ∧ x.value ≤ lastUnitQuanta := by
  rcases zero_le_iff.1 hx.2.1 with hnonneg | hzero
  · rw [value_of_nonneg hnonneg]
    have hcode : x.code ≤ one.code - 1 := Nat.le_sub_one_of_lt (hnonneg.isInUnit_iff.1 hx)
    have hquanta : x.quanta ≤ lastUnitQuanta := quantaOf_le_quantaOf hcode (by decide)
    omega
  · rw [value_of_isZero hzero]
    omega

/-! ## Sums -/

/-- Rounding does not carry the sum of two numbers of the interval to two. -/
theorem IsInUnit.bounds_add {x y : Binary64} (hx : x.IsInUnit) (hy : y.IsInUnit) :
    (x.add y).isNaN = false ∧ zero.le (x.add y) = true ∧ (x.add y).code ≤ two.code - 1 := by
  obtain ⟨hxzero, hxlast⟩ := hx.value_mem
  obtain ⟨hyzero, hylast⟩ := hy.value_mem
  rw [add_of_isFinite hx.isFinite hy.isFinite]
  split
  · cases x.isNegative && y.isNegative <;> decide
  · have hsum : 0 ≤ x.value + y.value := Int.add_nonneg hxzero hyzero
    have hnonneg := isNonneg_nearest hsum
    refine ⟨hnonneg.numeric, hnonneg.zero_le, code_nearest_le hsum (by decide) ?_⟩
    rw [quantaOf_pred_code_two]
    omega

theorem value_one : one.value = unitQuanta := by
  rw [value_of_nonneg isNonneg_one, quanta, quantaOf_code_one]

/-- What is below two is below one when one is taken away. -/
theorem isInUnit_sub_one {x : Binary64} (hone : one.le x = true) (hcode : x.code ≤ two.code - 1) :
    (x.sub one).IsInUnit := by
  obtain ⟨hnonneg, hle⟩ := IsNonneg.of_le (by decide) hone
  have htwo : two.code - 1 < infinityCode := by decide
  have hfinite : x.isFinite = true := decide_eq_true (hcode.trans_lt htwo)
  have hlower : unitQuanta ≤ x.quanta := by
    rw [← quantaOf_code_one]
    exact quantaOf_le_quantaOf hle (code_le_of_isFinite hfinite)
  have hupper : x.quanta ≤ 2 * lastUnitQuanta := by
    rw [← quantaOf_pred_code_two]
    exact quantaOf_le_quantaOf hcode htwo.le
  have hlast := lastUnitQuanta_lt
  rw [sub_of_isFinite hfinite (by decide), value_of_nonneg hnonneg, value_one]
  split
  · cases x.isNegative && !one.isNegative <;> decide
  · exact isInUnit_nearest (by omega) (by omega)

/-! ## Samples -/

/-- Being `k * 2 ^ (-53)` for a whole number `k` of at most 53 digits. -/
structure IsUnitSample (x : Binary64) : Prop where
  isNonneg : x.IsNonneg
  exists_digits : ∃ k < 2 ^ 53, x.quanta * 2 ^ 53 = k * unitQuanta

theorem code_lt_of_digits {code k : Nat} (hk : k < 2 ^ 53)
    (hdigits : quantaOf code * 2 ^ 53 = k * unitQuanta) : code < one.code := by
  refine lt_of_quantaOf_lt ?_ code_one_lt
  have hunit : 0 < unitQuanta := by decide
  rw [quantaOf_code_one]
  refine Nat.lt_of_mul_lt_mul_right (a := 2 ^ 53) ?_
  rw [hdigits, Nat.mul_comm unitQuanta]
  exact Nat.mul_lt_mul_of_pos_right hk hunit

theorem IsUnitSample.isInUnit {x : Binary64} (hx : x.IsUnitSample) : x.IsInUnit := by
  obtain ⟨hnonneg, k, hk, hdigits⟩ := hx
  exact hnonneg.isInUnit_iff.2 (code_lt_of_digits hk hdigits)

/-- Each number of at most 53 digits makes a sample, and nothing of it is rounded. -/
theorem isUnitSample_ofUnitSample {k : Nat} (hk : k < 2 ^ 53) : (ofUnitSample k).IsUnitSample := by
  obtain ⟨code, hquanta⟩ := exists_quantaOf_eq hk (unitScale - 53)
  have hdigits : quantaOf code * 2 ^ 53 = k * unitQuanta := by
    rw [hquanta, unitQuanta_eq, Nat.mul_assoc, ← Nat.pow_add, Nat.sub_add_cancel (by decide)]
  have hcode : code < infinityCode := (code_lt_of_digits hk hdigits).trans code_one_lt
  have hsample : ofUnitSample k = ofCode false code := by
    rw [ofUnitSample, nearestScaled_eq, ← hquanta, nearestQuotient_quantaOf,
      Nat.min_eq_left hcode.le]
  refine ⟨hsample ▸ isNonneg_ofCode hcode.le, k, hk, ?_⟩
  rw [hsample, quanta, code_ofCode false (hcode.trans infinityCode_lt), hdigits]

end Phrasebook.Binary64
