import Phrasebook.Draw.Site
import Phrasebook.Proofs.Binary64.UnitInterval

/-!
# Draws in the unit interval

A time is brought into the unit interval and turns the sample of a site around it. Rounding could
leave the interval in both steps: a time just below a whole number becomes one, which counts as
zero, and a sum of one or more loses one. So every draw lies in the interval, whatever the time
is, and this rests on nothing of the samples but that they are whole multiples of `2 ^ (-53)`
below one.
-/

namespace Phrasebook.Draw

open Binary64 (zero one)

/-! ## Times -/

/-- Lifting a fraction that is below zero by one leaves a number from zero on. -/
theorem zero_le_lifted {rest : Binary64} (hfinite : rest.isFinite = true)
    (habove : -(Binary64.unitQuanta : Int) < rest.value) :
    let lifted := if rest.lt zero then rest.add one else rest
    lifted.isNaN = false ∧ zero.le lifted = true := by
  dsimp only
  have hnumeric := Binary64.numeric_of_isFinite hfinite
  split
  · have hone : one.isFinite = true := by decide
    have hsum : 0 < rest.value + Binary64.unitQuanta := by omega
    rw [Binary64.add_of_isFinite hfinite hone, Binary64.value_one, if_neg hsum.ne']
    have hnonneg := Binary64.isNonneg_nearest hsum.le
    exact ⟨hnonneg.numeric, hnonneg.zero_le⟩
  · next hnot =>
    rw [Binary64.lt_eq_not_le hnumeric Binary64.isNonneg_zero.numeric] at hnot
    exact ⟨hnumeric, by simpa using hnot⟩

/-- Every time, be it finite or not, has a place in the unit interval. -/
theorem isInUnit_wrapUnit (t : Binary64) : (wrapUnit t).IsInUnit := by
  have hzero : zero.IsInUnit := by decide
  unfold wrapUnit
  split
  · next hfinite =>
    obtain ⟨hnumeric, hle⟩ := zero_le_lifted (Binary64.isFinite_fraction hfinite)
      (Binary64.lt_value_fraction hfinite)
    dsimp only at hnumeric hle ⊢
    generalize (if t.fraction.lt zero then t.fraction.add one else t.fraction) = lifted
      at hnumeric hle ⊢
    split
    · exact hzero
    · next hone => exact Binary64.isInUnit_of_not_le hnumeric hle hone
  · exact hzero

/-! ## Draws -/

/-- Turning stays in the unit interval. -/
theorem isInUnit_rotate {base time : Binary64} (hbase : base.IsInUnit) (htime : time.IsInUnit) :
    (rotate base time).IsInUnit := by
  obtain ⟨hnumeric, hle, hcode⟩ := hbase.bounds_add htime
  unfold rotate
  dsimp only
  split
  · next hone => exact Binary64.isInUnit_sub_one hone hcode
  · next hone => exact Binary64.isInUnit_of_not_le hnumeric hle hone

-- A time that were left at one would turn the last sample onto one.
example : rotate (Binary64.ofUnitSample (2 ^ 53 - 1)) one = one := by decide +kernel

theorem sampleBits_lt (state : UInt64) (path : Path) : sampleBits state path < 2 ^ 53 := by
  unfold sampleBits
  generalize (Keystream.Key.ofSeed (Hash.ofBytes (siteKey state path))).word64 0 = word
  rw [UInt64.toNat_shiftRight, Nat.shiftRight_eq_div_pow]
  exact Nat.div_lt_of_lt_mul word.toNat_lt

theorem isUnitSample_sample (state : UInt64) (path : Path) : (sample state path).IsUnitSample :=
  Binary64.isUnitSample_ofUnitSample (sampleBits_lt state path)

/-- Every draw is a number from zero on and below one, for each seed state, each path and each
time, infinities and patterns that are no number among them. Of the base sample this takes only
that it is `k * 2 ^ (-53)` with `k` below `2 ^ 53`, which the sample of every site is. -/
theorem isInUnit_at :
    (∀ base : Binary64, base.IsUnitSample → ∀ t : Binary64,
      (rotate base (wrapUnit t)).IsInUnit) ∧
    ∀ (state : UInt64) (path : Path) (t : Binary64),
      (sample state path).IsUnitSample ∧ ((Source.ofTime state t).at path).IsInUnit := by
  have hdraw (base : Binary64) (hbase : base.IsUnitSample) (t : Binary64) :
      (rotate base (wrapUnit t)).IsInUnit :=
    isInUnit_rotate hbase.isInUnit (isInUnit_wrapUnit t)
  refine ⟨hdraw, fun state path t => ?_⟩
  have hsample := isUnitSample_sample state path
  exact ⟨hsample, hdraw _ hsample t⟩

/-- The last sample and the negative time next to zero, which rounding takes to a whole turn. -/
theorem isInUnit_at_nextBelowZero :
    let base := Binary64.ofUnitSample (2 ^ 53 - 1)
    let t : Binary64 := ⟨0x8000000000000001⟩
    base.IsUnitSample ∧ t.fraction.add one = one ∧ (rotate base (wrapUnit t)).IsInUnit := by
  intro base t
  have hbase : base.IsUnitSample := Binary64.isUnitSample_ofUnitSample (by decide)
  exact ⟨hbase, by decide +kernel, isInUnit_at.1 base hbase t⟩

end Phrasebook.Draw
