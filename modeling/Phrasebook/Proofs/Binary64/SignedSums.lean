import Phrasebook.Proofs.Binary64.Quotients

/-!
# Sums of numbers with a sign

The sum of two finite numbers is their exact sum rounded once, whatever signs they have. Where the
exact sum is zero, the sign is set only when both numbers have it set. A difference is the sum with
the opposite number.
-/

namespace Phrasebook.Binary64

/-! ## Values in quanta -/

def signed (negative : Bool) (quanta : Nat) : Int := if negative then -quanta else quanta

def value (x : Binary64) : Int := signed x.isNegative x.quanta

def nearest (z : Int) : Binary64 := ofCode (decide (z < 0)) (nearestQuotient z.natAbs 1)

@[simp] theorem signed_eq_zero_iff {negative : Bool} {quanta : Nat} :
    signed negative quanta = 0 ↔ quanta = 0 := by
  cases negative <;> simp [signed]

theorem signed_add_signed (negative : Bool) (a b : Nat) :
    signed negative a + signed negative b = signed negative (a + b) := by
  cases negative
  · exact (Int.natCast_add a b).symm
  · simp only [signed, if_true]
    omega

/-- Of opposite numbers, the larger one gives the sign. -/
theorem signed_add_signed_not (negative : Bool) {a b : Nat} (hle : b ≤ a) :
    signed negative a + signed (!negative) b = signed negative (a - b) := by
  cases negative <;> simp [signed] <;> omega

theorem value_of_nonneg {x : Binary64} (hx : x.IsNonneg) : x.value = x.quanta := by
  rw [value, hx.unsigned]
  rfl

theorem value_of_isZero {x : Binary64} (hx : x.isZero = true) : x.value = 0 := by
  rw [value, signed_eq_zero_iff, quanta_of_isZero hx]

theorem quanta_eq_zero_iff {x : Binary64} (hfinite : x.isFinite = true) :
    x.quanta = 0 ↔ x.isZero = true := by
  refine ⟨fun hquanta => ?_, quanta_of_isZero⟩
  have hcode : ¬0 < x.code := fun hpos =>
    (quantaOf_pos hpos (code_le_of_isFinite hfinite)).ne' hquanta
  rw [isZero, beq_iff_eq]
  omega

theorem nearest_signed (negative : Bool) {quanta : Nat} (hpos : 0 < quanta) :
    nearest (signed negative quanta) = ofCode negative (nearestQuotient quanta 1) := by
  have hsign : decide (signed negative quanta < 0) = negative := by
    cases negative
    · simp [signed]
    · simpa [signed] using hpos
  have habs : (signed negative quanta).natAbs = quanta := by cases negative <;> simp [signed]
  rw [nearest, hsign, habs]

theorem value_ne_zero {x : Binary64} (hfinite : x.isFinite = true) (hne : x.isZero = false) :
    x.value ≠ 0 := by
  rw [value, Ne, signed_eq_zero_iff, quanta_eq_zero_iff hfinite, hne]
  exact Bool.false_ne_true

/-- A number other than zero is the one nearest to its value. -/
theorem nearest_value {x : Binary64} (hfinite : x.isFinite = true) (hne : x.isZero = false) :
    nearest x.value = x := by
  have hquanta : x.quanta ≠ 0 := mt signed_eq_zero_iff.2 (value_ne_zero hfinite hne)
  rw [value, nearest_signed _ (Nat.pos_of_ne_zero hquanta), quanta, nearestQuotient_quantaOf,
    Nat.min_eq_left (code_le_of_isFinite hfinite), ofCode_code]

/-! ## Sums -/

/-- The scale that the summands are brought to does not show in the sum. -/
theorem addFinite_eq (x y : Binary64) :
    addFinite x y =
      if x.isZero && !y.isZero then y
      else if y.isZero && !x.isZero then x
      else if x.isNegative == y.isNegative then
        ofCode x.isNegative (nearestQuotient (x.quanta + y.quanta) 1)
      else if x.quanta = y.quanta then zero
      else if y.quanta < x.quanta then
        ofCode x.isNegative (nearestQuotient (x.quanta - y.quanta) 1)
      else ofCode y.isNegative (nearestQuotient (y.quanta - x.quanta) 1) := by
  have hscaled {scale common mantissa : Nat} (hle : common ≤ scale) :
      mantissa * 2 ^ scale = mantissa * 2 ^ (scale - common) * 2 ^ common := by
    rw [Nat.mul_assoc, ← Nat.pow_add, Nat.sub_add_cancel hle]
  unfold addFinite
  dsimp only
  simp only [nearestScaled_eq, twoPow_eq_two_pow, quanta_eq]
  rw [hscaled (Nat.min_le_left x.scale y.scale), hscaled (Nat.min_le_right x.scale y.scale)]
  generalize x.mantissa * 2 ^ (x.scale - min x.scale y.scale) = a
  generalize y.mantissa * 2 ^ (y.scale - min x.scale y.scale) = b
  have hpos : 0 < 2 ^ min x.scale y.scale := Nat.two_pow_pos _
  generalize 2 ^ min x.scale y.scale = unit at hpos
  simp only [Nat.add_mul, Nat.sub_mul, Nat.mul_left_inj hpos.ne', Nat.mul_lt_mul_right hpos]

/-- Magnitudes of one sign add up. -/
theorem ofCode_add_eq_nearest (negative : Bool) (a b : Nat) :
    ofCode negative (nearestQuotient (a + b) 1) =
      if signed negative a + signed negative b = 0 then ofCode negative 0
      else nearest (signed negative a + signed negative b) := by
  rw [signed_add_signed]
  split
  · next hnone => rw [signed_eq_zero_iff.1 hnone, nearestQuotient_zero]
  · next hsome => rw [nearest_signed _ (Nat.pos_of_ne_zero (mt signed_eq_zero_iff.2 hsome))]

/-- Of magnitudes with opposite signs, what the smaller one leaves of the larger one remains. -/
theorem ofCode_sub_eq_nearest (negative : Bool) (a b : Nat) :
    (if a = b then zero
      else if b < a then ofCode negative (nearestQuotient (a - b) 1)
      else ofCode (!negative) (nearestQuotient (b - a) 1)) =
      if signed negative a + signed (!negative) b = 0 then zero
      else nearest (signed negative a + signed (!negative) b) := by
  rcases Nat.lt_trichotomy a b with hlt | rfl | hgt
  · have hsum : signed negative a + signed (!negative) b = signed (!negative) (b - a) := by
      rw [Int.add_comm, ← signed_add_signed_not _ hlt.le, Bool.not_not]
    rw [hsum, if_neg (mt signed_eq_zero_iff.1 (Nat.sub_ne_zero_of_lt hlt)), if_neg hlt.ne,
      if_neg (Nat.not_lt.2 hlt.le), nearest_signed _ (Nat.sub_pos_of_lt hlt)]
  · rw [signed_add_signed_not _ le_rfl, Nat.sub_self, if_pos rfl,
      if_pos (signed_eq_zero_iff.2 rfl)]
  · rw [signed_add_signed_not _ hgt.le,
      if_neg (mt signed_eq_zero_iff.1 (Nat.sub_ne_zero_of_lt hgt)), if_neg hgt.ne', if_pos hgt,
      nearest_signed _ (Nat.sub_pos_of_lt hgt)]

/-- A sum of finite numbers is the exact sum rounded once. -/
theorem add_of_isFinite {x y : Binary64} (hx : x.isFinite = true) (hy : y.isFinite = true) :
    x.add y =
      if x.value + y.value = 0 then ofCode (x.isNegative && y.isNegative) 0
      else nearest (x.value + y.value) := by
  have hadd : x.add y = addFinite x y := by
    simp [add, numeric_of_isFinite hx, numeric_of_isFinite hy, isInfinite_of_isFinite hx,
      isInfinite_of_isFinite hy]
  rw [hadd, addFinite_eq]
  split
  · next hzero =>
    obtain ⟨hxzero, hyzero⟩ : x.isZero = true ∧ y.isZero = false := by simpa using hzero
    rw [value_of_isZero hxzero, Int.zero_add, if_neg (value_ne_zero hy hyzero),
      nearest_value hy hyzero]
  split
  · next hzero =>
    obtain ⟨hyzero, hxzero⟩ : y.isZero = true ∧ x.isZero = false := by simpa using hzero
    rw [value_of_isZero hyzero, Int.add_zero, if_neg (value_ne_zero hx hxzero),
      nearest_value hx hxzero]
  unfold value
  split
  · next hsigns => rw [← beq_iff_eq.1 hsigns, Bool.and_self, ofCode_add_eq_nearest]
  · next hsigns =>
    have hsign : y.isNegative = !x.isNegative := by
      cases hxsign : x.isNegative <;> cases hysign : y.isNegative <;>
        simp [hxsign, hysign] at hsigns ⊢
    rw [hsign, Bool.and_not_self, ofCode_sub_eq_nearest, ofCode_false_zero]

/-! ## Differences -/

theorem neg_ofCode (negative : Bool) (code : Nat) :
    (ofCode negative code).neg = ofCode (!negative) code := by
  have htwice : signBit + signBit = 0 := by decide
  cases negative <;> simp [neg, ofCode, UInt64.add_assoc, htwice]

theorem neg_eq (x : Binary64) : x.neg = ofCode (!x.isNegative) x.code := by
  conv_lhs => rw [← ofCode_code x, neg_ofCode]

theorem code_neg (x : Binary64) : x.neg.code = x.code := by
  rw [neg_eq, code_ofCode _ x.code_lt]

theorem isNegative_neg (x : Binary64) : x.neg.isNegative = !x.isNegative := by
  rw [neg_eq, isNegative_ofCode _ x.code_lt]

theorem value_neg (x : Binary64) : x.neg.value = -x.value := by
  rw [value, value, quanta, code_neg, isNegative_neg, ← quanta]
  cases x.isNegative <;> simp [signed]

/-- A difference of finite numbers is the exact difference rounded once. -/
theorem sub_of_isFinite {x y : Binary64} (hx : x.isFinite = true) (hy : y.isFinite = true) :
    x.sub y =
      if x.value - y.value = 0 then ofCode (x.isNegative && !y.isNegative) 0
      else nearest (x.value - y.value) := by
  have hneg : y.neg.isFinite = true := by rwa [isFinite, code_neg]
  rw [sub, add_of_isFinite hx hneg, value_neg, isNegative_neg, ← Int.sub_eq_add_neg]

end Phrasebook.Binary64
