import Phrasebook.Proofs.Binary64.Rounding

/-!
# Magnitudes

The magnitudes of codes run in the order of the codes, and rounding leaves each of them as it
is. What is below one in a finite number is such a magnitude again, so taking the whole part
away rounds nothing.
-/

namespace Phrasebook.Binary64

/-! ## Codes and their parts -/

/-- A scale and a mantissa as codes have them: the mantissa has room for 53 digits and fills it,
except at the least scale. -/
structure IsReduced (scale mantissa : Nat) : Prop where
  fits : mantissa < 2 ^ 53
  full : 2 ^ 52 ≤ mantissa ∨ scale = 0

theorem exists_isReduced (code : Nat) :
    ∃ scale mantissa, IsReduced scale mantissa ∧ code = scale * 2 ^ 52 + mantissa := by
  rcases Nat.lt_or_ge code (2 ^ 52) with hsmall | hlarge
  · exact ⟨0, code, ⟨by omega, .inr rfl⟩, by omega⟩
  · refine ⟨code / 2 ^ 52 - 1, 2 ^ 52 + code % 2 ^ 52, ⟨?_, .inl ?_⟩, ?_⟩ <;> omega

namespace IsReduced

variable {scale mantissa : Nat}

theorem quantaOf_eq (hreduced : IsReduced scale mantissa) :
    quantaOf (scale * 2 ^ 52 + mantissa) = mantissa * 2 ^ scale := by
  obtain ⟨hfits, hfull⟩ := hreduced
  unfold quantaOf mantissaOf scaleOf
  rw [hiddenBit_eq, Nat.shiftLeft_eq]
  rcases Nat.lt_or_ge mantissa (2 ^ 52) with hsmall | hlarge
  · obtain rfl : scale = 0 := hfull.resolve_left (by omega)
    rw [if_pos (by omega), Nat.div_eq_of_lt (by omega), Nat.zero_mul, Nat.zero_add, Nat.zero_sub]
  · have hmantissa : 2 ^ 52 + (scale * 2 ^ 52 + mantissa) % 2 ^ 52 = mantissa := by omega
    have hscale : (scale * 2 ^ 52 + mantissa) / 2 ^ 52 - 1 = scale := by omega
    rw [if_neg (by omega), hmantissa, hscale]

theorem bitLength_sub_eq (hreduced : IsReduced scale mantissa) :
    bitLength (mantissa * 2 ^ scale) - 53 = scale := by
  obtain ⟨hfits, hfull⟩ := hreduced
  have hupper : bitLength mantissa ≤ 53 := bitLength_le_iff.2 hfits
  rcases hfull with hfull | rfl
  · have hlower : ¬bitLength mantissa ≤ 52 := by
      rw [bitLength_le_iff]
      omega
    rw [bitLength_mul_two_pow (by omega)]
    omega
  · rw [Nat.pow_zero, Nat.mul_one]
    omega

theorem nearestQuotient_eq (hreduced : IsReduced scale mantissa) :
    nearestQuotient (mantissa * 2 ^ scale) 1 = min (scale * 2 ^ 52 + mantissa) infinityCode := by
  unfold nearestQuotient
  dsimp only
  rw [Nat.div_one, precision_eq, hreduced.bitLength_sub_eq, hiddenBit_eq, Nat.one_mul,
    twoPow_eq_two_pow, roundDiv_mul_self _ (Nat.two_pow_pos scale)]

end IsReduced

/-- A short mantissa at any scale is the magnitude of a code. -/
theorem exists_quantaOf_eq {mantissa : Nat} (hfits : mantissa < 2 ^ 53) (scale : Nat) :
    ∃ code, quantaOf code = mantissa * 2 ^ scale := by
  induction scale generalizing mantissa with
  | zero => exact ⟨_, IsReduced.quantaOf_eq ⟨hfits, .inr rfl⟩⟩
  | succ scale ih =>
      rcases Nat.lt_or_ge mantissa (2 ^ 52) with hsmall | hlarge
      · have hdouble : mantissa * 2 < 2 ^ 53 := by omega
        obtain ⟨code, hcode⟩ := ih hdouble
        exact ⟨code, by rw [hcode, Nat.pow_succ, Nat.mul_assoc, Nat.mul_comm 2]⟩
      · exact ⟨_, IsReduced.quantaOf_eq ⟨hfits, .inl hlarge⟩⟩

/-! ## Rounding of magnitudes -/

/-- A magnitude rounds to its own code, or to infinity above it. -/
theorem nearestQuotient_quantaOf (code : Nat) :
    nearestQuotient (quantaOf code) 1 = min code infinityCode := by
  obtain ⟨scale, mantissa, hreduced, rfl⟩ := exists_isReduced code
  rw [hreduced.quantaOf_eq, hreduced.nearestQuotient_eq]

theorem quantaOf_lt_quantaOf {a b : Nat} (hlt : a < b) (hb : b ≤ infinityCode) :
    quantaOf a < quantaOf b := by
  refine Nat.lt_of_not_le fun hle => ?_
  have hcodes := nearestQuotient_mono hle 1
  rw [nearestQuotient_quantaOf, nearestQuotient_quantaOf, Nat.min_eq_left hb] at hcodes
  omega

theorem quantaOf_le_quantaOf {a b : Nat} (hle : a ≤ b) (hb : b ≤ infinityCode) :
    quantaOf a ≤ quantaOf b := by
  rcases Nat.lt_or_eq_of_le hle with hlt | rfl
  · exact (quantaOf_lt_quantaOf hlt hb).le
  · exact le_rfl

theorem lt_of_quantaOf_lt {a b : Nat} (hlt : quantaOf a < quantaOf b) (hb : b < infinityCode) :
    a < b := by
  have hcodes := nearestQuotient_mono hlt.le 1
  rw [nearestQuotient_quantaOf, nearestQuotient_quantaOf, Nat.min_eq_left hb.le] at hcodes
  rcases Nat.lt_or_eq_of_le (show a ≤ b by omega) with hcode | rfl
  · exact hcode
  · exact absurd hlt (Nat.lt_irrefl _)

theorem quantaOf_pos {code : Nat} (hpos : 0 < code) (hcode : code ≤ infinityCode) :
    0 < quantaOf code :=
  (Nat.zero_le _).trans_lt (quantaOf_lt_quantaOf hpos hcode)

theorem quantaOf_code_one : quantaOf one.code = unitQuanta := by decide

theorem code_one_lt : one.code < infinityCode := by decide

/-! ## Fractions -/

/-- What is left of a magnitude below one is a magnitude. -/
theorem exists_quantaOf_mod (code : Nat) :
    ∃ rest < one.code, quantaOf rest = quantaOf code % unitQuanta := by
  have hmod : ∃ mantissa < 2 ^ 53, ∃ scale, quantaOf code % unitQuanta = mantissa * 2 ^ scale := by
    obtain ⟨scale, mantissa, hreduced, rfl⟩ := exists_isReduced code
    rw [hreduced.quantaOf_eq, unitQuanta_eq]
    rcases Nat.le_total unitScale scale with hle | hle
    · -- From the scale of whole numbers on, nothing is left.
      refine ⟨0, by omega, 0, ?_⟩
      rw [← Nat.sub_add_cancel hle, Nat.pow_add, ← Nat.mul_assoc, Nat.mul_mod_left]
      rfl
    · refine ⟨mantissa % 2 ^ (unitScale - scale),
        (Nat.mod_le _ _).trans_lt hreduced.fits, scale, ?_⟩
      rw [← Nat.mul_mod_mul_right, ← Nat.pow_add, Nat.sub_add_cancel hle]
  obtain ⟨mantissa, hfits, scale, hmod⟩ := hmod
  obtain ⟨rest, hrest⟩ := exists_quantaOf_eq hfits scale
  refine ⟨rest, lt_of_quantaOf_lt ?_ code_one_lt, hrest.trans hmod.symm⟩
  rw [hrest, ← hmod, quantaOf_code_one]
  exact Nat.mod_lt _ (by decide)

/-- The fraction of a finite number is exact, and below one. -/
theorem fraction_eq {x : Binary64} (hfinite : x.isFinite = true) :
    ∃ rest < one.code, quantaOf rest = x.quanta % unitQuanta ∧
      x.fraction = ofCode x.isNegative rest := by
  obtain ⟨rest, hlt, hrest⟩ := exists_quantaOf_mod x.code
  refine ⟨rest, hlt, hrest, ?_⟩
  rw [fraction, if_pos hfinite, quanta, ← hrest, nearestScaled_eq, Nat.pow_zero, Nat.mul_one,
    nearestQuotient_quantaOf, Nat.min_eq_left (hlt.trans code_one_lt).le]

theorem code_fraction_lt {x : Binary64} (hfinite : x.isFinite = true) :
    x.fraction.code < one.code := by
  obtain ⟨rest, hlt, -, hfraction⟩ := fraction_eq hfinite
  rwa [hfraction, code_ofCode _ ((hlt.trans code_one_lt).trans infinityCode_lt)]

theorem isNonneg_fraction {x : Binary64} (hx : x.IsNonneg) (hfinite : x.isFinite = true) :
    x.fraction.IsNonneg ∧ x.fraction.lt one = true := by
  obtain ⟨rest, hlt, -, hfraction⟩ := fraction_eq hfinite
  have hnonneg : x.fraction.IsNonneg := by
    rw [hfraction, hx.unsigned]
    exact isNonneg_ofCode (hlt.trans code_one_lt).le
  exact ⟨hnonneg, (hnonneg.lt_iff isNonneg_one).2 (code_fraction_lt hfinite)⟩

end Phrasebook.Binary64
