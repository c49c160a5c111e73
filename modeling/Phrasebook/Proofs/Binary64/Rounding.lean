import Mathlib.Data.Nat.Size
import Mathlib.Tactic.Ring
import Phrasebook.Proofs.Binary64.Addition

/-!
# Order under rounding

Rounding depends on the value of a quotient and not on how it is written, and it keeps the
order of values. Both ways of rounding, of a quotient and of a number times a power of two,
are the same rule.
-/

namespace Phrasebook

/-! ## Nearest integers -/

theorem div_le_roundDiv (num den : Nat) : num / den ≤ roundDiv num den := by
  unfold roundDiv
  dsimp only
  split_ifs <;> omega

theorem roundDiv_le_succ (num den : Nat) : roundDiv num den ≤ num / den + 1 := by
  unfold roundDiv
  dsimp only
  split_ifs <;> omega

theorem roundDiv_mono {a b : Nat} (h : a ≤ b) (den : Nat) : roundDiv a den ≤ roundDiv b den := by
  rcases Nat.lt_or_eq_of_le (Nat.div_le_div_right h : a / den ≤ b / den) with hlt | heq
  · exact ((roundDiv_le_succ a den).trans hlt).trans (div_le_roundDiv b den)
  · -- Above the same whole number, the remainders are in order.
    have ha := Nat.div_add_mod a den
    have hb := Nat.div_add_mod b den
    have hrest : a % den ≤ b % den := by
      rw [heq] at ha
      omega
    unfold roundDiv
    dsimp only
    rw [heq]
    split_ifs <;> omega

/-- What stays below a half is rounded down. -/
theorem roundDiv_le_of_lt_half {num den k : Nat} (hlt : 2 * num < (2 * k + 1) * den) :
    roundDiv num den ≤ k := by
  have hparts := Nat.div_add_mod num den
  have hhalf : (2 * k + 1) * den = 2 * (den * k) + den := by ring
  have hfloor : num / den < k + 1 := by
    refine Nat.div_lt_of_lt_mul ?_
    rw [Nat.mul_succ]
    omega
  rcases Nat.lt_or_eq_of_le (Nat.le_of_lt_succ hfloor) with hbelow | heq
  · exact (roundDiv_le_succ num den).trans hbelow
  · have hrest : 2 * (num % den) < den := by
      rw [heq] at hparts
      omega
    unfold roundDiv
    dsimp only
    rw [if_pos hrest, heq]

theorem roundDiv_mul_right (num den : Nat) {c : Nat} (hc : 0 < c) :
    roundDiv (num * c) (den * c) = roundDiv num den := by
  unfold roundDiv
  dsimp only
  rw [Nat.mul_div_mul_right _ _ hc, Nat.mul_mod_mul_right, ← Nat.mul_assoc]
  simp only [Nat.mul_lt_mul_right hc]

theorem roundDiv_mul_self (k : Nat) {den : Nat} (hden : 0 < den) : roundDiv (k * den) den = k := by
  unfold roundDiv
  dsimp only
  rw [Nat.mul_div_cancel _ hden, Nat.mul_mod_left, Nat.mul_zero, if_pos hden]

/-! ## Binary digits -/

theorem bitLength_le_iff {n k : Nat} : bitLength n ≤ k ↔ n < 2 ^ k := by
  unfold bitLength
  split
  · next hzero => simp [hzero]
  · next hne => rw [Nat.succ_le_iff, Nat.log2_lt hne]

theorem bitLength_eq_size (n : Nat) : bitLength n = n.size :=
  eq_of_forall_ge_iff fun _ => bitLength_le_iff.trans Nat.size_le.symm

theorem bitLength_mono {m n : Nat} (h : m ≤ n) : bitLength m ≤ bitLength n :=
  bitLength_le_iff.2 (h.trans_lt (bitLength_le_iff.1 le_rfl))

theorem bitLength_mul_two_pow {n : Nat} (hn : 0 < n) (e : Nat) :
    bitLength (n * 2 ^ e) = bitLength n + e := by
  rw [bitLength_eq_size, bitLength_eq_size, ← Nat.shiftLeft_eq, Nat.size_shiftLeft hn.ne']

theorem twoPow_eq_two_pow (k : Nat) : twoPow k = 2 ^ k := by
  rw [twoPow_eq, Nat.one_shiftLeft]

namespace Binary64

theorem hiddenBit_eq : hiddenBit = 2 ^ 52 := by decide

theorem precision_eq : precision = 53 := rfl

theorem unitQuanta_eq : unitQuanta = 2 ^ unitScale := Nat.one_shiftLeft unitScale

/-! ## Quotients -/

theorem nearestQuotient_le_infinityCode (num den : Nat) :
    nearestQuotient num den ≤ infinityCode :=
  Nat.min_le_right _ _

theorem code_ofCode_nearestQuotient (negative : Bool) (num den : Nat) :
    (ofCode negative (nearestQuotient num den)).code = nearestQuotient num den :=
  code_ofCode negative ((nearestQuotient_le_infinityCode num den).trans_lt infinityCode_lt)

theorem nearestQuotient_zero (den : Nat) : nearestQuotient 0 den = 0 := by
  simp [nearestQuotient, roundDiv, bitLength]

/-- A factor that both parts of a quotient have in common does not count. -/
theorem nearestQuotient_mul_right (num den : Nat) {c : Nat} (hc : 0 < c) :
    nearestQuotient (num * c) (den * c) = nearestQuotient num den := by
  unfold nearestQuotient
  dsimp only
  rw [Nat.mul_div_mul_right _ _ hc, Nat.mul_right_comm, roundDiv_mul_right _ _ hc]

/-- Below a power of two, a quotient rounds to no more digits than it has room for. -/
theorem roundDiv_le_of_div_lt {num den s : Nat} (hlt : num / den < 2 ^ (s + 53)) :
    roundDiv num (den * 2 ^ s) ≤ 2 ^ 53 := by
  have hfloor : num / (den * 2 ^ s) < 2 ^ 53 := by
    rw [← Nat.div_div_eq_div_mul, Nat.div_lt_iff_lt_mul (Nat.two_pow_pos s), ← Nat.pow_add,
      Nat.add_comm 53 s]
    exact hlt
  exact (roundDiv_le_succ _ _).trans hfloor

theorem le_roundDiv_of_le_div {num den s : Nat} (hle : 2 ^ (s + 52) ≤ num / den) :
    2 ^ 52 ≤ roundDiv num (den * 2 ^ s) := by
  have hfloor : 2 ^ 52 ≤ num / (den * 2 ^ s) := by
    rw [← Nat.div_div_eq_div_mul, Nat.le_div_iff_mul_le (Nat.two_pow_pos s), ← Nat.pow_add,
      Nat.add_comm 52 s]
    exact hle
  exact hfloor.trans (div_le_roundDiv _ _)

theorem nearestQuotient_mono {a b : Nat} (h : a ≤ b) (den : Nat) :
    nearestQuotient a den ≤ nearestQuotient b den := by
  unfold nearestQuotient
  dsimp only
  refine min_le_min_right _ ?_
  rw [twoPow_eq_two_pow, twoPow_eq_two_pow, hiddenBit_eq, precision_eq]
  have hlength := bitLength_mono (Nat.div_le_div_right h : a / den ≤ b / den)
  generalize hs : bitLength (a / den) - 53 = s
  generalize hs' : bitLength (b / den) - 53 = s'
  rcases Nat.lt_or_eq_of_le (show s ≤ s' by omega) with hlt | rfl
  · -- What rounds up at the end of one scale comes to the start of the next.
    have hupper : roundDiv a (den * 2 ^ s) ≤ 2 ^ 53 :=
      roundDiv_le_of_div_lt (bitLength_le_iff.1 (by omega))
    have hlower : 2 ^ 52 ≤ roundDiv b (den * 2 ^ s') := by
      refine le_roundDiv_of_le_div (Nat.le_of_not_lt fun hsmall => ?_)
      have hshort := bitLength_le_iff.2 hsmall
      omega
    calc s * 2 ^ 52 + roundDiv a (den * 2 ^ s)
        ≤ s * 2 ^ 52 + 2 ^ 53 := Nat.add_le_add_left hupper _
      _ ≤ s' * 2 ^ 52 + 2 ^ 52 := by omega
      _ ≤ s' * 2 ^ 52 + roundDiv b (den * 2 ^ s') := Nat.add_le_add_left hlower _
  · exact Nat.add_le_add_left (roundDiv_mono h _) _

/-- Rounding keeps the order of quotients. -/
theorem nearestQuotient_le {a b c d : Nat} (hb : 0 < b) (hd : 0 < d) (h : a * d ≤ c * b) :
    nearestQuotient a b ≤ nearestQuotient c d :=
  calc nearestQuotient a b
      = nearestQuotient (a * d) (b * d) := (nearestQuotient_mul_right a b hd).symm
    _ ≤ nearestQuotient (c * b) (b * d) := nearestQuotient_mono h _
    _ = nearestQuotient (c * b) (d * b) := by rw [Nat.mul_comm b d]
    _ = nearestQuotient c d := nearestQuotient_mul_right c d hb

/-! ## Powers of two -/

theorem nearestScaled_eq (n e : Nat) : nearestScaled n e = nearestQuotient (n * 2 ^ e) 1 := by
  rcases Nat.eq_zero_or_pos n with rfl | hn
  · rw [nearestScaled_zero, Nat.zero_mul, nearestQuotient_zero]
  unfold nearestScaled nearestQuotient
  dsimp only
  rw [Nat.div_one, bitLength_mul_two_pow hn, Nat.one_mul, if_neg hn.ne']
  simp only [twoPow_eq_two_pow]
  split
  · next hshort =>
    -- All digits are kept, so the quotient comes out even.
    have hexact {up scale : Nat} (he : e = up + scale) :
        roundDiv (n * 2 ^ e) (2 ^ scale) = n * 2 ^ up := by
      rw [he, Nat.pow_add, ← Nat.mul_assoc, roundDiv_mul_self _ (Nat.two_pow_pos scale)]
    have hscale : bitLength n + e - precision = e - min e (precision - bitLength n) := by omega
    have hsplit : e = min e (precision - bitLength n) + (e - min e (precision - bitLength n)) := by
      omega
    rw [hscale, hexact hsplit]
  · next hlong =>
    have hscale : bitLength n + e - precision = bitLength n - precision + e := by omega
    rw [hscale, Nat.pow_add, roundDiv_mul_right _ _ (Nat.two_pow_pos e), Nat.add_comm e]

/-! ## Overflow -/

/-- A quotient that stays below the last half unit of a scale rounds to a code of that scale. -/
theorem roundedCode_lt {num den e : Nat} (hlt : num < (2 ^ 54 - 1) * 2 ^ e * den) :
    (bitLength (num / den) - 53) * 2 ^ 52 +
      roundDiv num (den * 2 ^ (bitLength (num / den) - 53)) < (e + 3) * 2 ^ 52 := by
  have hden : 0 < den := by
    refine Nat.pos_of_ne_zero ?_
    rintro rfl
    exact Nat.not_lt_zero _ hlt
  have hlength : bitLength (num / den) ≤ 54 + e := by
    rw [bitLength_le_iff, Nat.div_lt_iff_lt_mul hden, Nat.pow_add]
    exact hlt.trans_le (Nat.mul_le_mul_right _ (Nat.mul_le_mul_right _ (Nat.sub_le _ _)))
  generalize hs : bitLength (num / den) - 53 = s
  rcases Nat.lt_or_eq_of_le (show s ≤ e + 1 by omega) with hscale | rfl
  · have hround : roundDiv num (den * 2 ^ s) ≤ 2 ^ 53 :=
      roundDiv_le_of_div_lt (bitLength_le_iff.1 (by omega))
    omega
  · have hround : roundDiv num (den * 2 ^ (e + 1)) ≤ 2 ^ 53 - 1 := by
      refine roundDiv_le_of_lt_half ?_
      calc 2 * num
          < 2 * ((2 ^ 54 - 1) * 2 ^ e * den) := Nat.mul_lt_mul_of_pos_left hlt Nat.two_pos
        _ = (2 * (2 ^ 53 - 1) + 1) * (den * 2 ^ (e + 1)) := by
          rw [Nat.pow_succ]
          ring
    omega

/-- The scale of half a unit in the last place of the largest finite magnitude. -/
def overflowScale : Nat := 2044

/-- The quanta from which on rounding gives infinity, halfway from the largest finite magnitude
to the power of two above it. -/
def overflowQuanta : Nat := (2 ^ 54 - 1) * 2 ^ overflowScale

theorem infinityCode_eq : infinityCode = (overflowScale + 3) * 2 ^ 52 := by decide

theorem nearestQuotient_overflowQuanta : nearestQuotient overflowQuanta 1 = infinityCode := by
  rw [overflowQuanta, ← nearestScaled_eq]
  decide +kernel

theorem nearestQuotient_eq_infinityCode_iff {num den : Nat} (hden : 0 < den) :
    nearestQuotient num den = infinityCode ↔ overflowQuanta * den ≤ num := by
  constructor
  · refine fun hinfinite => Nat.le_of_not_lt fun hlt => ?_
    have hcode := roundedCode_lt hlt
    unfold nearestQuotient at hinfinite
    dsimp only at hinfinite
    rw [twoPow_eq_two_pow, hiddenBit_eq, precision_eq, min_eq_right_iff, infinityCode_eq]
      at hinfinite
    exact absurd hcode (Nat.not_lt.2 hinfinite)
  · intro hle
    refine Nat.le_antisymm (nearestQuotient_le_infinityCode num den) ?_
    rw [← nearestQuotient_overflowQuanta]
    exact nearestQuotient_le Nat.one_pos hden (by rwa [Nat.mul_one])

end Binary64

end Phrasebook
