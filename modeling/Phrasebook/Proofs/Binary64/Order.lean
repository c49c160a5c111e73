import Phrasebook.Proofs.Binary64.Addition

/-!
# Order

How numbers compare, above all those that are not below zero, the two zeros and infinity among
them.
-/

namespace Phrasebook.Binary64

/-! ## Zeros -/

theorem numeric_of_isZero {x : Binary64} (hx : x.isZero = true) : x.isNaN = false := by
  rw [isZero, beq_iff_eq] at hx
  rw [isNaN, hx]
  rfl

theorem isInfinite_of_isZero {x : Binary64} (hx : x.isZero = true) : x.isInfinite = false := by
  rw [isZero, beq_iff_eq] at hx
  rw [isInfinite, hx]
  rfl

theorem isZero_of_isPositive {x : Binary64} (hx : x.isPositive = true) : x.isZero = false := by
  rw [← Bool.not_eq_true, (IsNonneg.of_isPositive hx).isZero_iff, hx]
  decide

/-- A zero of either sign is below each positive number. -/
theorem lt_of_isZero {x y : Binary64} (hx : x.isZero = true) (hy : y.isPositive = true) :
    x.lt y = true := by
  have hnonneg := IsNonneg.of_isPositive hy
  have hcode : x.code = 0 := beq_iff_eq.1 hx
  have hpos : 0 < y.code := hnonneg.isPositive_iff.1 hy
  cases hsign : x.isNegative <;>
    simp [lt, numeric_of_isZero hx, hnonneg.numeric, hnonneg.unsigned, hsign, hcode, hpos,
      isZero_of_isPositive hy]

theorem zero_add {x : Binary64} (hx : x.isPositive = true) : zero.add x = x := by
  have hfinite : zero.isInfinite = false := by decide
  have hzero : zero.isZero = true := by decide
  rw [add_eq isNonneg_zero (.of_isPositive hx)]
  simp [hfinite, addFinite, hzero, isZero_of_isPositive hx]

/-! ## Infinity -/

theorem IsNonneg.isFinite_iff {x : Binary64} (hx : x.IsNonneg) :
    x.isFinite = true ↔ x.isInfinite = false := by
  have hnumeric := hx.numeric
  rw [isNaN, decide_eq_false_iff_not] at hnumeric
  rw [isFinite, isInfinite, decide_eq_true_iff, beq_eq_false_iff_ne]
  omega

theorem code_le_of_isFinite {x : Binary64} (hx : x.isFinite = true) : x.code ≤ infinityCode :=
  Nat.le_of_lt (decide_eq_true_iff.1 hx)

theorem numeric_of_isFinite {x : Binary64} (hx : x.isFinite = true) : x.isNaN = false :=
  decide_eq_false (Nat.not_lt.2 (code_le_of_isFinite hx))

theorem isInfinite_of_isFinite {x : Binary64} (hx : x.isFinite = true) : x.isInfinite = false :=
  beq_eq_false_iff_ne.2 (Nat.ne_of_lt (decide_eq_true_iff.1 hx))

theorem isFinite_of_code_le {x y : Binary64} (hle : x.code ≤ y.code) (hy : y.isFinite = true) :
    x.isFinite = true :=
  decide_eq_true (Nat.lt_of_le_of_lt hle (decide_eq_true_iff.1 hy))

theorem isNonneg_infinity : (infinity false).IsNonneg := isNonneg_ofCode (Nat.le_refl _)

theorem isInfinite_infinity : (infinity false).isInfinite = true := by decide

theorem not_lt_of_isNaN {x : Binary64} (hx : x.isNaN = true) (y : Binary64) :
    x.lt y = false := by
  simp [lt, hx]

theorem IsNonneg.not_lt_of_isInfinite {x y : Binary64} (hx : x.IsNonneg)
    (hinfinite : x.isInfinite = true) : x.lt y = false := by
  have hcode : x.code = infinityCode := beq_iff_eq.1 hinfinite
  cases hnan : y.isNaN with
  | true => simp [lt, hnan]
  | false =>
      rw [isNaN, decide_eq_false_iff_not] at hnan
      cases hsign : y.isNegative <;> simp [lt, hx.unsigned, hsign, hcode, hnan]

/-! ## Signs -/

/-- Of two numbers, the first is below the second unless the second is at most the first. -/
theorem lt_eq_not_le {x y : Binary64} (hx : x.isNaN = false) (hy : y.isNaN = false) :
    x.lt y = !y.le x := by
  cases hxsign : x.isNegative <;> cases hysign : y.isNegative <;>
    simp [lt, le, hx, hy, hxsign, hysign, Bool.and_comm, ← decide_not]

/-! ## Numbers from zero on -/

/-- A number is not below zero when its sign is clear or when it is zero itself. -/
theorem zero_le_iff {x : Binary64} : zero.le x = true ↔ x.IsNonneg ∨ x.isZero = true := by
  have hzero : zero.isNaN = false := isNonneg_zero.numeric
  have hsign : zero.isNegative = false := isNonneg_zero.unsigned
  have hcode : zero.isZero = true := by decide
  cases hnan : x.isNaN with
  | true =>
      have hne : x.isZero = false := by
        rw [isNaN, decide_eq_true_iff] at hnan
        rw [isZero, beq_eq_false_iff_ne]
        omega
      have hnot : ¬x.IsNonneg := fun hx => by simp [hx.numeric] at hnan
      simp [le, hnan, hne, hnot]
  | false =>
      cases hnegative : x.isNegative with
      | false => simp [le, hzero, hnan, hsign, hnegative, IsNonneg.mk hnegative hnan]
      | true =>
          have hnot : ¬x.IsNonneg := fun hx => by simp [hx.unsigned] at hnegative
          simp [le, hzero, hnan, hsign, hnegative, hcode, hnot]

/-- What is not below a number that is not below zero is not below zero either. -/
theorem zero_le_of_le {x y : Binary64} (hx : zero.le x = true) (hle : x.le y = true) :
    zero.le y = true := by
  obtain ⟨hxnan, hynan⟩ : x.isNaN = false ∧ y.isNaN = false := by
    cases hxnan : x.isNaN <;> cases hynan : y.isNaN <;> simp [le, hxnan, hynan] at hle ⊢
  cases hysign : y.isNegative with
  | false => exact IsNonneg.zero_le ⟨hysign, hynan⟩
  | true =>
      refine zero_le_iff.2 (.inr ?_)
      cases hxsign : x.isNegative with
      | false =>
          have hzeros : x.isZero = true ∧ y.isZero = true := by
            simpa [le, hxnan, hynan, hxsign, hysign] using hle
          exact hzeros.2
      | true =>
          have hxzero : x.isZero = true :=
            (zero_le_iff.1 hx).resolve_left fun hnonneg => by simp [hnonneg.unsigned] at hxsign
          have hcodes : y.code ≤ x.code := by simpa [le, hxnan, hynan, hxsign, hysign] using hle
          rw [isZero, beq_iff_eq] at hxzero ⊢
          omega

theorem IsNonneg.of_le {x y : Binary64} (hx : x.isPositive = true) (hle : x.le y = true) :
    y.IsNonneg ∧ x.code ≤ y.code := by
  have hxnonneg := IsNonneg.of_isPositive hx
  have hxpos := hxnonneg.isPositive_iff.1 hx
  have hy : y.IsNonneg := by
    refine (zero_le_iff.1 (zero_le_of_le hxnonneg.zero_le hle)).resolve_right ?_
    intro hzero
    have hycode : y.code = 0 := beq_iff_eq.1 hzero
    cases hysign : y.isNegative with
    | false =>
        have hcodes := (hxnonneg.le_iff ⟨hysign, numeric_of_isZero hzero⟩).1 hle
        omega
    | true =>
        simp [le, hxnonneg.numeric, numeric_of_isZero hzero, hxnonneg.unsigned, hysign,
          isZero_of_isPositive hx] at hle
  exact ⟨hy, (hxnonneg.le_iff hy).1 hle⟩

/-- What is below a number is finite, unless it is below zero. -/
theorem isFinite_of_lt {x y : Binary64} (hx : zero.le x = true) (hy : y.IsNonneg)
    (hlt : x.lt y = true) : x.isFinite = true := by
  rcases zero_le_iff.1 hx with hnonneg | hzero
  · have hcode : y.code ≤ infinityCode := Nat.le_of_not_lt (decide_eq_false_iff_not.1 hy.numeric)
    exact decide_eq_true (Nat.lt_of_lt_of_le ((hnonneg.lt_iff hy).1 hlt) hcode)
  · rw [isZero, beq_iff_eq] at hzero
    rw [isFinite, hzero]
    rfl

/-- What is above a number that is not below zero is positive. -/
theorem isPositive_of_lt {x y : Binary64} (hx : zero.le x = true) (hy : y.IsNonneg)
    (hlt : x.lt y = true) : y.isPositive = true := by
  rcases zero_le_iff.1 hx with hnonneg | hzero
  · exact hy.isPositive_iff.2 (Nat.lt_of_le_of_lt (Nat.zero_le _) ((hnonneg.lt_iff hy).1 hlt))
  · rw [← Bool.not_eq_false]
    intro hnot
    have hyzero := hy.isZero_iff.2 hnot
    have hxcode : x.code = 0 := beq_iff_eq.1 hzero
    have hycode : y.code = 0 := beq_iff_eq.1 hyzero
    cases hsign : x.isNegative <;>
      simp [lt, numeric_of_isZero hzero, hy.numeric, hy.unsigned, hsign, hxcode, hycode, hzero,
        hyzero] at hlt

end Phrasebook.Binary64
