/-! # Binary64 numbers

Weights, durations, times and draws are IEEE 754 binary64 numbers, held as bit
patterns. A finite number is a sign and a whole number of quanta, the quantum
being the least positive number, `2 ^ (-1074)`. The pattern without its sign is
the number's *code*: codes run through the magnitudes in order, and a code below
`infinityCode` is `scale * 2 ^ 52 + mantissa` for the magnitude
`mantissa * 2 ^ scale`.
-/

namespace Phrasebook

/-- A binary64 number, as its bit pattern. -/
structure Binary64 where
  bits : UInt64
deriving DecidableEq, Inhabited

namespace Binary64

/-- The code of infinity; the codes above it are those of the numbers that are none. -/
@[noinline] def infinityCode : Nat := 9218868437227405312

/-- The weight of the leading bit of a full mantissa, `2 ^ 52`. -/
@[noinline] def hiddenBit : Nat := 4503599627370496

/-- The scale at which a magnitude counts whole numbers. -/
def unitScale : Nat := 1074

@[noinline] def unitQuanta : Nat := 1 <<< unitScale

/-! ## Parts of a number -/

def signBit : UInt64 := 9223372036854775808

def isNegative (x : Binary64) : Bool := signBit ≤ x.bits

def code (x : Binary64) : Nat := (x.bits % signBit).toNat

def ofCode (negative : Bool) (code : Nat) : Binary64 :=
  ⟨code.toUInt64 + if negative then signBit else 0⟩

theorem code_lt (x : Binary64) : x.code < 9223372036854775808 := by
  have positive : (0 : Nat) < signBit.toNat := by decide
  have bound := Nat.mod_lt x.bits.toNat positive
  simpa [code, UInt64.toNat_mod, signBit] using bound

theorem code_ofCode (negative : Bool) {code : Nat} (h : code < 9223372036854775808) :
    (ofCode negative code).code = code := by
  have small : code % 18446744073709551616 = code := Nat.mod_eq_of_lt (by omega)
  cases negative <;> simp [ofCode, Binary64.code, signBit, UInt64.toNat_mod, small] <;> omega

theorem isNegative_ofCode (negative : Bool) {code : Nat} (h : code < 9223372036854775808) :
    (ofCode negative code).isNegative = negative := by
  have small : code % 18446744073709551616 = code := Nat.mod_eq_of_lt (by omega)
  cases negative <;> simp [ofCode, isNegative, signBit, UInt64.le_iff_toNat_le, small] <;> omega

/-- A number is its sign and its code. -/
theorem ofCode_code (x : Binary64) : ofCode x.isNegative x.code = x := by
  obtain ⟨bits⟩ := x
  have bound := bits.toNat_lt
  have order := @UInt64.le_iff_toNat_le signBit bits
  have sign : signBit.toNat = 9223372036854775808 := by decide
  have code_eq : code ⟨bits⟩ = bits.toNat % 9223372036854775808 := by
    simp only [code, UInt64.toNat_mod, sign]
  apply congrArg Binary64.mk
  apply UInt64.toNat_inj.1
  rw [UInt64.toNat_add, code_eq]
  by_cases h : signBit ≤ bits
  · have negative : isNegative ⟨bits⟩ = true := decide_eq_true h
    rw [negative, if_pos rfl, sign, Nat.toUInt64_eq, UInt64.toNat_ofNat']
    have above := order.1 h
    omega
  · have positive : isNegative ⟨bits⟩ = false := decide_eq_false h
    rw [positive, if_neg Bool.false_ne_true, Nat.toUInt64_eq, UInt64.toNat_ofNat', UInt64.toNat_zero]
    have below := mt order.2 h
    omega

def isNaN (x : Binary64) : Bool := infinityCode < x.code

def isInfinite (x : Binary64) : Bool := x.code == infinityCode

def isFinite (x : Binary64) : Bool := x.code < infinityCode

def isZero (x : Binary64) : Bool := x.code == 0

def mantissaOf (code : Nat) : Nat :=
  if code < hiddenBit then code else hiddenBit + code % hiddenBit

/-- The power of two that multiplies the significand of a code. -/
def scaleOf (code : Nat) : Nat := code / hiddenBit - 1

def quantaOf (code : Nat) : Nat := mantissaOf code <<< scaleOf code

def mantissa (x : Binary64) : Nat := mantissaOf x.code

def scale (x : Binary64) : Nat := scaleOf x.code

def quanta (x : Binary64) : Nat := quantaOf x.code

/-! ## Constants -/

def nan : Binary64 := ⟨0x7ff8000000000000⟩

def zero : Binary64 := ⟨0⟩

def one : Binary64 := ⟨0x3ff0000000000000⟩

def two : Binary64 := ⟨0x4000000000000000⟩

def infinity (negative : Bool) : Binary64 := ofCode negative infinityCode

/-! ## Order

The comparisons of the standard: a pattern that is no number compares with
nothing, and the two zeros are equal. -/

def lt (x y : Binary64) : Bool :=
  if x.isNaN || y.isNaN then false
  else match x.isNegative, y.isNegative with
    | false, false => x.code < y.code
    | true, true => y.code < x.code
    | true, false => !(x.isZero && y.isZero)
    | false, true => false

def le (x y : Binary64) : Bool :=
  if x.isNaN || y.isNaN then false
  else match x.isNegative, y.isNegative with
    | false, false => x.code ≤ y.code
    | true, true => y.code ≤ x.code
    | true, false => true
    | false, true => x.isZero && y.isZero

def isPositive (x : Binary64) : Bool := zero.lt x

end Binary64

end Phrasebook
