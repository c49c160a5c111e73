import Mathlib.Data.List.Nodup
import Mathlib.Data.String.Basic
import Phrasebook.Proofs.Text.Trimming
import Phrasebook.Seed.Basic

/-!
# States as written

A state is written as a word or a mark and then a number, without blank characters. Its number
begins at the first digit, so that the text is read as this state again.
-/

namespace Phrasebook

namespace Text

theorem digitsValue_toDigits (n : Nat) : digitsValue (Nat.toDigits 10 n) = n :=
  Nat.ofDigitChars_ten_toDigits

theorem isDigit_of_mem_toDigits {n : Nat} {c : Char} (hc : c ∈ Nat.toDigits 10 n) :
    c.isDigit = true :=
  Nat.isDigit_of_mem_toDigits (by decide) (by decide) hc

theorem isDigits_toDigits (n : Nat) : isDigits (Nat.toDigits 10 n) = true := by
  have hall := List.all_eq_true.2 fun c (hc : c ∈ Nat.toDigits 10 n) => isDigit_of_mem_toDigits hc
  simp [isDigits, hall, Nat.toDigits_ne_nil]

theorem isBlank_of_isDigit {c : Char} (hc : c.isDigit = true) : isBlank c = false := by
  have hbounds : 48 ≤ c.toNat ∧ c.toNat ≤ 57 := by
    simpa [Char.isDigit, UInt32.le_iff_toNat_le] using hc
  simp [isBlank]
  omega

end Text

namespace Seed

/-! ## Words -/

/-- The words stand in ascending order, so there are no two of the same. -/
theorem nodup_vocabulary : vocabulary.toList.Nodup := by
  have hascending : vocabulary.toList.IsChain (· < ·) := by decide +kernel
  exact (List.isChain_iff_pairwise.1 hascending).imp fun hlt => String.ne_of_lt hlt

theorem wordIndex?_get (i : Fin 128) : wordIndex? (vocabulary.get i) = some i.val := by
  apply List.idxOf?_eq_some_iff.2
  have hplace : i.val < vocabulary.toList.length := by simp
  refine ⟨hplace, rfl, ?_⟩
  intro j hj hsame
  have hindex : j = i.val := (List.Nodup.getElem_inj_iff nodup_vocabulary).1 hsame
  omega

/-- Words are made of small letters, so no word has a digit or a blank character in it. -/
theorem isLower_of_mem_get {i : Fin 128} {c : Char} (hc : c ∈ (vocabulary.get i).toList) :
    c.isLower = true := by
  have hwords : ∀ i : Fin 128, (vocabulary.get i).toList.all Char.isLower = true := by
    decide +kernel
  exact List.all_eq_true.1 (hwords i) c hc

theorem toNat_of_isLower {c : Char} (hc : c.isLower = true) : 97 ≤ c.toNat ∧ c.toNat ≤ 122 := by
  obtain ⟨hfirst, hlast⟩ := Bool.and_eq_true_iff.1 hc
  exact ⟨UInt32.le_iff_toNat_le.1 (of_decide_eq_true hfirst),
    UInt32.le_iff_toNat_le.1 (of_decide_eq_true hlast)⟩

theorem isDigit_of_isLower {c : Char} (hc : c.isLower = true) : c.isDigit = false := by
  have hbounds := toNat_of_isLower hc
  have habove : ¬c.toNat ≤ 57 := by omega
  simpa [Char.isDigit, UInt32.le_iff_toNat_le] using fun _ => habove

theorem isBlank_of_isLower {c : Char} (hc : c.isLower = true) : Text.isBlank c = false := by
  have hbounds := toNat_of_isLower hc
  simp [Text.isBlank]
  omega

theorem toLower_of_isLower {c : Char} (hc : c.isLower = true) : c.toLower = c := by
  have hbounds := toNat_of_isLower hc
  have habove : ¬c.toNat ≤ 90 := by omega
  apply dif_neg
  simpa [UInt32.le_iff_toNat_le] using fun _ => habove

/-! ## Texts of states -/

/-- The first digit parts a number from the word before it. -/
theorem canonicalState?_append_digits {word digits : List Char}
    (hword : ∀ c ∈ word, c.isDigit = false) (hdigits : Text.isDigits digits = true) :
    canonicalState? (word ++ digits) =
      if Text.digitsValue digits < 10000 then
        (wordIndex? (String.ofList (word.map Char.toLower))).map fun index =>
          (Text.digitsValue digits * 128 + index).toUInt64
      else none := by
  have hfront : ∀ c ∈ word, (!c.isDigit) = true := by
    intro c hc
    simp [hword c hc]
  have hparted : digits.takeWhile (!·.isDigit) = [] ∧ digits.dropWhile (!·.isDigit) = digits := by
    cases digits with
    | nil => exact ⟨rfl, rfl⟩
    | cons c cs =>
        have hc : c.isDigit = true := List.all_eq_true.1 hdigits c List.mem_cons_self
        simp [hc]
  unfold canonicalState?
  dsimp only
  rw [List.takeWhile_append_of_pos hfront, List.dropWhile_append_of_pos hfront, hparted.1,
    hparted.2, List.append_nil, hdigits]
  simp only [Bool.true_and, decide_eq_true_eq]
  rfl

theorem canonicalState?_append {word : List Char} (hword : ∀ c ∈ word, c.isDigit = false)
    (n : Nat) :
    canonicalState? (word ++ Nat.toDigits 10 n) =
      if n < 10000 then
        (wordIndex? (String.ofList (word.map Char.toLower))).map fun index =>
          (n * 128 + index).toUInt64
      else none := by
  rw [canonicalState?_append_digits hword (Text.isDigits_toDigits n), Text.digitsValue_toDigits]

theorem canonicalState?_word (i : Fin 128) {n : Nat} (hn : n < 10000) :
    canonicalState? ((vocabulary.get i).toList ++ Nat.toDigits 10 n) =
      some (n * 128 + i.val).toUInt64 := by
  have hsmall : (vocabulary.get i).toList.map Char.toLower = (vocabulary.get i).toList := by
    rw [List.map_congr_left fun c hc => toLower_of_isLower (isLower_of_mem_get hc), List.map_id']
  rw [canonicalState?_append fun c hc => isDigit_of_isLower (isLower_of_mem_get hc), if_pos hn,
    hsmall, String.ofList_toList, wordIndex?_get, Option.map_some]

/-- The mark is no word. -/
theorem canonicalState?_mark (n : Nat) : canonicalState? ('#' :: Nat.toDigits 10 n) = none := by
  have hmark : wordIndex? (String.ofList (['#'].map Char.toLower)) = none := by decide +kernel
  have hsolid : ∀ c ∈ ['#'], c.isDigit = false := List.forall_mem_singleton.2 rfl
  have happend := canonicalState?_append hsolid n
  rw [hmark, Option.map_none, ite_self] at happend
  exact happend

theorem freeFormState?_mark {n : Nat} (hfirst : 1280000 ≤ n) (hlast : n < 18446744073709551615) :
    freeFormState? ('#' :: Nat.toDigits 10 n) = some n.toUInt64 := by
  have hbounds : canonicalSpace.toNat ≤ n := hfirst
  simp only [freeFormState?, Text.digitsValue_toDigits, Text.isDigits_toDigits, hbounds, hlast,
    decide_true, Bool.and_self, if_true]

theorem toList_toString (n : Nat) : (toString n).toList = Nat.toDigits 10 n := by
  rw [Nat.toString_eq_ofList_toDigits, String.toList_ofList]

theorem toList_encode_of_lt {state : UInt64} (hcanonical : state < canonicalSpace) :
    (encode state).toList =
      (vocabulary.get ⟨state.toNat % 128, Nat.mod_lt _ (by decide)⟩).toList ++
        Nat.toDigits 10 (state.toNat / 128) := by
  rw [encode, if_pos hcanonical, String.toList_append, toList_toString]

theorem toList_encode_of_not_lt {state : UInt64} (hfree : ¬state < canonicalSpace) :
    (encode state).toList = '#' :: Nat.toDigits 10 state.toNat := by
  rw [encode, if_neg hfree, String.toList_append, toList_toString]
  rfl

theorem isBlank_of_mem_encode {state : UInt64} {c : Char} (hc : c ∈ (encode state).toList) :
    Text.isBlank c = false := by
  by_cases hcanonical : state < canonicalSpace
  · rw [toList_encode_of_lt hcanonical] at hc
    rcases List.mem_append.1 hc with hword | hdigit
    · exact isBlank_of_isLower (isLower_of_mem_get hword)
    · exact Text.isBlank_of_isDigit (Text.isDigit_of_mem_toDigits hdigit)
  · rw [toList_encode_of_not_lt hcanonical] at hc
    rcases List.mem_cons.1 hc with rfl | hdigit
    · decide
    · exact Text.isBlank_of_isDigit (Text.isDigit_of_mem_toDigits hdigit)

/-- Reading what a state is written as gives the state back. -/
theorem decode_encode {state : UInt64} (hlast : state < 18446744073709551615) :
    decode (encode state) = state := by
  rw [decode, Text.trim_eq_self fun c hc => isBlank_of_mem_encode hc]
  by_cases hcanonical : state < canonicalSpace
  · have hnumber : state.toNat / 128 < 10000 := by
      have hbound : state.toNat < 1280000 := UInt64.lt_iff_toNat_lt.1 hcanonical
      omega
    rw [toList_encode_of_lt hcanonical, canonicalState?_word _ hnumber]
    simp only [Nat.div_add_mod']
    exact UInt64.ofNat_toNat
  · have hfirst : 1280000 ≤ state.toNat := UInt64.le_iff_toNat_le.1 (UInt64.not_lt.1 hcanonical)
    rw [toList_encode_of_not_lt hcanonical, canonicalState?_mark,
      freeFormState?_mark hfirst (UInt64.lt_iff_toNat_lt.1 hlast)]
    exact UInt64.ofNat_toNat

/-! ## What texts stand for -/

theorem toNat_toUInt64 {n : Nat} (hn : n < 18446744073709551616) : n.toUInt64.toNat = n :=
  UInt64.toNat_ofNat_of_lt' hn

theorem lt_of_canonicalState? {text : List Char} {state : UInt64}
    (hread : canonicalState? text = some state) : state < canonicalSpace := by
  unfold canonicalState? at hread
  dsimp only at hread
  split at hread
  · next hnumber =>
    obtain ⟨index, hindex, rfl⟩ := Option.map_eq_some_iff.1 hread
    obtain ⟨hplace, -⟩ := List.idxOf?_eq_some_iff.1 hindex
    have hword : index < 128 := by simpa using hplace
    have hbelow : Text.digitsValue (text.dropWhile (!·.isDigit)) < 10000 :=
      of_decide_eq_true (Bool.and_eq_true_iff.1 hnumber).2
    rw [UInt64.lt_iff_toNat_lt, toNat_toUInt64 (by omega)]
    show _ < 1280000
    omega
  · cases hread

theorem bounds_of_freeFormState? {text : List Char} {state : UInt64}
    (hread : freeFormState? text = some state) :
    canonicalSpace ≤ state ∧ state < 18446744073709551615 := by
  unfold freeFormState? at hread
  split at hread
  · dsimp only at hread
    split at hread
    · next hnumber =>
      cases hread
      simp only [Bool.and_eq_true, decide_eq_true_eq] at hnumber
      rw [UInt64.le_iff_toNat_le, UInt64.lt_iff_toNat_lt, toNat_toUInt64 (by omega)]
      exact ⟨hnumber.1.2, hnumber.2⟩
    · cases hread
  · cases hread

/-- The sum fits into a word, since the rest is below what is left of the words. -/
theorem toNat_hashedState (text : List Char) :
    (hashedState text).toNat = canonicalSpace.toNat +
      (Draw.Hash.ofBytes (String.ofList text).toUTF8).toNat % freeFormSpace.toNat := by
  have hrest := Nat.mod_lt (Draw.Hash.ofBytes (String.ofList text).toUTF8).toNat
    (by decide : freeFormSpace.toNat > 0)
  have hspaces : canonicalSpace.toNat + freeFormSpace.toNat < 2 ^ 64 := by decide
  rw [hashedState, UInt64.toNat_add, UInt64.toNat_mod]
  exact Nat.mod_eq_of_lt (by omega)

theorem bounds_hashedState (text : List Char) :
    canonicalSpace ≤ hashedState text ∧ hashedState text < 18446744073709551615 := by
  have hrest := Nat.mod_lt (Draw.Hash.ofBytes (String.ofList text).toUTF8).toNat
    (by decide : freeFormSpace.toNat > 0)
  have hspaces : canonicalSpace.toNat + freeFormSpace.toNat = 18446744073709551615 := by decide
  rw [UInt64.le_iff_toNat_le, UInt64.lt_iff_toNat_lt, toNat_hashedState]
  constructor
  · omega
  · show _ < 18446744073709551615
    omega

/-- No text stands for the last word of all. -/
theorem decode_lt (text : String) : decode text < 18446744073709551615 := by
  unfold decode
  dsimp only
  split
  · next hread => exact UInt64.lt_trans (lt_of_canonicalState? hread) (by decide)
  · split
    · next hread => exact (bounds_of_freeFormState? hread).2
    · exact (bounds_hashedState _).2

theorem beq_iff {seed other : Seed} : (seed == other) = true ↔ seed.state = other.state :=
  @beq_iff_eq UInt64 _ _ seed.state other.state

end Seed

end Phrasebook
