import Mathlib
import Phrasebook.Proofs.Seed.Writing

/-!
# What texts stand for

A trimmed text is of one of three kinds. A word with its letters small or capital and a numeral
of a number below 10000 stand for a canonical state; the mark and a numeral of a free-form state
stand for that state; and every other text stands for the free-form state that it is hashed to.
-/

namespace Phrasebook

namespace Text

/-- Whether digits are those of a number, after any zeros. -/
def IsNumeral (digits : List Char) (n : Nat) : Prop :=
  ∃ zeros, digits = List.replicate zeros '0' ++ Nat.toDigits 10 n

theorem digitsValue_concat (digits : List Char) (c : Char) :
    digitsValue (digits ++ [c]) = 10 * digitsValue digits + (c.toNat - 48) := by
  simp [digitsValue]

theorem toDigits_of_isDigit {c : Char} (hc : c.isDigit = true) :
    Nat.toDigits 10 (c.toNat - 48) = [c] ∧ c.toNat - 48 < 10 := by
  have hbounds : 48 ≤ c.toNat ∧ c.toNat ≤ 57 := by
    simpa [Char.isDigit, UInt32.le_iff_toNat_le] using hc
  have hdigit : c.toNat - 48 < 10 := by omega
  refine ⟨?_, hdigit⟩
  rw [Nat.toDigits_of_lt_base hdigit, List.singleton_inj, ← Char.toNat_inj,
    Nat.toNat_digitChar_of_lt_ten hdigit]
  omega

/-- Digits are a numeral of their value, since each one more goes on with the numeral before it,
or with nothing but zeros. -/
theorem isNumeral_digitsValue {digits : List Char} (hdigits : isDigits digits = true) :
    IsNumeral digits (digitsValue digits) := by
  induction digits using List.reverseRecOn with
  | nil => cases hdigits
  | append_singleton front c ih =>
      obtain ⟨hfront, hc⟩ : (∀ d ∈ front, d.isDigit = true) ∧ c.isDigit = true := by
        simpa [isDigits] using hdigits
      obtain ⟨hone, hdigit⟩ := toDigits_of_isDigit hc
      rw [digitsValue_concat]
      rcases eq_or_ne front [] with rfl | hsome
      · exact ⟨0, by simpa [digitsValue] using hone.symm⟩
      · obtain ⟨zeros, hnumeral⟩ := ih (by simpa [isDigits, hsome] using hfront)
        rcases Nat.eq_zero_or_pos (digitsValue front) with hzero | hpositive
        · rw [hzero, Nat.toDigits_zero, ← List.replicate_succ'] at hnumeral
          refine ⟨zeros + 1, ?_⟩
          rw [hzero, Nat.mul_zero, Nat.zero_add, hone, ← hnumeral]
        · refine ⟨zeros, ?_⟩
          rw [← Nat.toDigits_append_toDigits (by decide) hpositive hdigit, hone,
            ← List.append_assoc, ← hnumeral]

theorem isNumeral_iff {digits : List Char} {n : Nat} :
    IsNumeral digits n ↔ isDigits digits = true ∧ digitsValue digits = n := by
  constructor
  · rintro ⟨zeros, rfl⟩
    constructor
    · have hall : ∀ c ∈ List.replicate zeros '0' ++ Nat.toDigits 10 n, c.isDigit = true := by
        intro c hc
        rcases List.mem_append.1 hc with hzero | hdigit
        · rw [(List.mem_replicate.1 hzero).2]
          rfl
        · exact isDigit_of_mem_toDigits hdigit
      rw [isDigits, List.all_eq_true.2 hall]
      simp [Nat.toDigits_ne_nil]
    · show Nat.ofDigitChars 10 _ 0 = n
      rw [Nat.ofDigitChars_append, Nat.ofDigitChars_replicate_zero, Nat.mul_zero,
        Nat.ofDigitChars_ten_toDigits]
  · rintro ⟨hdigits, rfl⟩
    exact isNumeral_digitsValue hdigits

end Text

namespace Seed

/-! ## Words in any case -/

def SpellsWord (letters : List Char) (word : String) : Prop :=
  List.Forall₂ (fun c letter => c = letter ∨ c = letter.toUpper) letters word.toList

theorem toLower_eq_iff {letter : Char} (hletter : letter.isLower = true) (c : Char) :
    c.toLower = letter ↔ c = letter ∨ c = letter.toUpper := by
  constructor
  · rintro rfl
    by_cases hc : c.isUpper
    · right
      rw [Char.toUpper_toLower_eq_toUpper,
        Char.toUpper_eq_of_not_isLower (Char.not_isLower_of_isUpper hc)]
    · exact .inl (Char.toLower_eq_of_not_isUpper hc).symm
  · rintro (rfl | rfl)
    · exact toLower_of_isLower hletter
    · rw [Char.toLower_toUpper_eq_toLower, toLower_of_isLower hletter]

theorem isDigit_of_isLower_toLower {c : Char} (hc : c.toLower.isLower = true) :
    c.isDigit = false := by
  cases hdigit : c.isDigit with
  | false => rfl
  | true =>
      have hbounds : 48 ≤ c.toNat ∧ c.toNat ≤ 57 := Char.isDigit_iff_toNat.1 hdigit
      have hupper : ¬c.isUpper = true := by
        simp [Char.isUpper, UInt32.le_iff_toNat_le]
        omega
      rw [Char.toLower_eq_of_not_isUpper hupper] at hc
      rw [isDigit_of_isLower hc] at hdigit
      cases hdigit

theorem forall₂_iff_map_toLower {letters word : List Char}
    (hword : ∀ letter ∈ word, letter.isLower = true) :
    List.Forall₂ (fun c letter => c = letter ∨ c = letter.toUpper) letters word ↔
      letters.map Char.toLower = word := by
  induction letters generalizing word with
  | nil => simp [eq_comm]
  | cons c letters ih =>
      cases word with
      | nil => simp
      | cons letter word =>
          obtain ⟨hletter, hrest⟩ := List.forall_mem_cons.1 hword
          rw [List.forall₂_cons, ih hrest, ← toLower_eq_iff hletter, List.map_cons,
            List.cons.injEq]

theorem spellsWord_iff {letters : List Char} {word : Fin 128} :
    SpellsWord letters (vocabulary.get word) ↔
      letters.map Char.toLower = (vocabulary.get word).toList :=
  forall₂_iff_map_toLower fun _ => isLower_of_mem_get

theorem exists_of_wordIndex? {word : String} {index : Nat}
    (hindex : wordIndex? word = some index) :
    ∃ i : Fin 128, i.val = index ∧ vocabulary.get i = word := by
  obtain ⟨hplace, hword, -⟩ := List.idxOf?_eq_some_iff.1 hindex
  exact ⟨⟨index, by simpa using hplace⟩, rfl, hword⟩

/-! ## Kinds of texts -/

/-- Whether a text is a word, in any case, and a numeral of a number of canonical seeds. -/
def IsCanonicalText (text : List Char) (word : Fin 128) (number : Nat) : Prop :=
  number < 10000 ∧ ∃ letters digits, text = letters ++ digits ∧
    SpellsWord letters (vocabulary.get word) ∧ Text.IsNumeral digits number

def IsFreeFormText (text : List Char) (state : Nat) : Prop :=
  1280000 ≤ state ∧ state < 18446744073709551615 ∧
    ∃ digits, text = '#' :: digits ∧ Text.IsNumeral digits state

theorem canonicalState?_eq_some_iff {text : List Char} {state : UInt64} :
    canonicalState? text = some state ↔
      ∃ word number, IsCanonicalText text word number ∧
        state = (number * 128 + word.val).toUInt64 := by
  constructor
  · intro hread
    unfold canonicalState? at hread
    dsimp only at hread
    split at hread
    · next hnumber =>
      obtain ⟨index, hindex, rfl⟩ := Option.map_eq_some_iff.1 hread
      obtain ⟨word, rfl, hword⟩ := exists_of_wordIndex? hindex
      obtain ⟨hdigits, hbelow⟩ := Bool.and_eq_true_iff.1 hnumber
      refine ⟨word, _, ⟨of_decide_eq_true hbelow, _, _, List.takeWhile_append_dropWhile.symm,
        spellsWord_iff.2 ?_, Text.isNumeral_digitsValue hdigits⟩, rfl⟩
      rw [hword, String.toList_ofList]
    · cases hread
  · rintro ⟨word, number, ⟨hnumber, letters, digits, rfl, hspells, hnumeral⟩, rfl⟩
    obtain ⟨hdigits, rfl⟩ := Text.isNumeral_iff.1 hnumeral
    have hsmall := spellsWord_iff.1 hspells
    have hletters : ∀ c ∈ letters, c.isDigit = false := fun c hc =>
      isDigit_of_isLower_toLower (isLower_of_mem_get (hsmall ▸ List.mem_map_of_mem hc))
    rw [canonicalState?_append_digits hletters hdigits, if_pos hnumber, hsmall,
      String.ofList_toList, wordIndex?_get, Option.map_some]

theorem freeFormState?_eq_some_iff {text : List Char} {state : UInt64} :
    freeFormState? text = some state ↔
      ∃ number, IsFreeFormText text number ∧ state = number.toUInt64 := by
  constructor
  · intro hread
    unfold freeFormState? at hread
    split at hread
    · dsimp only at hread
      split at hread
      · next digits hnumber =>
        cases hread
        simp only [Bool.and_eq_true, decide_eq_true_eq] at hnumber
        exact ⟨_, ⟨hnumber.1.2, hnumber.2, digits, rfl,
          Text.isNumeral_digitsValue hnumber.1.1⟩, rfl⟩
      · cases hread
    · cases hread
  · rintro ⟨number, ⟨hfirst, hlast, digits, rfl, hnumeral⟩, rfl⟩
    obtain ⟨hdigits, rfl⟩ := Text.isNumeral_iff.1 hnumeral
    have hfirst' : canonicalSpace.toNat ≤ Text.digitsValue digits := hfirst
    simp [freeFormState?, hdigits, hfirst', hlast]

theorem canonicalState?_eq_none_iff {text : List Char} :
    canonicalState? text = none ↔ ∀ word number, ¬IsCanonicalText text word number := by
  rw [Option.eq_none_iff_forall_ne_some]
  simp only [ne_eq, canonicalState?_eq_some_iff]
  constructor
  · intro hnone word number hcanonical
    exact hnone _ ⟨word, number, hcanonical, rfl⟩
  · rintro hnone state ⟨word, number, hcanonical, -⟩
    exact hnone word number hcanonical

theorem freeFormState?_eq_none_iff {text : List Char} :
    freeFormState? text = none ↔ ∀ number, ¬IsFreeFormText text number := by
  rw [Option.eq_none_iff_forall_ne_some]
  simp only [ne_eq, freeFormState?_eq_some_iff]
  constructor
  · intro hnone number hfree
    exact hnone _ ⟨number, hfree, rfl⟩
  · rintro hnone state ⟨number, hfree, -⟩
    exact hnone number hfree

/-- The mark is neither a letter nor a digit. -/
theorem IsFreeFormText.not_isCanonicalText {text : List Char} {state : Nat}
    (hfree : IsFreeFormText text state) (word : Fin 128) (number : Nat) :
    ¬IsCanonicalText text word number := by
  obtain ⟨-, -, rest, rfl, -⟩ := hfree
  rintro ⟨-, letters, digits, htext, hspells, hnumeral⟩
  cases letters with
  | nil =>
      have hdigits := (Text.isNumeral_iff.1 hnumeral).1
      rw [← List.nil_append digits, ← htext] at hdigits
      cases hdigits
  | cons c letters =>
      obtain rfl : '#' = c := (List.cons.inj htext).1
      have hmem : Char.toLower '#' ∈ ('#' :: letters).map Char.toLower :=
        List.mem_map_of_mem List.mem_cons_self
      rw [spellsWord_iff.1 hspells] at hmem
      cases isLower_of_mem_get hmem

/-! ## Reading -/

section
variable {text : String}

theorem toNat_decode_of_isCanonicalText {word : Fin 128} {number : Nat}
    (hcanonical : IsCanonicalText (Text.trim text.toList) word number) :
    (decode text).toNat = number * 128 + word := by
  have hread := canonicalState?_eq_some_iff.2 ⟨word, number, hcanonical, rfl⟩
  have hnumber := hcanonical.1
  simp only [decode, hread]
  exact toNat_toUInt64 (by omega)

theorem toNat_decode_of_isFreeFormText {state : Nat}
    (hfree : IsFreeFormText (Text.trim text.toList) state) : (decode text).toNat = state := by
  have hcanonical := canonicalState?_eq_none_iff.2 hfree.not_isCanonicalText
  have hread := freeFormState?_eq_some_iff.2 ⟨state, hfree, rfl⟩
  have hlast := hfree.2.1
  simp only [decode, hcanonical, hread]
  exact toNat_toUInt64 (by omega)

theorem decode_eq_hashedState
    (hcanonical : ∀ word number, ¬IsCanonicalText (Text.trim text.toList) word number)
    (hfree : ∀ state, ¬IsFreeFormText (Text.trim text.toList) state) :
    decode text = hashedState (Text.trim text.toList) := by
  simp only [decode, canonicalState?_eq_none_iff.2 hcanonical, freeFormState?_eq_none_iff.2 hfree]

theorem decode_lt_canonicalSpace_iff : decode text < canonicalSpace ↔
    ∃ word number, IsCanonicalText (Text.trim text.toList) word number := by
  constructor
  · intro hlt
    by_contra hnone
    have hbelow : (decode text).toNat < 1280000 := UInt64.lt_iff_toNat_lt.1 hlt
    by_cases hfree : ∃ state, IsFreeFormText (Text.trim text.toList) state
    · obtain ⟨state, hfree⟩ := hfree
      have hstate := toNat_decode_of_isFreeFormText hfree
      have hfirst := hfree.1
      omega
    · have hhashed := decode_eq_hashedState (fun word number h => hnone ⟨word, number, h⟩)
        fun state h => hfree ⟨state, h⟩
      have hfirst := UInt64.le_iff_toNat_le.1 (bounds_hashedState (Text.trim text.toList)).1
      rw [← hhashed] at hfirst
      exact absurd hfirst (Nat.not_le.2 hbelow)
  · rintro ⟨word, number, hcanonical⟩
    have hstate := toNat_decode_of_isCanonicalText hcanonical
    have hnumber := hcanonical.1
    apply UInt64.lt_iff_toNat_lt.2
    show (decode text).toNat < 1280000
    omega

end

/-- Every text is classified: a canonical text stands for its number and word, another one that
names a free-form state for that state, and any other for a free-form state by its hash. So
canonical texts are those of equal seeds exactly when they agree in word and number. -/
theorem decode_classifies (text : String) :
    let trimmed := Text.trim text.toList
    let hash := Draw.Hash.ofBytes (String.ofList trimmed).toUTF8
    (decode text < canonicalSpace ↔ ∃ word number, IsCanonicalText trimmed word number) ∧
    (∀ word number, IsCanonicalText trimmed word number →
      (decode text).toNat = number * 128 + word) ∧
    (∀ state, IsFreeFormText trimmed state → (decode text).toNat = state) ∧
    ((∀ word number, ¬IsCanonicalText trimmed word number) →
      (∀ state, ¬IsFreeFormText trimmed state) →
      (decode text).toNat = canonicalSpace.toNat + hash.toNat % freeFormSpace.toNat ∧
        canonicalSpace ≤ decode text ∧ decode text < 18446744073709551615) ∧
    ∀ other word number word' number', IsCanonicalText trimmed word number →
      IsCanonicalText (Text.trim other.toList) word' number' →
      ((ofText text == ofText other) = true ↔ word = word' ∧ number = number') := by
  refine ⟨decode_lt_canonicalSpace_iff, fun _ _ => toNat_decode_of_isCanonicalText,
    fun _ => toNat_decode_of_isFreeFormText, fun hcanonical hfree => ?_, ?_⟩
  · rw [decode_eq_hashedState hcanonical hfree]
    exact ⟨toNat_hashedState _, bounds_hashedState _⟩
  · intro other word number word' number' hcanonical hother
    have hstate := toNat_decode_of_isCanonicalText hcanonical
    have hotherState := toNat_decode_of_isCanonicalText hother
    rw [beq_iff, ← UInt64.toNat_inj, Fin.ext_iff]
    show (decode text).toNat = (decode other).toNat ↔ _
    omega

/-- A canonical text with a capital, zeros and a blank, a free-form one with a zero, and another. -/
theorem decode_classifies_spellings :
    IsCanonicalText (Text.trim " Otter0042".toList) 85 42 ∧
      IsCanonicalText (Text.trim "OTTER42".toList) 85 42 ∧
      (decode " Otter0042").toNat = 42 * 128 + 85 ∧
      (ofText " Otter0042" == ofText "OTTER42") = true ∧
      IsFreeFormText (Text.trim "#01280007".toList) 1280007 ∧
      (decode "#01280007").toNat = 1280007 ∧
      (∀ word number, ¬IsCanonicalText (Text.trim "hello".toList) word number) ∧
      (∀ state, ¬IsFreeFormText (Text.trim "hello".toList) state) ∧
      canonicalSpace ≤ decode "hello" := by
  have hotter : IsCanonicalText (Text.trim " Otter0042".toList) 85 42 := by
    refine ⟨by decide, ['O', 't', 't', 'e', 'r'], ['0', '0', '4', '2'], by decide +kernel,
      spellsWord_iff.2 (by decide +kernel), 2, by decide +kernel⟩
  have hcapitals : IsCanonicalText (Text.trim "OTTER42".toList) 85 42 := by
    refine ⟨by decide, ['O', 'T', 'T', 'E', 'R'], ['4', '2'], by decide +kernel,
      spellsWord_iff.2 (by decide +kernel), 0, by decide +kernel⟩
  have hmark : IsFreeFormText (Text.trim "#01280007".toList) 1280007 := by
    refine ⟨by decide, by decide, ['0', '1', '2', '8', '0', '0', '0', '7'], by decide +kernel, 1,
      by decide +kernel⟩
  have hword := canonicalState?_eq_none_iff.1
    (by decide +kernel : canonicalState? (Text.trim "hello".toList) = none)
  have hfree := freeFormState?_eq_none_iff.1
    (by decide +kernel : freeFormState? (Text.trim "hello".toList) = none)
  obtain ⟨-, hstate, -, -, hequal⟩ := decode_classifies " Otter0042"
  obtain ⟨-, -, hnamed, -, -⟩ := decode_classifies "#01280007"
  obtain ⟨-, -, -, hhashed, -⟩ := decode_classifies "hello"
  exact ⟨hotter, hcapitals, hstate 85 42 hotter,
    (hequal "OTTER42" 85 42 85 42 hotter hcapitals).2 ⟨rfl, rfl⟩, hmark, hnamed 1280007 hmark,
    hword, hfree, (hhashed hword hfree).2.1⟩

end Seed

end Phrasebook
