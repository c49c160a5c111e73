import Mathlib.Data.List.TakeWhile
import Phrasebook.Proofs.Source.Grammar

/-!
# Weights of items

An item's text is parted at its weight just as the grammar parts it, and the digits of a
weight are read as any number is.
-/

namespace Phrasebook.Source

/-! ## Plain decimals -/

theorem isIndent_eq_false_of_isDigit {c : Char} (hc : c.isDigit = true) :
    Text.isIndent c = false := by
  cases hi : Text.isIndent c with
  | false => rfl
  | true =>
      have heq : c = ' ' ∨ c = '\t' := by simpa [Text.isIndent] using hi
      rcases heq with rfl | rfl <;> cases hc

/-- A plain decimal is a run of digits, alone or before a point and another run. -/
theorem exists_digits_of_isPlainDecimal {cs : List Char} (hcs : isPlainDecimal cs = true) :
    ∃ whole fraction : List Char, (∀ c ∈ whole, c.isDigit = true) ∧
      (∀ c ∈ fraction, c.isDigit = true) ∧ whole ++ fraction ≠ [] ∧
      (cs = whole ∧ fraction = [] ∨ cs = whole ++ '.' :: fraction) := by
  obtain ⟨⟨hchars, hsome⟩, hpoints⟩ :
      ((∀ c ∈ cs, c.isDigit = true ∨ c = '.') ∧ ∃ c ∈ cs, c.isDigit = true) ∧
        cs.count '.' ≤ 1 := by
    simpa [isPlainDecimal] using hcs
  have hdigits {ds : List Char} (hsub : ∀ c ∈ ds, c ∈ cs) (hfree : '.' ∉ ds) :
      ∀ c ∈ ds, c.isDigit = true := by
    intro c hc
    rcases hchars c (hsub c hc) with hdigit | hpoint
    · exact hdigit
    · exact (hfree (hpoint ▸ hc)).elim
  obtain ⟨d, hd, hdigit⟩ := hsome
  by_cases hpoint : '.' ∈ cs
  · obtain ⟨whole, fraction, rfl, hwhole⟩ := List.eq_append_cons_of_mem hpoint
    have hfraction : '.' ∉ fraction := by
      intro hmem
      have hcount := List.count_pos_iff.2 hmem
      simp only [List.count_append, List.count_cons_self] at hpoints
      omega
    refine ⟨whole, fraction, hdigits (fun c hc => by simp [hc]) hwhole, ?_, ?_, .inr rfl⟩
    · exact hdigits (fun c hc => by simp [hc]) hfraction
    · intro hnil
      obtain ⟨rfl, rfl⟩ := List.append_eq_nil_iff.1 hnil
      have hd' : d = '.' := by simpa using hd
      exact absurd hdigit (by simp [hd'])
  · refine ⟨cs, [], hdigits (fun c hc => hc) hpoint, by simp, ?_, .inl ⟨rfl, rfl⟩⟩
    rw [List.append_nil]
    exact List.ne_nil_of_mem hd

/-- A plain decimal reads as the decimal that its digits write. -/
theorem decimalRead?_of_isPlainDecimal {digits : List Char}
    (hdigits : isPlainDecimal digits = true) :
    Decimal.read? digits = some (plainDecimal digits) := by
  obtain ⟨whole, fraction, hwhole, hfraction, hne, ⟨rfl, rfl⟩ | rfl⟩ :=
    exists_digits_of_isPlainDecimal hdigits
  · have htake : digits.takeWhile Char.isDigit = digits := List.takeWhile_eq_self_iff.2 hwhole
    have hdrop : digits.dropWhile Char.isDigit = [] := List.dropWhile_eq_nil_iff.2 hwhole
    have hsome : digits ≠ [] := by simpa using hne
    simp [Decimal.read?, plainDecimal, Decimal.readTail?, htake, hdrop, hsome]
  · have htake : (whole ++ '.' :: fraction).takeWhile Char.isDigit = whole := by
      rw [List.takeWhile_append_of_pos hwhole]
      simp
    have hdrop : (whole ++ '.' :: fraction).dropWhile Char.isDigit = '.' :: fraction := by
      rw [List.dropWhile_append_of_pos hwhole]
      simp
    have htakeFraction : fraction.takeWhile Char.isDigit = fraction :=
      List.takeWhile_eq_self_iff.2 hfraction
    have hdropFraction : fraction.dropWhile Char.isDigit = [] :=
      List.dropWhile_eq_nil_iff.2 hfraction
    have hsome : ¬(whole = [] ∧ fraction = []) := by
      rwa [← List.append_eq_nil_iff]
    simp [Decimal.read?, plainDecimal, Decimal.readTail?, htake, hdrop, htakeFraction,
      hdropFraction, hsome]

theorem read?_of_isPlainDecimal {digits : List Char} (hdigits : isPlainDecimal digits = true) :
    Binary64.read? digits = some (Binary64.ofCode false (plainDecimal digits).nearestCode) := by
  have hchars : ∀ c ∈ digits, c.isDigit = true ∨ c = '.' := by
    have hall := hdigits
    simp only [isPlainDecimal, Bool.and_eq_true, List.all_eq_true, Bool.or_eq_true, beq_iff_eq]
      at hall
    exact hall.1.1
  -- A sign is neither a digit nor a point.
  have hunsigned : Binary64.read? digits = Binary64.readUnsigned? false digits := by
    unfold Binary64.read?
    split
    · simpa using hchars '-' (by simp)
    · simpa using hchars '+' (by simp)
    · rfl
  rw [hunsigned, Binary64.readUnsigned?, decimalRead?_of_isPlainDecimal hdigits]

/-! ## Parting the weight -/

def tokenDigits? (text : List Char) : Option (List Char) :=
  if (text.dropWhile (!Text.isIndent ·)).isEmpty then none
  else weightDigits? (text.takeWhile (!Text.isIndent ·))

theorem weightDigits?_eq_some_iff {token digits : List Char} :
    weightDigits? token = some digits ↔
      token = digits ++ ['x'] ∧ isPlainDecimal digits = true := by
  unfold weightDigits?
  split
  · next ds hrev =>
    have htoken : token = ds.reverse ++ ['x'] := by
      rw [← List.reverse_reverse token, hrev, List.reverse_cons]
    subst htoken
    simp only [List.append_cancel_right_eq, Option.ite_none_right_eq_some, Option.some.injEq]
    constructor
    · rintro ⟨hplain, rfl⟩
      exact ⟨rfl, hplain⟩
    · rintro ⟨rfl, hplain⟩
      exact ⟨hplain, rfl⟩
  · next hother =>
    constructor
    · intro h
      cases h
    · rintro ⟨rfl, -⟩
      exact (hother digits.reverse (by simp)).elim

theorem isIndent_eq_false_of_isPlainDecimal {digits : List Char}
    (hdigits : isPlainDecimal digits = true) :
    ∀ c ∈ digits ++ ['x'], (!Text.isIndent c) = true := by
  intro c hc
  obtain ⟨whole, fraction, hwhole, hfraction, -, hform⟩ := exists_digits_of_isPlainDecimal hdigits
  have hcases : c.isDigit = true ∨ c = '.' ∨ c = 'x' := by
    rcases List.mem_append.1 hc with hmem | hmem
    · rcases hform with ⟨rfl, -⟩ | rfl
      · exact .inl (hwhole c hmem)
      · rcases List.mem_append.1 hmem with hmem | hmem
        · exact .inl (hwhole c hmem)
        · rcases List.mem_cons.1 hmem with rfl | hmem
          · exact .inr (.inl rfl)
          · exact .inl (hfraction c hmem)
    · exact .inr (.inr (List.mem_singleton.1 hmem))
  rcases hcases with hdigit | rfl | rfl
  · simp [isIndent_eq_false_of_isDigit hdigit]
  · decide
  · decide

theorem takeWhile_token {digits tail : List Char} (hdigits : isPlainDecimal digits = true)
    (htail : ∀ c ∈ tail.head?, Text.isIndent c = true) :
    (digits ++ 'x' :: tail).takeWhile (!Text.isIndent ·) = digits ++ ['x'] ∧
      (digits ++ 'x' :: tail).dropWhile (!Text.isIndent ·) = tail := by
  have hsplit : digits ++ 'x' :: tail = (digits ++ ['x']) ++ tail := by simp
  have hpos := isIndent_eq_false_of_isPlainDecimal hdigits
  rw [hsplit, List.takeWhile_append_of_pos hpos, List.dropWhile_append_of_pos hpos]
  cases tail with
  | nil => simp
  | cons c tail =>
      have hc : Text.isIndent c = true := htail c rfl
      simp [hc]

theorem tokenDigits?_eq_some_iff {text digits : List Char} :
    tokenDigits? text = some digits ↔
      ∃ c rest, text = digits ++ 'x' :: c :: rest ∧ isPlainDecimal digits = true ∧
        Text.isIndent c = true := by
  unfold tokenDigits?
  constructor
  · intro h
    split at h
    · cases h
    · next hne =>
      obtain ⟨htoken, hplain⟩ := weightDigits?_eq_some_iff.1 h
      cases htail : text.dropWhile (!Text.isIndent ·) with
      | nil => simp [htail] at hne
      | cons c rest =>
          refine ⟨c, rest, ?_, hplain, ?_⟩
          · calc
              text = text.takeWhile (!Text.isIndent ·) ++ text.dropWhile (!Text.isIndent ·) :=
                List.takeWhile_append_dropWhile.symm
              _ = digits ++ 'x' :: c :: rest := by
                rw [htoken, htail]
                simp
          · have hhead := List.head?_dropWhile_not (!Text.isIndent ·) text
            rw [htail] at hhead
            simpa using hhead
  · rintro ⟨c, rest, rfl, hplain, hc⟩
    have hhead : ∀ d ∈ (c :: rest).head?, Text.isIndent d = true := by simpa using hc
    obtain ⟨htake, hdrop⟩ := takeWhile_token hplain hhead
    rw [htake, hdrop]
    exact weightDigits?_eq_some_iff.2 ⟨rfl, hplain⟩

theorem tokenDigits?_eq_none_iff {text : List Char} :
    tokenDigits? text = none ↔ ¬HasWeight text := by
  rw [Option.eq_none_iff_forall_ne_some]
  constructor
  · rintro hnone ⟨digits, c, rest, hform⟩
    exact hnone digits (tokenDigits?_eq_some_iff.2 ⟨c, rest, hform⟩)
  · intro hfree digits h
    obtain ⟨c, rest, hform⟩ := tokenDigits?_eq_some_iff.1 h
    exact hfree ⟨digits, c, rest, hform⟩

theorem splitWeight_eq (text : List Char) :
    splitWeight text =
      match tokenDigits? text with
      | none => .ok ⟨.one, text, 0⟩
      | some digits =>
        let token := text.takeWhile (!Text.isIndent ·)
        let tail := text.dropWhile (!Text.isIndent ·)
        let weight := Binary64.ofCode false (plainDecimal digits).nearestCode
        if weight.isFinite then
          .ok ⟨weight, tail.dropWhile Text.isIndent,
            token.length + (tail.takeWhile Text.isIndent).length⟩
        else .error (.weightOutOfRange (String.ofList token)) :=
  rfl

theorem splitWeight_of_weighs {text rest : List Char} {weight : Binary64}
    (hweighs : Weighs text weight rest) : ∃ n, splitWeight text = .ok ⟨weight, rest, n⟩ := by
  rw [splitWeight_eq]
  cases hweighs with
  | absent hfree =>
      rw [tokenDigits?_eq_none_iff.2 hfree]
      exact ⟨0, rfl⟩
  | @given digits gap rest weight hplain hne hgap hrest hread hfinite =>
      have hhead : ∀ c ∈ (gap ++ rest).head?, Text.isIndent c = true := by
        cases gap with
        | nil => exact (hne rfl).elim
        | cons c gap => simpa using hgap c List.mem_cons_self
      have htoken : tokenDigits? (digits ++ 'x' :: (gap ++ rest)) = some digits := by
        obtain ⟨c, gap', rfl⟩ := List.exists_cons_of_ne_nil hne
        exact tokenDigits?_eq_some_iff.2
          ⟨c, gap' ++ rest, rfl, hplain, hgap c List.mem_cons_self⟩
      have hweight : Binary64.ofCode false (plainDecimal digits).nearestCode = weight :=
        Option.some.inj ((read?_of_isPlainDecimal hplain).symm.trans hread)
      have hdrop : (gap ++ rest).dropWhile Text.isIndent = rest := by
        rw [List.dropWhile_append_of_pos hgap]
        cases rest with
        | nil => rfl
        | cons c rest =>
            have hc : Text.isIndent c = false := hrest c rfl
            exact List.dropWhile_cons_of_neg (by simp [hc])
      simp only [htoken, hweight, if_pos hfinite, (takeWhile_token hplain hhead).2, hdrop]
      exact ⟨_, rfl⟩

theorem weighs_of_splitWeight {text : List Char} {weighted : Weighted}
    (hsplit : splitWeight text = .ok weighted) : Weighs text weighted.weight weighted.rest := by
  rw [splitWeight_eq] at hsplit
  cases htoken : tokenDigits? text with
  | none =>
      simp only [htoken, Except.ok.injEq] at hsplit
      subst hsplit
      exact .absent (tokenDigits?_eq_none_iff.1 htoken)
  | some digits =>
      obtain ⟨c, rest, rfl, hplain, hc⟩ := tokenDigits?_eq_some_iff.1 htoken
      have hhead : ∀ d ∈ (c :: rest).head?, Text.isIndent d = true := by simpa using hc
      have htail := (takeWhile_token hplain hhead).2
      simp only [htoken, htail] at hsplit
      split at hsplit
      · next hfinite =>
        cases hsplit
        have hgiven : Weighs
            (digits ++ 'x' :: ((c :: rest).takeWhile Text.isIndent ++
              (c :: rest).dropWhile Text.isIndent))
            (Binary64.ofCode false (plainDecimal digits).nearestCode)
            ((c :: rest).dropWhile Text.isIndent) := by
          refine .given hplain ?_ ?_ ?_ (read?_of_isPlainDecimal hplain) hfinite
          · simp [hc]
          · exact fun d hd => List.mem_takeWhile_imp hd
          · intro d hd
            have hhead := List.head?_dropWhile_not Text.isIndent (c :: rest)
            rw [Option.mem_def.1 hd] at hhead
            simpa using hhead
        rwa [List.takeWhile_append_dropWhile] at hgiven
      · cases hsplit

end Phrasebook.Source
