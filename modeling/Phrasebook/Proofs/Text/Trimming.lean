import Mathlib.Data.List.DropRight
import Phrasebook.Text.Blank

/-!
# Trimming

A text is its trimmed text and blank characters after it, and a text that does not end
in a blank character is trimmed already.
-/

namespace Phrasebook.Text

theorem dropEndWhile_eq_rdropWhile (p : Char → Bool) (cs : List Char) :
    dropEndWhile p cs = cs.rdropWhile p := rfl

/-- What trimming takes away is blank. -/
theorem exists_eq_trimEnd_append (cs : List Char) :
    ∃ blanks, isBlankText blanks = true ∧ cs = trimEnd cs ++ blanks := by
  refine ⟨cs.rtakeWhile isBlank, ?_, ?_⟩
  · exact List.all_eq_true.2 fun c hc => List.mem_rtakeWhile_imp hc
  · exact List.rdropWhile_append_rtakeWhile.symm

theorem dropEndWhile_append_of_pos {p : Char → Bool} (cs : List Char) {after : List Char}
    (hafter : ∀ c ∈ after, p c = true) : dropEndWhile p (cs ++ after) = dropEndWhile p cs := by
  rw [dropEndWhile, List.reverse_append, List.dropWhile_append_of_pos, dropEndWhile]
  exact fun c hc => hafter c (List.mem_reverse.1 hc)

theorem trimEnd_append_of_blank (cs : List Char) {blanks : List Char}
    (hblanks : isBlankText blanks = true) : trimEnd (cs ++ blanks) = trimEnd cs :=
  dropEndWhile_append_of_pos cs (List.all_eq_true.1 hblanks)

/-- A text whose last character is not blank is trimmed. -/
theorem trimEnd_concat (cs : List Char) {c : Char} (hc : isBlank c = false) :
    trimEnd (cs ++ [c]) = cs ++ [c] :=
  List.rdropWhile_concat_neg _ _ _ (by simp [hc])

/-- A text without blank characters is trimmed. -/
theorem trim_eq_self {cs : List Char} (hsolid : ∀ c ∈ cs, isBlank c = false) : trim cs = cs := by
  have hstart : cs.dropWhile isBlank = cs := by
    cases cs with
    | nil => rfl
    | cons c cs => exact List.dropWhile_cons_of_neg (by simp [hsolid])
  rw [trim, hstart]
  rcases List.eq_nil_or_concat' cs with rfl | ⟨front, last, rfl⟩
  · rfl
  · exact trimEnd_concat front (hsolid last (by simp))

/-- What trimming takes away at either end is blank. -/
theorem exists_eq_append_trim_append (cs : List Char) :
    ∃ before after, isBlankText before = true ∧ isBlankText after = true ∧
      cs = before ++ (trim cs ++ after) := by
  obtain ⟨after, hafter, hcs⟩ := exists_eq_trimEnd_append (cs.dropWhile isBlank)
  refine ⟨cs.takeWhile isBlank, after, ?_, hafter, ?_⟩
  · exact List.all_eq_true.2 fun c hc => List.mem_takeWhile_imp hc
  · rw [trim, ← hcs]
    exact List.takeWhile_append_dropWhile.symm

/-- Blank characters around a text are trimmed away. -/
theorem trim_append_append {before after : List Char} (cs : List Char)
    (hbefore : isBlankText before = true) (hafter : isBlankText after = true) :
    trim (before ++ (cs ++ after)) = trim cs := by
  have hstart : (before ++ (cs ++ after)).dropWhile isBlank = (cs ++ after).dropWhile isBlank :=
    List.dropWhile_append_of_pos (List.all_eq_true.1 hbefore)
  rw [trim, hstart, List.dropWhile_append, trim]
  split
  · next hcs =>
    rw [List.isEmpty_iff.1 hcs, List.dropWhile_eq_nil_iff.2 (List.all_eq_true.1 hafter)]
  · exact trimEnd_append_of_blank _ hafter

theorem trimEnd_eq_nil_iff {cs : List Char} : trimEnd cs = [] ↔ isBlankText cs = true := by
  rw [isBlankText, List.all_eq_true]
  exact List.rdropWhile_eq_nil_iff

theorem trimEnd_subset (cs : List Char) : trimEnd cs ⊆ cs :=
  (List.rdropWhile_prefix isBlank cs).subset

theorem trim_subset (cs : List Char) : trim cs ⊆ cs :=
  List.Subset.trans (trimEnd_subset _) (List.dropWhile_sublist isBlank).subset

/-- What may stand in an indentation is blank. -/
theorem isIndent_eq_false_of_isBlank {c : Char} (hc : isBlank c = false) :
    isIndent c = false := by
  cases hindent : isIndent c with
  | false => rfl
  | true =>
      have heq : c = ' ' ∨ c = '\t' := by simpa [isIndent] using hindent
      rcases heq with rfl | rfl <;> simp [isBlank] at hc

theorem isBlankText_of_isIndent {cs : List Char} (hcs : ∀ c ∈ cs, isIndent c = true) :
    isBlankText cs = true := by
  refine List.all_eq_true.2 fun c hc => ?_
  cases hblank : isBlank c with
  | true => rfl
  | false => exact absurd (hcs c hc) (by simp [isIndent_eq_false_of_isBlank hblank])

end Phrasebook.Text
