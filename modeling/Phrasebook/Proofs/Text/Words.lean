import Phrasebook.Proofs.Text.Trimming

/-!
# Words and their cores

The words of a text are its pieces between blank characters. What is left of a word when characters
of a class are taken off its ends begins and ends with other characters, and that fixes it.
-/

namespace Phrasebook.Text

/-! ## Words -/

theorem wordsFrom_eq (word cs : List Char) :
    wordsFrom word cs =
      ((cs.splitOnP isBlank).modifyHead (word.reverse ++ ·)).filter (!·.isEmpty) := by
  induction cs generalizing word with
  | nil => cases word <;> simp [wordsFrom]
  | cons c cs ih =>
      rw [wordsFrom, List.splitOnP_cons_eq_if_modifyHead, ih, ih]
      split
      · have hid : (cs.splitOnP isBlank).modifyHead (fun piece => piece) = cs.splitOnP isBlank :=
          List.modifyHead_id ▸ rfl
        cases word <;> simp [hid]
      · simp [Function.comp_def]

theorem words_eq_filter_splitOnP (cs : List Char) :
    words cs = (cs.splitOnP isBlank).filter (!·.isEmpty) := by
  rw [words, wordsFrom_eq]
  exact congrArg _ (congrFun List.modifyHead_id _)

/-! ## Cores -/

section
variable {p : Char → Bool} {cs core : List Char}

/-- What is left of a text when all characters of a class are taken off both its ends. -/
structure IsCore (p : Char → Bool) (cs core : List Char) : Prop where
  around : ∃ before after, (∀ c ∈ before, p c = true) ∧ (∀ c ∈ after, p c = true) ∧
    cs = before ++ (core ++ after)
  head : ∀ c ∈ core.head?, p c = false
  last : ∀ c ∈ core.getLast?, p c = false

theorem isCore_dropEndWhile (p : Char → Bool) (cs : List Char) :
    IsCore p cs (dropEndWhile p (cs.dropWhile p)) where
  around := by
    refine ⟨cs.takeWhile p, (cs.dropWhile p).rtakeWhile p, fun c hc => List.mem_takeWhile_imp hc,
      fun c hc => List.mem_rtakeWhile_imp hc, ?_⟩
    rw [dropEndWhile_eq_rdropWhile, List.rdropWhile_append_rtakeWhile,
      List.takeWhile_append_dropWhile]
  head c hc := by
    obtain ⟨rest, hrest⟩ := List.rdropWhile_prefix p (cs.dropWhile p)
    have hhead : (cs.dropWhile p).head? = some c := by
      rw [← hrest, List.head?_append]
      exact congrArg (·.or rest.head?) hc
    have hother := List.head?_dropWhile_not p cs
    rw [hhead] at hother
    exact hother
  last c hc := by
    obtain ⟨hne, rfl⟩ := List.mem_getLast?_eq_getLast hc
    exact Bool.not_eq_true _ ▸ List.rdropWhile_last_not p (cs.dropWhile p) hne

theorem IsCore.eq (hcore : IsCore p cs core) : core = dropEndWhile p (cs.dropWhile p) := by
  obtain ⟨before, after, hbefore, hafter, rfl⟩ := hcore.around
  rw [List.dropWhile_append_of_pos hbefore]
  cases core with
  | nil =>
      rw [List.nil_append, List.dropWhile_eq_nil_iff.2 hafter]
      rfl
  | cons c core =>
      have hlast : dropEndWhile p (c :: core) = c :: core :=
        List.rdropWhile_eq_self_iff.2 fun hne => by
          simp [hcore.last _ (List.getLast?_eq_some_getLast hne)]
      rw [List.cons_append, List.dropWhile_cons_of_neg (by simp [hcore.head c rfl]),
        ← List.cons_append, dropEndWhile_append_of_pos _ hafter, hlast]

theorem isCore_iff : IsCore p cs core ↔ dropEndWhile p (cs.dropWhile p) = core :=
  ⟨fun hcore => hcore.eq.symm, fun hcs => hcs ▸ isCore_dropEndWhile p cs⟩

end

end Phrasebook.Text
