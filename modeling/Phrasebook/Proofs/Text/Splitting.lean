import Mathlib.Data.List.Basic
import Phrasebook.Text.Lines

/-!
# Lines put together

Lines that hold no line feed and do not end in a carriage return are read back from the
text that they make. Any text is read line by line, each up to the next line feed.
-/

namespace Phrasebook.Text

/-! ## Up to a character -/

theorem takeWhile_append_cons {c : Char} {text : List Char} (htext : c ∉ text) (rest : List Char) :
    (text ++ c :: rest).takeWhile (· != c) = text := by
  have hall : ∀ d ∈ text, (d != c) = true := fun d hd =>
    bne_iff_ne.2 (ne_of_mem_of_not_mem hd htext)
  rw [List.takeWhile_append_of_pos hall, List.takeWhile_cons_of_neg (by simp), List.append_nil]

/-- Where a character comes first, a text is split in one way. -/
theorem eq_of_append_cons_eq {c : Char} {text other rest rest' : List Char} (htext : c ∉ text)
    (hother : c ∉ other) (heq : text ++ c :: rest = other ++ c :: rest') :
    text = other ∧ rest = rest' := by
  have hcut := congrArg (List.takeWhile (· != c)) heq
  rw [takeWhile_append_cons htext, takeWhile_append_cons hother] at hcut
  subst hcut
  exact ⟨rfl, List.cons_injective (List.append_cancel_left heq)⟩

/-! ## Lines -/

structure IsLine (line : List Char) : Prop where
  unbroken : '\n' ∉ line
  unreturned : line.getLast? ≠ some '\r'

theorem dropReturn_of_head?_ne {line : List Char} (hline : line.head? ≠ some '\r') :
    dropReturn line = line := by
  unfold dropReturn
  split
  · exact (hline rfl).elim
  · rfl

theorem withoutReturn_of_isLine {line : List Char} (hline : IsLine line) :
    withoutReturn line = line := by
  have hhead : line.reverse.head? ≠ some '\r' := by
    rw [List.head?_reverse]
    exact hline.unreturned
  rw [withoutReturn, dropReturn_of_head?_ne hhead, List.reverse_reverse]

theorem linesFrom_append_newline {line : List Char} (hline : '\n' ∉ line) (front : List Char)
    (done : List (List Char)) (rest : List Char) :
    linesFrom front done (line ++ '\n' :: rest) =
      linesFrom [] ((dropReturn (line.reverse ++ front)).reverse :: done) rest := by
  induction line generalizing front with
  | nil => rfl
  | cons c line ih =>
      obtain ⟨hc, hline⟩ : c ≠ '\n' ∧ '\n' ∉ line := by
        simpa [eq_comm] using hline
      rw [List.cons_append, linesFrom, ih hline]
      · simp
      · exact hc

theorem linesFrom_flatMap {lines : List (List Char)} (hlines : ∀ line ∈ lines, IsLine line)
    (done : List (List Char)) :
    linesFrom [] done (lines.flatMap (· ++ ['\n'])) = done.reverse ++ lines := by
  induction lines generalizing done with
  | nil => simp [linesFrom]
  | cons line lines ih =>
      have hline := hlines line List.mem_cons_self
      have hwhole : (dropReturn (line.reverse ++ [])).reverse = line := by
        rw [List.append_nil]
        exact withoutReturn_of_isLine hline
      rw [List.flatMap_cons, List.append_assoc, List.singleton_append,
        linesFrom_append_newline hline.unbroken, hwhole,
        ih fun line hline => hlines line (List.mem_cons_of_mem _ hline)]
      simp

/-- The lines of a text that is put together from lines. -/
theorem lines_flatMap {lines : List (List Char)} (hlines : ∀ line ∈ lines, IsLine line) :
    Text.lines (lines.flatMap (· ++ ['\n'])) = lines :=
  linesFrom_flatMap hlines []

/-! ## Line by line -/

theorem linesFrom_eq_append (line : List Char) (done : List (List Char)) (text : List Char) :
    linesFrom line done text = done.reverse ++ linesFrom line [] text := by
  induction text generalizing line done with
  | nil =>
      simp only [linesFrom]
      split <;> simp
  | cons c text ih =>
      by_cases hc : c = '\n'
      · subst hc
        simp only [linesFrom]
        rw [ih, ih [] [_]]
        simp
      · rw [linesFrom.eq_3 _ _ _ _ hc, linesFrom.eq_3 _ _ _ _ hc]
        exact ih (c :: line) done

theorem lines_append_newline {line : List Char} (hline : '\n' ∉ line) (rest : List Char) :
    lines (line ++ '\n' :: rest) = withoutReturn line :: lines rest := by
  rw [lines, linesFrom_append_newline hline, linesFrom_eq_append, List.append_nil]
  rfl

theorem linesFrom_of_unbroken {line : List Char} (hline : '\n' ∉ line) (front : List Char)
    (done : List (List Char)) :
    linesFrom front done line = linesFrom (line.reverse ++ front) done [] := by
  induction line generalizing front with
  | nil => rfl
  | cons c line ih =>
      obtain ⟨hc, hline⟩ : c ≠ '\n' ∧ '\n' ∉ line := by
        simpa [eq_comm] using hline
      rw [linesFrom.eq_3 _ _ _ _ hc, ih hline, List.reverse_cons, List.append_assoc,
        List.singleton_append]

theorem lines_of_unbroken {line : List Char} (hline : '\n' ∉ line) (hne : line ≠ []) :
    lines line = [line] := by
  rw [lines, linesFrom_of_unbroken hline]
  simp [linesFrom, hne]

theorem withoutReturn_append_return (line : List Char) :
    withoutReturn (line ++ ['\r']) = line := by
  simp [withoutReturn, dropReturn]

theorem withoutReturn_of_not_mem {line : List Char} (hline : '\r' ∉ line) :
    withoutReturn line = line := by
  rw [withoutReturn, dropReturn_of_head?_ne, List.reverse_reverse]
  exact fun hhead => hline (List.mem_reverse.1 (List.mem_of_head? hhead))

theorem eq_withoutReturn_or (line : List Char) :
    line = withoutReturn line ∨ line = withoutReturn line ++ ['\r'] := by
  rcases line.eq_nil_or_concat' with rfl | ⟨line, c, rfl⟩
  · exact .inl rfl
  · by_cases hc : c = '\r'
    · subst hc
      rw [withoutReturn_append_return]
      exact .inr rfl
    · rw [withoutReturn, dropReturn_of_head?_ne (by simpa using hc), List.reverse_reverse]
      exact .inl rfl

/-- A piece of a text that is parted at a character holds characters of the text, but not
that one. -/
theorem subset_of_mem_splitOn {text line : List Char} {c : Char} (hline : line ∈ text.splitOn c) :
    c ∉ line ∧ line ⊆ text := by
  induction text generalizing line with
  | nil =>
      obtain rfl : line = [] := by simpa using hline
      exact ⟨List.not_mem_nil, List.Subset.refl _⟩
  | cons d text ih =>
      rw [List.splitOn_cons_eq_if_modifyHead] at hline
      split at hline
      · rcases List.mem_cons.1 hline with rfl | hline
        · exact ⟨List.not_mem_nil, List.nil_subset _⟩
        · exact (ih hline).imp_right (List.subset_cons_of_subset d)
      · next hd =>
        obtain ⟨first, rest, hsplit⟩ := List.exists_cons_of_ne_nil (List.splitOn_ne_nil c text)
        rw [hsplit] at hline ih
        rcases List.mem_cons.1 hline with rfl | hline
        · obtain ⟨hfirst, hsubset⟩ := ih List.mem_cons_self
          have hne : c ≠ d := fun heq => hd (by simp [heq])
          exact ⟨List.not_mem_cons_of_ne_of_not_mem hne hfirst, List.cons_subset_cons d hsubset⟩
        · exact (ih (List.mem_cons_of_mem _ hline)).imp_right (List.subset_cons_of_subset d)

end Phrasebook.Text
