import Mathlib.Data.List.Basic
import Phrasebook.Text.Lines

/-!
# Lines with their ends

A text is parted into lines with their ends in one way only.
-/

namespace Phrasebook.Text

/-- Lines with their ends: the only line feed of a line is its last character, and the last line
may be without one. -/
inductive AreLines : List (List Char) → Prop
  | nil : AreLines []
  | last {line : List Char} : line ≠ [] → '\n' ∉ line → AreLines [line]
  | cons {line : List Char} {lines : List (List Char)} :
      '\n' ∉ line → AreLines lines → AreLines ((line ++ ['\n']) :: lines)

theorem piecesFrom_eq_append (piece : List Char) (done : List (List Char)) (text : List Char) :
    piecesFrom piece done text = done.reverse ++ piecesFrom piece [] text := by
  induction text generalizing piece done with
  | nil =>
      simp only [piecesFrom]
      split <;> simp
  | cons c text ih =>
      by_cases hc : c = '\n'
      · subst hc
        simp only [piecesFrom]
        rw [ih, ih [] [_]]
        simp
      · rw [piecesFrom.eq_3 _ _ _ _ hc, piecesFrom.eq_3 _ _ _ _ hc]
        exact ih (c :: piece) done

theorem areLines_piecesFrom {piece : List Char} (hpiece : '\n' ∉ piece) (text : List Char) :
    AreLines (piecesFrom piece [] text) := by
  induction text generalizing piece with
  | nil =>
      rw [piecesFrom]
      split
      · exact .nil
      · next hne =>
        refine .last ?_ (by simpa using hpiece)
        intro hnil
        exact hne (by simpa using hnil)
  | cons c text ih =>
      by_cases hc : c = '\n'
      · subst hc
        rw [piecesFrom, piecesFrom_eq_append, List.reverse_singleton, List.singleton_append,
          List.reverse_cons]
        exact .cons (by simpa using hpiece) (ih List.not_mem_nil)
      · rw [piecesFrom.eq_3 _ _ _ _ hc]
        exact ih (List.not_mem_cons_of_ne_of_not_mem (Ne.symm hc) hpiece)

theorem areLines_pieces (text : List Char) : AreLines (pieces text) :=
  areLines_piecesFrom List.not_mem_nil text

theorem piecesFrom_append {line : List Char} (hline : '\n' ∉ line) (piece : List Char)
    (done : List (List Char)) (rest : List Char) :
    piecesFrom piece done (line ++ rest) = piecesFrom (line.reverse ++ piece) done rest := by
  induction line generalizing piece with
  | nil => rfl
  | cons c line ih =>
      obtain ⟨hc, hline⟩ : '\n' ≠ c ∧ '\n' ∉ line := by
        simpa using hline
      rw [List.cons_append, piecesFrom.eq_3 _ _ _ _ (Ne.symm hc), ih hline, List.reverse_cons,
        List.append_assoc, List.singleton_append]

/-- Lines are read back from the text that they make. -/
theorem pieces_flatten {lines : List (List Char)} (hlines : AreLines lines) :
    pieces lines.flatten = lines := by
  induction hlines with
  | nil => rfl
  | @last line hne hline =>
      rw [List.flatten_singleton, ← List.append_nil line, pieces, piecesFrom_append hline]
      simp [piecesFrom, hne]
  | @cons line lines hline _ ih =>
      rw [List.flatten_cons, List.append_assoc, pieces, piecesFrom_append hline,
        List.append_nil, List.singleton_append, piecesFrom, piecesFrom_eq_append,
        List.reverse_singleton, List.reverse_cons, List.reverse_reverse, ← pieces, ih]
      rfl

end Phrasebook.Text
