import Mathlib.Data.List.Forall2
import Phrasebook.Proofs.Source.Quoting
import Phrasebook.Proofs.Source.Rows
import Phrasebook.Proofs.Source.Weight

/-!
# Alternatives

The rows of an item make the text that the grammar gives it, and the text is made into
an alternative exactly when it writes that alternative.
-/

namespace Phrasebook.Source

/-! ## Texts of items -/

namespace ItemRows

/-- What the reader has of an item once its rows are read. -/
def item (item : ItemRows) : Item :=
  ⟨item.first.number, item.first.indent + 1 + item.first.gap + 1,
    (item.more.map Row.text).reverse ++ [item.first.content]⟩

theorem foldl_eq_intercalate {more : List Row} (hmore : ∀ row ∈ more, row.text ≠ [])
    (text : List Char) :
    more.foldl (fun text row => if text.isEmpty then row.text else text ++ ' ' :: row.text) text =
      [' '].intercalate ((text :: more.map Row.text).filter (!·.isEmpty)) := by
  induction more generalizing text with
  | nil => cases text <;> simp
  | cons row more ih =>
      have hrow : row.text ≠ [] := hmore row List.mem_cons_self
      rw [List.foldl_cons, ih fun next hnext => hmore next (List.mem_cons_of_mem _ hnext)]
      cases text with
      | nil => simp
      | cons c text =>
          have hkeep : row.text.isEmpty = false := by simpa using hrow
          cases hrest : (more.map Row.text).filter (!·.isEmpty) with
          | nil => simp [hrest, hkeep]
          | cons piece pieces => simp [hrest, hkeep, List.intercalate_cons_cons]

theorem text_item {item : ItemRows} (hmore : ∀ row ∈ item.more, row.text ≠ []) :
    item.item.text = item.text := by
  rw [text, foldl_eq_intercalate hmore, Item.text, ItemRows.item]
  simp

end ItemRows

/-! ## Alternatives of items -/

theorem alternative_eq_ok_iff {category : String} {item : Item} {alternative : Alternative} :
    item.alternative category = .ok alternative ↔ WritesAlternative item.text alternative := by
  unfold Item.alternative
  constructor
  · intro h
    cases hsplit : splitWeight item.text with
    | error fault => simp [hsplit] at h
    | ok weighted =>
        cases hunquote : unquote weighted.rest with
        | error fault => simp [hsplit, hunquote] at h
        | ok unquoted =>
            cases hparse : Template.parse unquoted.text with
            | error error => simp [hsplit, hunquote, hparse] at h
            | ok template =>
                simp only [hsplit, hunquote, hparse, Except.ok.injEq] at h
                subst h
                exact ⟨_, _, weighs_of_splitWeight hsplit, quotes_of_unquote hunquote, hparse⟩
  · rintro ⟨rest, out, hweighs, hquotes, hparse⟩
    obtain ⟨consumed, hsplit⟩ := splitWeight_of_weighs hweighs
    obtain ⟨quoted, hunquote⟩ := unquote_of_quotes hquotes
    simp only [hsplit, hunquote, hparse]

theorem exists_mem_of_forall₂ {R : α → β → Prop} {xs : List α} {ys : List β} {y : β}
    (hall : List.Forall₂ R xs ys) (hy : y ∈ ys) : ∃ x ∈ xs, R x y := by
  induction hall with
  | nil => cases hy
  | @cons x z xs ys hxz _ ih =>
      rcases List.mem_cons.1 hy with rfl | hy
      · exact ⟨x, List.mem_cons_self, hxz⟩
      · obtain ⟨x', hx', hR⟩ := ih hy
        exact ⟨x', List.mem_cons_of_mem _ hx', hR⟩

theorem mapM_eq_ok_iff {f : α → Except ε β} {xs : List α} {ys : List β} :
    xs.mapM f = .ok ys ↔ List.Forall₂ (fun x y => f x = .ok y) xs ys := by
  induction xs generalizing ys with
  | nil =>
      rw [List.mapM_nil, List.forall₂_nil_left_iff]
      exact ⟨fun h => (Except.ok.inj h).symm, fun h => congrArg _ h.symm⟩
  | cons x xs ih =>
      rw [List.mapM_cons, List.forall₂_cons_left_iff]
      cases hx : f x with
      | error error => simp [bind, Except.bind]
      | ok y =>
          cases hxs : xs.mapM f with
          | error error =>
              simp only [bind, Except.bind, reduceCtorEq, false_iff]
              rintro ⟨y', ys', -, hys, -⟩
              rw [ih.2 hys] at hxs
              cases hxs
          | ok ys' =>
              simp only [bind, Except.bind, pure, Except.pure, Except.ok.injEq]
              constructor
              · rintro rfl
                exact ⟨y, ys', rfl, ih.1 hxs, rfl⟩
              · rintro ⟨y₁, ys₁, rfl, hys, rfl⟩
                rw [ih.2 hys] at hxs
                rw [Except.ok.inj hxs]

end Phrasebook.Source
