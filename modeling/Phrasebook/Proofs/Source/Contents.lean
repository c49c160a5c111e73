import Phrasebook.Proofs.Binary64.Addition
import Phrasebook.Proofs.Source.Acceptance

/-!
# What books hold

What is read into a book satisfies more than any book: each category is written by a
block, so its weights are finite and none of them is below zero.
-/

namespace Phrasebook

theorem Decimal.nearestCode_le (d : Decimal) : d.nearestCode ≤ Binary64.infinityCode := by
  unfold nearestCode
  dsimp only
  split
  · exact Nat.zero_le _
  · split
    · exact Nat.le_refl _
    · split
      · exact Nat.zero_le _
      · split <;> exact Nat.min_le_right _ _

namespace Source

theorem isNonneg_of_weighs {text rest : List Char} {weight : Binary64}
    (hweighs : Weighs text weight rest) : weight.IsNonneg ∧ weight.isFinite = true := by
  cases hweighs with
  | @given digits gap _ _ hplain _ _ _ hread hfinite =>
      rw [read?_of_isPlainDecimal hplain] at hread
      cases hread
      exact ⟨Binary64.isNonneg_ofCode (plainDecimal digits).nearestCode_le, hfinite⟩
  | absent => exact ⟨Binary64.isNonneg_one, by decide⟩

/-- Each category of a book that was read is written by a block. -/
theorem exists_block_of_parse {text : String} {book : Book} {category : Category}
    (hparse : parse text = .ok book) (hmem : category ∈ book.categories) :
    ∃ block : BlockRows, block.IsLaidOut ∧ block.Writes (.category category) := by
  obtain ⟨blocks, parts, hsource, hbook⟩ := exists_isSource_of_parse hparse
  have hpart := (hbook.categories category).1 hmem
  obtain ⟨block, hblock, hwrites⟩ := exists_mem_of_forall₂ hsource.written hpart
  exact ⟨block, hsource.laidOut block hblock, hwrites⟩

theorem isNonneg_weight_of_parse {text : String} {book : Book} {category : Category}
    {alternative : Alternative} (hparse : parse text = .ok book)
    (hmem : category ∈ book.categories) (halternative : alternative ∈ category.alternatives) :
    alternative.weight.IsNonneg ∧ alternative.weight.isFinite = true := by
  obtain ⟨block, -, hwrites⟩ := exists_block_of_parse hparse hmem
  cases hwrites with
  | category hitems halternatives =>
      obtain ⟨item, -, rest, out, hweighs, -⟩ := exists_mem_of_forall₂ halternatives halternative
      exact isNonneg_of_weighs hweighs

theorem isNonneg_weights_of_parse {text : String} {book : Book} {category : Category}
    (hparse : parse text = .ok book) (hmem : category ∈ book.categories) :
    ∀ w ∈ category.weights, w.IsNonneg := by
  intro w hw
  obtain ⟨alternative, halternative, rfl⟩ := List.mem_map.1 hw
  exact (isNonneg_weight_of_parse hparse hmem halternative).1

/-- What a test says of the book that a text is read into. -/
theorem exists_parse_of_test (text : String) (test : Book → Bool)
    (htest : (parse text).toOption.any test = true) :
    ∃ book, parse text = .ok book ∧ test book = true := by
  cases hparse : parse text with
  | error error =>
      rw [hparse] at htest
      cases htest
  | ok book =>
      rw [hparse] at htest
      exact ⟨book, rfl, htest⟩

end Source

end Phrasebook
