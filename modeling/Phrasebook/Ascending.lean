/-! # Lists in ascending order of a key

A finite map from texts is kept as a list in strictly ascending order of its keys.
Insertion puts an element in its place, and takes out the one with the same key.
-/

namespace Phrasebook

/-- The keys of a list ascend, so that no key occurs twice. -/
def Ascending (key : α → String) (xs : List α) : Prop :=
  xs.Pairwise fun a b => key a < key b

namespace Ascending

/-- Puts an element in its place, instead of one with the same key. -/
def insert (key : α → String) (x : α) : List α → List α
  | [] => [x]
  | y :: ys =>
    if key x < key y then x :: y :: ys
    else if key x = key y then x :: ys
    else y :: insert key x ys

theorem mem_of_mem_insert {key : α → String} {x a : α} {ys : List α}
    (h : a ∈ insert key x ys) : a = x ∨ a ∈ ys := by
  induction ys with
  | nil => simpa [insert] using h
  | cons y ys ih =>
    unfold insert at h
    split at h
    · simpa using h
    · split at h
      · rcases List.mem_cons.1 h with h | h
        · exact .inl h
        · exact .inr (List.mem_cons_of_mem _ h)
      · rcases List.mem_cons.1 h with h | h
        · exact .inr (h ▸ List.mem_cons_self)
        · exact (ih h).imp id (List.mem_cons_of_mem _)

theorem ascending_insert {key : α → String} (x : α) {ys : List α} (h : Ascending key ys) :
    Ascending key (insert key x ys) := by
  induction ys with
  | nil => simp [insert, Ascending]
  | cons y ys ih =>
    obtain ⟨above, rest⟩ := List.pairwise_cons.1 h
    unfold insert
    split
    · next before =>
      refine List.pairwise_cons.2 ⟨fun a ha => ?_, h⟩
      rcases List.mem_cons.1 ha with ha | ha
      · exact ha ▸ before
      · exact String.lt_trans before (above a ha)
    · next notBefore =>
      split
      · next same => exact List.pairwise_cons.2 ⟨fun a ha => same ▸ above a ha, rest⟩
      · next different =>
        refine List.pairwise_cons.2 ⟨fun a ha => ?_, ih rest⟩
        rcases mem_of_mem_insert ha with ha | ha
        · exact ha ▸ Std.lt_of_le_of_ne notBefore (Ne.symm different)
        · exact above a ha

/-! ## Look-up -/

theorem find?_insert_self (key : α → String) (x : α) (ys : List α) :
    (insert key x ys).find? (key · == key x) = some x := by
  induction ys with
  | nil => simp [insert]
  | cons y ys ih =>
    unfold insert
    split
    · simp
    · split
      · simp
      · next different =>
        have passed : (key y == key x) = false := by simpa using Ne.symm different
        rw [List.find?_cons, passed]
        exact ih

theorem find?_insert_of_ne {key : α → String} {x : α} {k : String} (h : key x ≠ k)
    (ys : List α) : (insert key x ys).find? (key · == k) = ys.find? (key · == k) := by
  have passed : (key x == k) = false := by simpa using h
  induction ys with
  | nil => simp [insert, h]
  | cons y ys ih =>
    unfold insert
    split
    · rw [List.find?_cons, passed]
    · split
      · next same =>
        have passedToo : (key y == k) = false := same ▸ passed
        rw [List.find?_cons, passed, List.find?_cons, passedToo]
      · rw [List.find?_cons, List.find?_cons, ih]

end Ascending

end Phrasebook
