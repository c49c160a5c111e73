import Mathlib.Data.List.Sort
import Mathlib.Data.String.Basic
import Phrasebook.Ascending

/-!
# Lists in order

A list whose elements ascend in their places is fixed by which elements it has. Sorting puts
elements with different places into such a list. What is found under a key that no two elements
share does not depend on their order.
-/

namespace Phrasebook

section
variable {α β : Type} {place : α → β} {xs ys : List α}

/-- Elements in order of their places are fixed by which they are. -/
theorem eq_of_pairwise_place [Preorder β] (hxs : xs.Pairwise fun a b => place a < place b)
    (hys : ys.Pairwise fun a b => place a < place b) (hmem : ∀ a, a ∈ xs ↔ a ∈ ys) : xs = ys := by
  have hirrefl : Std.Irrefl fun a b : α => place a < place b := ⟨fun a => lt_irrefl (place a)⟩
  have hasymm : Std.Antisymm fun a b : α => place a < place b :=
    ⟨fun a b hab hba => (lt_asymm hab hba).elim⟩
  exact List.Pairwise.eq_of_mem_iff hxs hys hmem

/-- Elements in order of their places have different labels, when no two places share one. -/
theorem nodup_map_of_pairwise_place [Preorder β] {γ : Type} {label : α → γ}
    (hxs : xs.Pairwise fun a b => place a < place b)
    (hlabel : ∀ a ∈ xs, ∀ b ∈ xs, label a = label b → place a = place b) :
    (xs.map label).Nodup := by
  refine List.pairwise_map.2 (hxs.imp_of_mem ?_)
  intro a b ha hb hlt heq
  exact hlt.ne (hlabel a ha b hb heq)

theorem pairwise_mergeSort_place [LinearOrder β] {le : α → α → Bool}
    (hle : ∀ a b, le a b = true ↔ place a ≤ place b) (hxs : (xs.map place).Nodup) :
    (xs.mergeSort le).Pairwise fun a b => place a < place b := by
  have hsorted : (xs.mergeSort le).Pairwise fun a b => le a b = true := by
    refine List.pairwise_mergeSort ?_ ?_ xs
    · simp only [hle]
      exact fun a b c => le_trans
    · simp only [Bool.or_eq_true, hle]
      exact fun a b => le_total _ _
  have hne : (xs.mergeSort le).Pairwise fun a b => place a ≠ place b :=
    List.pairwise_map.1 (((List.mergeSort_perm xs le).map place).nodup_iff.2 hxs)
  exact (hsorted.and hne).imp fun {a b} h => lt_of_le_of_ne ((hle a b).1 h.1) h.2

end

section
variable {α : Type} {key : α → String} {xs ys : List α}

/-- A key that no two elements share finds the element that has it. -/
theorem find?_eq_some_iff_of_nodup (hkeys : (xs.map key).Nodup) {k : String} {a : α} :
    xs.find? (key · == k) = some a ↔ a ∈ xs ∧ key a = k := by
  constructor
  · exact fun hfind => ⟨List.mem_of_find?_eq_some hfind, by simpa using List.find?_some hfind⟩
  · rintro ⟨ha, rfl⟩
    induction xs with
    | nil => cases ha
    | cons x xs ih =>
        obtain ⟨hx, hrest⟩ := List.nodup_cons.1 (List.map_cons ▸ hkeys)
        rcases List.mem_cons.1 ha with rfl | ha
        · simp
        · have hne : key x ≠ key a := fun heq => hx (List.mem_map.2 ⟨a, ha, heq.symm⟩)
          rw [List.find?_cons_of_neg (by simpa using hne)]
          exact ih hrest ha

theorem find?_eq_of_perm (hperm : xs.Perm ys) (hkeys : (xs.map key).Nodup) (k : String) :
    xs.find? (key · == k) = ys.find? (key · == k) := by
  have hkeys' : (ys.map key).Nodup := (hperm.map key).nodup_iff.1 hkeys
  ext a
  rw [find?_eq_some_iff_of_nodup hkeys, find?_eq_some_iff_of_nodup hkeys', hperm.mem_iff]

end

namespace Ascending

variable {α : Type} {key : α → String} {xs ys : List α}

/-- A list in ascending order is fixed by its elements. -/
theorem eq_of_mem_iff (hxs : Ascending key xs) (hys : Ascending key ys)
    (hmem : ∀ a, a ∈ xs ↔ a ∈ ys) : xs = ys :=
  eq_of_pairwise_place hxs hys hmem

theorem nodup (hxs : Ascending key xs) : (xs.map key).Nodup :=
  nodup_map_of_pairwise_place hxs fun _ _ _ _ => id

theorem find?_of_mem {a : α} (hxs : Ascending key xs) (ha : a ∈ xs) :
    xs.find? (key · == key a) = some a :=
  (find?_eq_some_iff_of_nodup hxs.nodup).2 ⟨ha, rfl⟩

end Ascending

end Phrasebook
