import Phrasebook.Proofs.Source.Rows
import Phrasebook.Proofs.Text.Names

/-!
# Headings

A row that is not indented and is no item opens a block exactly when it is the heading of
a key that blocks may have.
-/

namespace Phrasebook

theorem Name.isValid_preambleKey : isValid Source.preambleKey.toList = false := by
  decide +kernel

namespace Source

/-! ## Keys -/

def IsKey (key : String) : Prop := key = preambleKey ∨ Name.isValid key.toList = true

theorem IsKey.trimEnd {key : String} (hkey : IsKey key) :
    Text.trimEnd key.toList = key.toList := by
  rcases hkey with rfl | hvalid
  · decide +kernel
  · exact Name.trimEnd_of_isValid hvalid

theorem text_of_heads {row : Row} {key : String} (hheads : row.Heads key) :
    ∃ before, Text.isBlankText before = true ∧ row.text = key.toList ++ before ++ [':'] := by
  obtain ⟨before, after, hbody, hbefore, hafter⟩ := hheads.form
  refine ⟨before, hbefore, ?_⟩
  have hcolon : Text.isBlank ':' = false := by decide
  rw [Row.text, hbody, List.append_cons, Text.trimEnd_append_of_blank _ hafter,
    Text.trimEnd_concat _ hcolon]

/-- The reader finds the key of a row exactly when the row is the heading of that key. -/
theorem headingKey_eq_ok_iff {row : Row} {key : String} (hleading : row.leading = [])
    (hitem : ¬row.IsItem) :
    State.headingKey row.text = .ok key ↔ row.Heads key ∧ IsKey key := by
  constructor
  · intro h
    unfold State.headingKey at h
    split at h
    · next rest hreverse =>
      have htext : row.text = rest.reverse ++ [':'] := by
        rw [← List.reverse_reverse row.text, hreverse, List.reverse_cons]
      dsimp only at h
      split at h
      · next hkey =>
        cases h
        obtain ⟨before, hbefore, hrest⟩ := Text.exists_eq_trimEnd_append rest.reverse
        obtain ⟨after, hafter, hbody⟩ := Text.exists_eq_trimEnd_append row.body
        refine ⟨⟨hleading, hitem, before, after, ?_, hbefore, hafter⟩, ?_⟩
        · have hbody : row.body = row.text ++ after := hbody
          rw [hbody, htext, String.toList_ofList, ← hrest, List.append_assoc]
          rfl
        · rw [IsKey, String.toList_ofList]
          exact hkey
      · cases h
    · cases h
  · rintro ⟨hheads, hkey⟩
    obtain ⟨before, hbefore, htext⟩ := text_of_heads hheads
    have hname : Text.trimEnd (before.reverse ++ key.toList.reverse).reverse = key.toList := by
      rw [List.reverse_append, List.reverse_reverse, List.reverse_reverse,
        Text.trimEnd_append_of_blank _ hbefore, hkey.trimEnd]
    rw [State.headingKey, htext, List.reverse_append, List.reverse_append]
    simp only [List.reverse_singleton, List.singleton_append, hname, String.ofList_toList]
    exact if_pos hkey

end Source

end Phrasebook
