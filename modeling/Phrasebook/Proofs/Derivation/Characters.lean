import Phrasebook.Proofs.Derivation.Drawn
import Phrasebook.Proofs.Template.Spelling

/-!
# Characters of generated texts

An expansion makes no characters of its own: each one of a text that is generated stands in a
literal of the book or in a bound text.
-/

namespace Phrasebook

def Book.Spells (book : Book) (c : Char) : Prop :=
  ∃ category ∈ book.categories, ∃ alternative ∈ category.alternatives,
    alternative.template.Spells c

def Bindings.Spells (bindings : Bindings) (c : Char) : Prop :=
  ∃ name text, bindings.get? name = some text ∧ c ∈ text.toList

variable {book : Book} {bindings : Bindings} {c : Char}

mutual

theorem Derivation.spells_of_mem_text {name : String} :
    ∀ tree : Derivation book bindings name, c ∈ tree.text.toList →
      book.Spells c ∨ bindings.Spells c
  | .node category hfind i _ filling, hc => by
      rw [Derivation.text] at hc
      rcases Filling.spells_of_mem_text filling hc with htemplate | hspells
      · exact .inl ⟨category, Book.mem_of_find? hfind, _, List.get_mem _ i, htemplate⟩
      · exact hspells

theorem Filling.spells_of_mem_text {template : Template} :
    ∀ filling : Filling book bindings template, c ∈ filling.text.toList →
      template.Spells c ∨ book.Spells c ∨ bindings.Spells c
  | .nil, hc => by simp [Filling.text] at hc
  | .literal text tail, hc => by
      rw [Filling.text, String.toList_append, List.mem_append] at hc
      rw [Template.spells_literal_cons_iff]
      rcases hc with hc | hc
      · exact .inl (.inl hc)
      · exact (Filling.spells_of_mem_text tail hc).imp_left .inr
  | .bound text hbound tail, hc => by
      rw [Filling.text, String.toList_append, List.mem_append] at hc
      rw [Template.spells_placeholder_cons_iff]
      rcases hc with hc | hc
      · exact .inr (.inr ⟨_, text, hbound, hc⟩)
      · exact Filling.spells_of_mem_text tail hc
  | .derived _ piece tail, hc => by
      rw [Filling.text, String.toList_append, List.mem_append] at hc
      rw [Template.spells_placeholder_cons_iff]
      rcases hc with hc | hc
      · exact .inr (Derivation.spells_of_mem_text piece hc)
      · exact Filling.spells_of_mem_text tail hc

end

theorem Book.spells_of_generate {config : Config} {start : String} {seed : Seed} {t : Binary64}
    {text : String} (hgenerate : book.generate config start bindings seed t = .ok text)
    (hc : c ∈ text.toList) : book.Spells c ∨ bindings.Spells c := by
  obtain ⟨tree, -, rfl, -⟩ := generate_eq_ok_iff.1 hgenerate
  exact tree.spells_of_mem_text hc

theorem Bindings.not_spells_empty : ¬Bindings.empty.Spells c := by
  intro hspells
  obtain ⟨name, text, hget, -⟩ := hspells
  cases hget

end Phrasebook
