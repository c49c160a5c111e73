import Phrasebook.Proofs.Template.Closing
import Phrasebook.Proofs.Template.Normal

/-!
# Characters of templates

The literals of a template that is read have no characters but those of its text.
-/

namespace Phrasebook.Template

def Spells (template : Template) (c : Char) : Prop :=
  ∃ text, .literal text ∈ template ∧ c ∈ text.toList

theorem spells_literal_cons_iff {text : String} {template : Template} {c : Char} :
    Spells (.literal text :: template) c ↔ c ∈ text.toList ∨ template.Spells c := by
  simp [Spells, or_and_right, exists_or]

theorem spells_placeholder_cons_iff {name : String} {template : Template} {c : Char} :
    Spells (.placeholder name :: template) c ↔ template.Spells c := by
  simp [Spells]

theorem mem_of_spells_flush {pending : List Char} {template : Template} {c : Char}
    (hspells : (flush pending template).Spells c) : c ∈ pending ∨ template.Spells c := by
  unfold flush at hspells
  split at hspells
  · exact .inr hspells
  · rw [spells_literal_cons_iff, String.toList_ofList, List.mem_reverse] at hspells
    exact hspells

theorem mem_of_spells_ofTokens {pending : List Char} {tokens : List Token} {c : Char}
    (hspells : (ofTokens pending tokens).Spells c) : c ∈ pending ∨ .char c ∈ tokens := by
  induction tokens generalizing pending with
  | nil =>
      rcases mem_of_spells_flush hspells with hpending | hnil
      · exact .inl hpending
      · simp [Spells] at hnil
  | cons token tokens ih =>
      cases token with
      | char d =>
          rcases ih hspells with hpending | htokens
          · rcases List.mem_cons.1 hpending with rfl | hpending
            · exact .inr List.mem_cons_self
            · exact .inl hpending
          · exact .inr (List.mem_cons_of_mem _ htokens)
      | name name =>
          rcases mem_of_spells_flush hspells with hpending | hrest
          · exact .inl hpending
          · rcases ih (spells_placeholder_cons_iff.1 hrest) with hnil | htokens
            · cases hnil
            · exact .inr (List.mem_cons_of_mem _ htokens)

theorem Tokenizes.mem_of_char_mem {cs : List Char} {tokens : List Token} {c : Char}
    (htokens : Tokenizes cs tokens) (hc : .char c ∈ tokens) : c ∈ cs := by
  induction htokens with
  | nil => cases hc
  | char _ _ ih =>
      rcases List.mem_cons.1 hc with heq | hc
      · rw [Token.char.inj heq]
        exact List.mem_cons_self
      · exact List.mem_cons_of_mem _ (ih hc)
  | name hsplit _ _ ih =>
      rcases List.mem_cons.1 hc with heq | hc
      · cases heq
      · obtain ⟨hinner, -⟩ := splitClosing_eq_some_iff.1 hsplit
        simp [hinner, ih hc]

theorem mem_of_spells_of_parse {text : List Char} {template : Template} {c : Char}
    (hparse : parse text = .ok template) (hspells : template.Spells c) : c ∈ text := by
  obtain ⟨tokens, htokens, rfl⟩ := parse_eq_ok_iff_tokenizes.1 hparse
  rcases mem_of_spells_ofTokens hspells with hnil | hc
  · cases hnil
  · exact htokens.mem_of_char_mem hc

end Phrasebook.Template
