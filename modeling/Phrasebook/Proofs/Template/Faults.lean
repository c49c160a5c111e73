import Phrasebook.Proofs.Template.FirstFault
import Phrasebook.Proofs.Text.Trimming

/-!
# Faults in templates

A template that cannot be read is at fault where a placeholder opens, and a name that is no
name is quoted from the text after that.
-/

namespace Phrasebook.Template

def Fault.quoted : Fault → List Char
  | .unterminated => []
  | .emptyName => []
  | .invalidName name => name.toList

theorem Fault.newline_mem_message_iff {fault : Fault} :
    '\n' ∈ fault.message.toList ↔ '\n' ∈ fault.quoted := by
  unfold message quoted
  cases fault <;> simp

/-- A fault stands where a placeholder opens, and quotes what follows. -/
theorem StartsWithFault.exists_append {text : List Char} {fault : Fault}
    (hfault : StartsWithFault text fault) :
    ∃ after, text = '{' :: '{' :: after ∧ fault.quoted ⊆ after := by
  cases hfault with
  | unterminated => exact ⟨_, rfl, List.nil_subset _⟩
  | emptyName => exact ⟨_, rfl, List.nil_subset _⟩
  | invalidName =>
      refine ⟨_, rfl, ?_⟩
      rw [Fault.quoted, String.toList_ofList]
      exact List.subset_append_of_subset_left _ (Text.trim_subset _)

theorem exists_append_of_parse {text : List Char} {error : Error}
    (hparse : parse text = .error error) :
    ∃ before after, text = before ++ '{' :: '{' :: after ∧
      error.offset = before.length ∧ error.fault.quoted ⊆ after := by
  obtain ⟨before, rest, htext, hlength, -, hfault⟩ := hasFaultAt_of_parse hparse
  obtain ⟨after, rfl, hquoted⟩ := hfault.exists_append
  exact ⟨before, after, htext, hlength.symm, hquoted⟩

end Phrasebook.Template
