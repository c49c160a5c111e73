import Phrasebook.Name
import Phrasebook.Proofs.Text.Trimming

/-!
# Characters of names

A name is made of letters, digits and two marks. No blank character is among them, and no brace.
-/

namespace Phrasebook.Name

theorem isRest_of_isStart {c : Char} (hc : isStart c = true) : isRest c = true := by
  simp only [isStart, isRest, Char.isAlphanum, Bool.or_eq_true] at hc ⊢
  rcases hc with hc | hc
  · exact .inl (.inl (.inl hc))
  · exact .inl (.inr hc)

theorem bounds_of_isAlpha {c : Char} (hc : c.isAlpha = true) :
    65 ≤ c.toNat ∧ c.toNat ≤ 122 := by
  rcases Bool.or_eq_true_iff.1 hc with hupper | hlower
  · have hbounds : 65 ≤ c.toNat ∧ c.toNat ≤ 90 := of_decide_eq_true hupper
    omega
  · obtain ⟨hleft, hright⟩ := Bool.and_eq_true_iff.1 hlower
    have hbelow : 97 ≤ c.toNat := of_decide_eq_true hleft
    have habove : c.toNat ≤ 122 := of_decide_eq_true hright
    omega

/-- The characters of names stand from `-` to `z`, and there is no blank one there. -/
theorem isBlank_eq_false_of_isRest {c : Char} (hc : isRest c = true) :
    Text.isBlank c = false := by
  have hrange : 45 ≤ c.toNat ∧ c.toNat ≤ 122 := by
    simp only [isRest, Bool.or_eq_true, beq_iff_eq, Char.isAlphanum] at hc
    rcases hc with ((halpha | hdigit) | rfl) | rfl
    · have hbounds := bounds_of_isAlpha halpha
      omega
    · have hbounds : 48 ≤ c.toNat ∧ c.toNat ≤ 57 := Char.isDigit_iff_toNat.1 hdigit
      omega
    · decide
    · decide
  simp only [Text.isBlank, Bool.or_eq_false_iff, Bool.and_eq_false_iff, decide_eq_false_iff_not,
    beq_eq_false_iff_ne]
  omega

theorem isRest_of_isValid {name : List Char} (hname : isValid name = true) :
    ∀ c ∈ name, isRest c = true := by
  cases name with
  | nil => cases hname
  | cons c cs =>
      obtain ⟨hstart, hrest⟩ : isStart c = true ∧ ∀ c ∈ cs, isRest c = true := by
        simpa [isValid] using hname
      intro d hd
      rcases List.mem_cons.1 hd with rfl | hd
      · exact isRest_of_isStart hstart
      · exact hrest d hd

theorem trimEnd_of_isValid {name : List Char} (hname : isValid name = true) :
    Text.trimEnd name = name := by
  rw [Text.trimEnd, Text.dropEndWhile_eq_rdropWhile, List.rdropWhile_eq_self_iff]
  intro hne
  rw [isBlank_eq_false_of_isRest (isRest_of_isValid hname _ (List.getLast_mem hne))]
  exact Bool.false_ne_true

theorem trim_of_isValid {name : List Char} (hname : isValid name = true) : Text.trim name = name :=
  Text.trim_eq_self fun c hc => isBlank_eq_false_of_isRest (isRest_of_isValid hname c hc)

theorem brace_notMem_of_isValid {name : List Char} (hname : isValid name = true) : '}' ∉ name :=
  fun hbrace => absurd (isRest_of_isValid hname _ hbrace) (by decide)

theorem apostrophe_notMem_of_isValid {name : List Char} (hname : isValid name = true) :
    '\'' ∉ name :=
  fun hapostrophe => absurd (isRest_of_isValid hname _ hapostrophe) (by decide)

end Phrasebook.Name
