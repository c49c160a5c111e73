import Mathlib.Data.List.Infix
import Phrasebook.Template.Reader

/-!
# Where placeholders close

A placeholder holds what stands before the first two closing braces that follow it, and it is not
closed when no two such braces follow. More text after it changes nothing once it is closed.
-/

namespace Phrasebook.Template

theorem braces_infix_cons_iff {c : Char} {cs : List Char} :
    ['}', '}'] <:+: c :: cs ↔ c = '}' ∧ cs.head? = some '}' ∨ ['}', '}'] <:+: cs := by
  rw [List.infix_cons_iff, List.cons_prefix_cons, List.singleton_prefix_iff_head?_eq_some]
  simp [eq_comm]

/-- A content without closing braces goes on to the first two that follow it. -/
theorem not_braces_infix_of_notMem {content : List Char} (hcontent : '}' ∉ content) :
    ¬['}', '}'] <:+: content ++ ['}'] := by
  intro hbraces
  have htwo := hbraces.sublist.count_le '}'
  simp [List.count_eq_zero.2 hcontent] at htwo

theorem splitClosing_of_not_infix {content : List Char}
    (hcontent : ¬['}', '}'] <:+: content ++ ['}']) (seen rest : List Char) :
    splitClosing seen (content ++ '}' :: '}' :: rest) = some (seen.reverse ++ content, rest) := by
  induction content generalizing seen with
  | nil => simp [splitClosing]
  | cons c content ih =>
      rw [List.cons_append, braces_infix_cons_iff, not_or] at hcontent
      obtain ⟨hfirst, hrest⟩ := hcontent
      rw [List.cons_append, splitClosing, ih hrest]
      · simp
      · rintro tail rfl htail
        refine hfirst ⟨rfl, ?_⟩
        cases content with
        | nil => rfl
        | cons d content =>
            cases htail
            rfl

theorem exists_of_splitClosing {seen inner content rest : List Char}
    (hsplit : splitClosing seen inner = some (content, rest)) :
    ∃ passed, content = seen.reverse ++ passed ∧ inner = passed ++ '}' :: '}' :: rest ∧
      ¬['}', '}'] <:+: passed ++ ['}'] := by
  fun_induction splitClosing seen inner with
  | case1 => cases hsplit
  | case2 seen rest =>
      cases hsplit
      exact ⟨[], (List.append_nil _).symm, rfl, by decide⟩
  | case3 seen c inner hopen ih =>
      obtain ⟨passed, rfl, rfl, hpassed⟩ := ih hsplit
      refine ⟨c :: passed, by simp, rfl, ?_⟩
      rw [List.cons_append, braces_infix_cons_iff, not_or]
      refine ⟨?_, hpassed⟩
      rintro ⟨rfl, hhead⟩
      cases passed with
      | nil => exact hopen _ rfl rfl
      | cons d passed =>
          cases hhead
          exact hopen _ rfl rfl

/-- A placeholder is closed by the first two closing braces after it. -/
theorem splitClosing_eq_some_iff {inner content rest : List Char} :
    splitClosing [] inner = some (content, rest) ↔
      inner = content ++ '}' :: '}' :: rest ∧ ¬['}', '}'] <:+: content ++ ['}'] := by
  constructor
  · intro hsplit
    obtain ⟨passed, rfl, hinner, hpassed⟩ := exists_of_splitClosing hsplit
    exact ⟨hinner, hpassed⟩
  · rintro ⟨rfl, hcontent⟩
    exact splitClosing_of_not_infix hcontent [] rest

/-- A placeholder is not closed when there are no two closing braces after it. -/
theorem splitClosing_eq_none_iff {seen inner : List Char} :
    splitClosing seen inner = none ↔ ¬['}', '}'] <:+: inner := by
  fun_induction splitClosing seen inner with
  | case1 => simp
  | case2 seen rest => simp [braces_infix_cons_iff]
  | case3 seen c inner hopen ih =>
      rw [ih, braces_infix_cons_iff, not_or]
      refine (and_iff_right ?_).symm
      rintro ⟨rfl, hhead⟩
      obtain ⟨rest, rfl⟩ := List.head?_eq_some_iff.1 hhead
      exact hopen rest rfl rfl

theorem splitClosing_append {inner content rest : List Char}
    (hsplit : splitClosing [] inner = some (content, rest)) (more : List Char) :
    splitClosing [] (inner ++ more) = some (content, rest ++ more) := by
  obtain ⟨rfl, hcontent⟩ := splitClosing_eq_some_iff.1 hsplit
  exact splitClosing_eq_some_iff.2 ⟨by simp, hcontent⟩

end Phrasebook.Template
