import Phrasebook.Name
import Phrasebook.Proofs.Text.Splitting

/-!
# Texts without line feeds

Lines, names and written numbers hold no line feed.
-/

namespace Phrasebook

namespace Text

theorem dropReturn_suffix (line : List Char) : dropReturn line <:+ line := by
  unfold dropReturn
  split
  · exact List.suffix_cons _ _
  · exact List.suffix_rfl

theorem withoutReturn_prefix (line : List Char) : withoutReturn line <+: line := by
  have hstarts := List.reverse_prefix.2 (dropReturn_suffix line.reverse)
  rwa [List.reverse_reverse] at hstarts

theorem unbroken_of_mem_linesFrom {front text : List Char} {done : List (List Char)}
    (hfront : '\n' ∉ front) (hdone : ∀ line ∈ done, '\n' ∉ line) :
    ∀ line ∈ linesFrom front done text, '\n' ∉ line := by
  fun_induction linesFrom front done text with
  | case1 front done hempty => simpa using hdone
  | case2 front done hempty =>
      have hall : ∀ line ∈ front.reverse :: done, '\n' ∉ line :=
        List.forall_mem_cons.2 ⟨fun hmem => hfront (List.mem_reverse.1 hmem), hdone⟩
      exact fun line hline => hall line (List.mem_reverse.1 hline)
  | case3 front done text ih =>
      refine ih List.not_mem_nil (List.forall_mem_cons.2 ⟨?_, hdone⟩)
      exact fun hmem => hfront ((dropReturn_suffix front).subset (List.mem_reverse.1 hmem))
  | case4 front done c text hc ih =>
      exact ih (List.not_mem_cons_of_ne_of_not_mem (Ne.symm hc) hfront) hdone

theorem unbroken_of_mem_lines {text : List Char} : ∀ line ∈ lines text, '\n' ∉ line :=
  unbroken_of_mem_linesFrom List.not_mem_nil (by simp)

theorem mem_or_infix_of_mem_linesFrom {front text line : List Char} {done : List (List Char)}
    (hline : line ∈ linesFrom front done text) : line ∈ done ∨ line <:+: front.reverse ++ text := by
  fun_induction linesFrom front done text with
  | case1 front done hempty => exact .inl (List.mem_reverse.1 hline)
  | case2 front done hempty =>
      rcases List.mem_cons.1 (List.mem_reverse.1 hline) with rfl | hline
      · exact .inr (List.prefix_append _ []).isInfix
      · exact .inl hline
  | case3 front done text ih =>
      rcases ih hline with hline | hwithin
      · rcases List.mem_cons.1 hline with rfl | hline
        · have hstarts := List.reverse_prefix.2 (dropReturn_suffix front)
          exact .inr (hstarts.trans (List.prefix_append _ _)).isInfix
        · exact .inl hline
      · refine .inr (hwithin.trans ?_)
        exact ((List.suffix_cons '\n' text).trans (List.suffix_append _ _)).isInfix
  | case4 front done c text hc ih => simpa using ih hline

theorem infix_of_mem_lines {text line : List Char} (hline : line ∈ lines text) :
    line <:+: text :=
  (mem_or_infix_of_mem_linesFrom hline).resolve_left List.not_mem_nil

theorem unbroken_toDigits (n : Nat) : '\n' ∉ Nat.toDigits 10 n := by
  intro hmem
  have hdigit := Nat.isDigit_of_mem_toDigits (by decide) (by decide) hmem
  exact absurd hdigit (by decide)

end Text

theorem Name.unbroken_of_isValid {name : List Char} (hvalid : isValid name = true) :
    '\n' ∉ name := by
  cases name with
  | nil => cases hvalid
  | cons c name =>
      obtain ⟨hstart, hrest⟩ := Bool.and_eq_true_iff.1 hvalid
      have hall := List.all_eq_true.1 hrest
      intro hmem
      rcases List.mem_cons.1 hmem with rfl | hmem
      · exact absurd hstart (by decide)
      · exact absurd (hall _ hmem) (by decide)

end Phrasebook
