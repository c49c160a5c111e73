import Phrasebook.Proofs.Source.Faults
import Phrasebook.Proofs.Text.Unbroken

/-!
# What messages quote

A message is made of fixed words, numbers, and texts that it quotes. So it holds a line feed only
where what it quotes does, and that comes from the row or the item at fault.
-/

namespace Phrasebook.Source

/-! ## Quoted texts -/

def IndentFault.quoted : IndentFault → List Char
  | .itemExpected category => category.toList
  | _ => []

def FormFault.quoted : FormFault → List Char
  | .invalidName name => name.toList
  | .weightOutOfRange token => token.toList
  | .unknownEscape c => [c]
  | _ => []

def SettingFault.quoted : SettingFault → List Char
  | .itemFound => []
  | .pairExpected found => found.toList
  | .repeated key => key.toList
  | .invalidDuration value => value.toList
  | .invalidAnimation value => value.toList
  | .unrecognized key => key.toList

def Cause.quoted : Cause → List Char
  | .indentation fault => fault.quoted
  | .form fault => fault.quoted
  | .duplicateCategory name _ => name.toList
  | .emptyCategory name => name.toList
  | .placeholder category _ fault => fault.quoted ++ category.toList
  | .setting fault => fault.quoted

/-! ## Messages -/

theorem IndentFault.newline_mem_message_iff {fault : IndentFault} :
    '\n' ∈ fault.message.toList ↔ '\n' ∈ fault.quoted := by
  unfold message quoted
  cases fault <;> simp [Text.unbroken_toDigits]

theorem FormFault.newline_mem_message_iff {fault : FormFault} :
    '\n' ∈ fault.message.toList ↔ '\n' ∈ fault.quoted := by
  unfold message quoted
  cases fault with
  | headingExpected hasColon => cases hasColon <;> simp
  | _ => simp

theorem SettingFault.newline_mem_message_iff {fault : SettingFault} :
    '\n' ∈ fault.message.toList ↔ '\n' ∈ fault.quoted := by
  unfold message quoted
  cases fault <;> simp

/-- A message holds a line feed exactly when what it quotes does. -/
theorem Error.newline_mem_message_iff {error : Error} :
    '\n' ∈ error.message.toList ↔ '\n' ∈ error.cause.quoted := by
  obtain ⟨line, cause⟩ := error
  unfold message Cause.quoted
  cases cause with
  | indentation fault => simp [Text.unbroken_toDigits, IndentFault.newline_mem_message_iff]
  | form fault => simp [Text.unbroken_toDigits, FormFault.newline_mem_message_iff]
  | duplicateCategory name first => simp [Text.unbroken_toDigits]
  | emptyCategory name => simp [Text.unbroken_toDigits]
  | placeholder category column fault =>
      cases column <;>
        simp [Text.unbroken_toDigits, Template.Fault.newline_mem_message_iff]
  | setting fault => simp [Text.unbroken_toDigits, SettingFault.newline_mem_message_iff]

/-! ## Where the quoted texts come from -/

theorem quoted_subset_of_splitWeight {text : List Char} {fault : FormFault}
    (hsplit : splitWeight text = .error fault) : fault.quoted ⊆ text := by
  unfold splitWeight at hsplit
  dsimp only at hsplit
  split at hsplit
  · cases hsplit
  · split at hsplit
    · cases hsplit
    · cases hsplit
      rw [FormFault.quoted, String.toList_ofList]
      exact (List.takeWhile_prefix _).subset

theorem quoted_subset_of_unescapeFrom {done cs : List Char} {fault : FormFault}
    (hread : unescapeFrom done cs = .error fault) : fault.quoted ⊆ cs := by
  fun_induction unescapeFrom done cs with
  | case1 => cases hread
  | case2 =>
      cases hread
      exact List.nil_subset _
  | case3 done cs ih | case4 done cs ih | case5 done cs ih | case6 done cs ih =>
      intro c hc
      exact List.mem_cons_of_mem _ (List.mem_cons_of_mem _ (ih hread hc))
  | case7 done c cs =>
      cases hread
      simp [FormFault.quoted]
  | case8 done c cs hnil hn ht hq hb hother ih =>
      exact List.subset_cons_of_subset c (ih hread)

theorem quoted_subset_of_unquote {text : List Char} {fault : FormFault}
    (hunquote : unquote text = .error fault) : fault.quoted ⊆ text := by
  unfold unquote at hunquote
  split at hunquote
  · split at hunquote
    · cases hunquote
      exact List.nil_subset _
    · next rest inner hinner =>
      split at hunquote
      · next hread =>
        cases hunquote
        rw [dropLast?_eq_some_iff.1 hinner]
        have hinner : fault.quoted ⊆ inner := quoted_subset_of_unescapeFrom hread
        exact List.subset_cons_of_subset _ (List.subset_append_of_subset_left _ hinner)
      · cases hunquote
  · split at hunquote
    · cases hunquote
      exact List.nil_subset _
    · cases hunquote
  · cases hunquote

theorem State.quoted_subset_of_headingKey {body : List Char} {fault : FormFault}
    (hkey : headingKey body = .error fault) : fault.quoted ⊆ body := by
  unfold headingKey at hkey
  split at hkey
  · next rest hreverse =>
    dsimp only at hkey
    split at hkey
    · cases hkey
    · cases hkey
      rw [FormFault.quoted, String.toList_ofList]
      intro c hc
      have hrest : c ∈ rest := List.mem_reverse.1 (Text.trimEnd_subset _ hc)
      exact List.mem_reverse.1 (hreverse ▸ List.mem_cons_of_mem _ hrest)
  · cases hkey
    exact List.nil_subset _

theorem subset_of_unquoteWith? {quote : Char} {value inner : List Char}
    (hunquote : unquoteWith? quote value = some inner) : inner ⊆ value := by
  unfold unquoteWith? at hunquote
  split at hunquote
  · cases hunquote
  · split at hunquote
    · cases hunquote
      exact List.subset_cons_of_subset _ (List.dropLast_subset _)
    · cases hunquote

theorem unquoteSetting_subset (value : List Char) : unquoteSetting value ⊆ value := by
  unfold unquoteSetting
  split
  · next hunquote => exact subset_of_unquoteWith? hunquote
  · cases hunquote : unquoteWith? '\'' value with
    | none => exact List.Subset.refl _
    | some inner => exact subset_of_unquoteWith? hunquote

theorem Settings.quoted_subset_of_read {given : Settings} {body : List Char}
    {fault : SettingFault} (hread : given.read body = .error fault) : fault.quoted ⊆ body := by
  unfold read at hread
  split at hread
  · cases hread
    rw [SettingFault.quoted, String.toList_ofList]
    exact List.Subset.refl _
  · next colon rest hrest =>
    have hkey : Text.trim (body.takeWhile (· != ':')) ⊆ body :=
      List.Subset.trans (Text.trim_subset _) (List.takeWhile_prefix _).subset
    have hvalue : unquoteSetting (Text.trim rest) ⊆ body := by
      have hafter : rest ⊆ body := fun c hc =>
        (List.dropWhile_sublist _).subset (hrest ▸ List.mem_cons_of_mem colon hc)
      have htrimmed := List.Subset.trans (Text.trim_subset rest) hafter
      exact List.Subset.trans (unquoteSetting_subset _) htrimmed
    dsimp only at hread
    split at hread
    · split at hread
      · cases hread
        simpa [SettingFault.quoted] using hkey
      · split at hread
        · cases hread
          simpa [SettingFault.quoted] using hvalue
        · cases hread
    · split at hread
      · split at hread
        · cases hread
          simpa [SettingFault.quoted] using hkey
        · split at hread
          · cases hread
            simpa [SettingFault.quoted] using hvalue
          · cases hread
      · cases hread
        simpa [SettingFault.quoted] using hkey

end Phrasebook.Source
