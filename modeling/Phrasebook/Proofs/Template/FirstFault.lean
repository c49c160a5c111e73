import Phrasebook.Proofs.Template.Closing
import Phrasebook.Proofs.Template.Normal

/-!
# The first fault of a template

Reading a text from the left passes over characters and over placeholders, each up to the first
two braces that close it. The text cannot be read exactly when a placeholder is come to in this
way that is not closed or holds no name, and the error tells the first of these. What stands
before it can be read, and when it is closed, what follows it does not matter.
-/

namespace Phrasebook.Template

/-! ## Places and faults -/

/-- Reading `before` and then `rest` comes to the place between them: past each character that
opens no placeholder, and past each placeholder with all that it holds. -/
inductive Reaches : List Char → List Char → Prop
  | start (rest : List Char) : Reaches [] rest
  | char {c : Char} {before rest : List Char} :
      (c = '{' → (before ++ rest).head? ≠ some '{') → Reaches before rest →
      Reaches (c :: before) rest
  | placeholder {content before rest : List Char} :
      ¬['}', '}'] <:+: content ++ ['}'] → Reaches before rest →
      Reaches ('{' :: '{' :: (content ++ '}' :: '}' :: before)) rest

/-- The fault of the placeholder that a text starts with: no braces close it, or what stands
before the first that do, trimmed, is no name. -/
inductive StartsWithFault : List Char → Fault → Prop
  | unterminated {inner : List Char} :
      ¬['}', '}'] <:+: inner → StartsWithFault ('{' :: '{' :: inner) .unterminated
  | emptyName {content rest : List Char} :
      ¬['}', '}'] <:+: content ++ ['}'] → Text.trim content = [] →
      StartsWithFault ('{' :: '{' :: (content ++ '}' :: '}' :: rest)) .emptyName
  | invalidName {content rest : List Char} :
      ¬['}', '}'] <:+: content ++ ['}'] → Text.trim content ≠ [] →
      Name.isValid (Text.trim content) = false →
      StartsWithFault ('{' :: '{' :: (content ++ '}' :: '}' :: rest))
        (.invalidName (String.ofList (Text.trim content)))

def HasFaultAt (text : List Char) (offset : Nat) (fault : Fault) : Prop :=
  ∃ before rest, text = before ++ rest ∧ before.length = offset ∧ Reaches before rest ∧
    StartsWithFault rest fault

/-! ## Faults of names -/

theorem readName_of_eq_nil {content : List Char} (hempty : Text.trim content = []) :
    readName content = .error .emptyName := by
  simp [readName, hempty, Name.isValid]

theorem readName_of_not_isValid {content : List Char} (hsome : Text.trim content ≠ [])
    (hinvalid : Name.isValid (Text.trim content) = false) :
    readName content = .error (.invalidName (String.ofList (Text.trim content))) := by
  simp [readName, hinvalid, hsome]

theorem startsWithFault_of_readName {content rest : List Char} {fault : Fault}
    (hcontent : ¬['}', '}'] <:+: content ++ ['}']) (hname : readName content = .error fault) :
    StartsWithFault ('{' :: '{' :: (content ++ '}' :: '}' :: rest)) fault := by
  unfold readName at hname
  dsimp only at hname
  split at hname
  · cases hname
  · next hinvalid =>
    split at hname
    · next hempty =>
      cases hname
      exact .emptyName hcontent (List.isEmpty_iff.1 hempty)
    · next hsome =>
      cases hname
      refine .invalidName hcontent ?_ (Bool.eq_false_iff.2 hinvalid)
      exact fun hempty => hsome (List.isEmpty_iff.2 hempty)

/-! ## Reading up to a fault -/

theorem tokensFrom_of_startsWithFault {text : List Char} {fault : Fault}
    (hfault : StartsWithFault text fault) (offset : Nat) (done : List Token) :
    tokensFrom offset done text = .error ⟨offset, fault⟩ := by
  cases hfault with
  | unterminated hopen => rw [tokensFrom_placeholder, splitClosing_eq_none_iff.2 hopen]
  | emptyName hcontent hempty =>
      rw [tokensFrom_placeholder, splitClosing_eq_some_iff.2 ⟨rfl, hcontent⟩]
      simp only [readName_of_eq_nil hempty]
  | invalidName hcontent hsome hinvalid =>
      rw [tokensFrom_placeholder, splitClosing_eq_some_iff.2 ⟨rfl, hcontent⟩]
      simp only [readName_of_not_isValid hsome hinvalid]

/-- A fault is found where reading comes to one, if not before. -/
theorem exists_tokensFrom_eq_error {before rest : List Char} {fault : Fault}
    (hreaches : Reaches before rest) (hfault : StartsWithFault rest fault) (offset : Nat)
    (done : List Token) :
    ∃ error, tokensFrom offset done (before ++ rest) = .error error ∧
      error.offset ≤ offset + before.length := by
  induction hreaches generalizing offset done with
  | start rest => exact ⟨_, tokensFrom_of_startsWithFault hfault offset done, Nat.le_refl _⟩
  | @char c before rest hopen _ ih =>
      obtain ⟨error, herror, hoffset⟩ := ih hfault (offset + 1) (.char c :: done)
      refine ⟨error, ?_, by rw [List.length_cons]; omega⟩
      rw [List.cons_append, tokensFrom_char hopen, herror]
  | @placeholder content before rest hcontent _ ih =>
      have hwhole : '{' :: '{' :: (content ++ '}' :: '}' :: before) ++ rest =
          '{' :: '{' :: (content ++ '}' :: '}' :: (before ++ rest)) := by
        simp
      rw [hwhole]
      -- a placeholder that is passed over may be at fault itself, and is then found first
      cases hname : readName content with
      | error fault =>
          have hhere : StartsWithFault
              ('{' :: '{' :: (content ++ '}' :: '}' :: (before ++ rest))) fault :=
            startsWithFault_of_readName hcontent hname
          exact ⟨_, tokensFrom_of_startsWithFault hhere offset done, Nat.le_add_right _ _⟩
      | ok name =>
          obtain ⟨error, herror, hoffset⟩ :=
            ih hfault (offset + content.length + 4) (.name name :: done)
          refine ⟨error, ?_, ?_⟩
          · rw [tokensFrom_placeholder, splitClosing_eq_some_iff.2 ⟨rfl, hcontent⟩]
            simp only [hname, herror]
          · simp only [List.length_cons, List.length_append]
            omega

/-- An error tells a fault that reading comes to, and what stands before it has tokens. -/
theorem exists_reaches_of_tokensFrom {offset : Nat} {done : List Token} {text : List Char}
    {error : Error} (hread : tokensFrom offset done text = .error error) :
    ∃ before rest, text = before ++ rest ∧ error.offset = offset + before.length ∧
      Reaches before rest ∧ StartsWithFault rest error.fault ∧
      ∃ tokens, Tokenizes before tokens := by
  fun_induction tokensFrom offset done text with
  | case1 => cases hread
  | case2 offset done inner hsplit =>
      cases hread
      exact ⟨[], _, rfl, rfl, .start _, .unterminated (splitClosing_eq_none_iff.1 hsplit), [], .nil⟩
  | case3 offset done inner content rest hsplit _ fault hname =>
      cases hread
      obtain ⟨rfl, hcontent⟩ := splitClosing_eq_some_iff.1 hsplit
      exact ⟨[], _, rfl, rfl, .start _, startsWithFault_of_readName hcontent hname, [], .nil⟩
  | case4 offset done inner content rest hsplit _ name hname ih =>
      obtain ⟨before, rest, rfl, hoffset, hreaches, hfault, tokens, htokens⟩ := ih hread
      obtain ⟨rfl, hcontent⟩ := splitClosing_eq_some_iff.1 hsplit
      refine ⟨'{' :: '{' :: (content ++ '}' :: '}' :: before), rest, by simp, ?_,
        .placeholder hcontent hreaches, hfault, .name name :: tokens,
        .name (splitClosing_eq_some_iff.2 ⟨rfl, hcontent⟩) hname htokens⟩
      simp only [List.length_cons, List.length_append]
      omega
  | case5 offset done c text hopen ih =>
      obtain ⟨before, rest, rfl, hoffset, hreaches, hfault, tokens, htokens⟩ := ih hread
      -- what opens nothing in the whole text opens nothing in the part before the fault
      have hnext : c = '{' → (before ++ rest).head? ≠ some '{' := by
        rintro rfl hhead
        obtain ⟨inner, hinner⟩ := List.head?_eq_some_iff.1 hhead
        exact hopen inner rfl hinner
      refine ⟨c :: before, rest, rfl, ?_, .char hnext hreaches, hfault, .char c :: tokens,
        .char (fun hc hhead => hnext hc ?_) htokens⟩
      · rw [List.length_cons]
        omega
      · rw [List.head?_append, hhead, Option.some_or]

/-- A fault of a placeholder that is closed stays what it is when more text follows. -/
theorem tokensFrom_append_of_error {offset : Nat} {done : List Token} {text : List Char}
    {error : Error} (hread : tokensFrom offset done text = .error error)
    (hclosed : error.fault ≠ .unterminated) (more : List Char) :
    tokensFrom offset done (text ++ more) = .error error := by
  fun_induction tokensFrom offset done text with
  | case1 => cases hread
  | case2 =>
      cases hread
      exact absurd rfl hclosed
  | case3 offset done inner content rest hsplit _ fault hname =>
      rw [List.cons_append, List.cons_append, tokensFrom_placeholder,
        splitClosing_append hsplit more]
      simpa only [hname] using hread
  | case4 offset done inner content rest hsplit _ name hname ih =>
      rw [List.cons_append, List.cons_append, tokensFrom_placeholder,
        splitClosing_append hsplit more]
      simpa only [hname] using ih hread
  | case5 offset done c text hopen ih =>
      rw [List.cons_append, tokensFrom_char, ih hread]
      rintro rfl hhead
      -- nothing is left to be at fault when the text ends here
      cases text with
      | nil => simp [tokensFrom] at hread
      | cons d text =>
          cases hhead
          exact hopen text rfl rfl

/-! ## Whole texts -/

theorem parse_eq_error_iff_tokensFrom {text : List Char} {error : Error} :
    parse text = .error error ↔ tokensFrom 0 [] text = .error error := by
  unfold parse
  split
  · next hread => rw [hread, Except.error.injEq, Except.error.injEq]
  · next hread => simp [hread]

theorem hasFaultAt_of_parse {text : List Char} {error : Error}
    (hparse : parse text = .error error) : HasFaultAt text error.offset error.fault := by
  obtain ⟨before, rest, htext, hoffset, hreaches, hfault, -⟩ :=
    exists_reaches_of_tokensFrom (parse_eq_error_iff_tokensFrom.1 hparse)
  exact ⟨before, rest, htext, by rw [hoffset, Nat.zero_add], hreaches, hfault⟩

theorem HasFaultAt.exists_parse {text : List Char} {offset : Nat} {fault : Fault}
    (hfault : HasFaultAt text offset fault) :
    ∃ error, parse text = .error error ∧ error.offset ≤ offset := by
  obtain ⟨before, rest, rfl, rfl, hreaches, hrest⟩ := hfault
  obtain ⟨error, herror, hoffset⟩ := exists_tokensFrom_eq_error hreaches hrest 0 []
  exact ⟨error, parse_eq_error_iff_tokensFrom.2 herror, hoffset.trans (Nat.zero_add _).le⟩

/-- There is one fault at a place at most. -/
theorem HasFaultAt.fault_eq {text : List Char} {offset : Nat} {fault other : Fault}
    (hfault : HasFaultAt text offset fault) (hother : HasFaultAt text offset other) :
    fault = other := by
  obtain ⟨before, rest, rfl, rfl, -, hrest⟩ := hfault
  obtain ⟨before', rest', heq, hlength, -, hrest'⟩ := hother
  obtain ⟨-, rfl⟩ := List.append_inj heq hlength.symm
  have hread := tokensFrom_of_startsWithFault hrest 0 []
  rw [tokensFrom_of_startsWithFault hrest' 0 []] at hread
  cases hread
  rfl

theorem parse_eq_error_iff_hasFaultAt {text : List Char} {error : Error} :
    parse text = .error error ↔ HasFaultAt text error.offset error.fault ∧
      ∀ offset fault, HasFaultAt text offset fault → error.offset ≤ offset := by
  constructor
  · intro hparse
    refine ⟨hasFaultAt_of_parse hparse, fun offset fault hfault => ?_⟩
    obtain ⟨first, hfirst, hoffset⟩ := hfault.exists_parse
    rw [hparse] at hfirst
    cases hfirst
    exact hoffset
  · rintro ⟨hfault, hleast⟩
    obtain ⟨first, hfirst, hoffset⟩ := hfault.exists_parse
    have hfirstFault := hasFaultAt_of_parse hfirst
    have heq : error.offset = first.offset :=
      Nat.le_antisymm (hleast _ _ hfirstFault) hoffset
    rw [heq] at hfault
    have herror : error = first := by
      cases error
      cases first
      cases heq
      cases hfault.fault_eq hfirstFault
      rfl
    rw [herror, hfirst]

theorem exists_parse_take {text : List Char} {error : Error} (hparse : parse text = .error error) :
    ∃ template, parse (text.take error.offset) = .ok template := by
  obtain ⟨before, rest, rfl, hoffset, -, -, tokens, htokens⟩ :=
    exists_reaches_of_tokensFrom (parse_eq_error_iff_tokensFrom.1 hparse)
  rw [hoffset, Nat.zero_add, List.take_left]
  exact ⟨_, parse_eq_ok_iff_tokenizes.2 ⟨tokens, htokens, rfl⟩⟩

/-- A text cannot be read exactly when reading it comes to a placeholder at fault, and the error
is the fault of the first one and the number of characters before it. The text before it can be
read. When its name is at fault, the error stays the same whatever is put after the text. -/
theorem parse_eq_error_iff_first (text : List Char) :
    ((∃ error, parse text = .error error) ↔ ∃ offset fault, HasFaultAt text offset fault) ∧
    (∀ error, parse text = .error error ↔ HasFaultAt text error.offset error.fault ∧
      ∀ offset fault, HasFaultAt text offset fault → error.offset ≤ offset) ∧
    ∀ error, parse text = .error error →
      (∃ template, parse (text.take error.offset) = .ok template) ∧
      (error.fault ≠ .unterminated → ∀ more, parse (text ++ more) = .error error) := by
  refine ⟨⟨?_, ?_⟩, fun error => parse_eq_error_iff_hasFaultAt, fun error hparse =>
    ⟨exists_parse_take hparse, fun hclosed more => ?_⟩⟩
  · rintro ⟨error, hparse⟩
    exact ⟨_, _, hasFaultAt_of_parse hparse⟩
  · rintro ⟨offset, fault, hfault⟩
    obtain ⟨error, hparse, -⟩ := hfault.exists_parse
    exact ⟨error, hparse⟩
  · have hread := parse_eq_error_iff_tokensFrom.1 hparse
    exact parse_eq_error_iff_tokensFrom.2 (tokensFrom_append_of_error hread hclosed more)

/-- The placeholder before is passed over, and the braces after it belong to the name at fault. -/
theorem parse_eq_error_braces :
    let text := "x\x7b\x7ba\x7d\x7d\x7b\x7b\x7b two words \x7d\x7d \x7b\x7b".toList
    let error : Error := ⟨6, .invalidName "\x7b two words"⟩
    parse text = .error error ∧ HasFaultAt text 6 (.invalidName "\x7b two words") ∧
      (∃ template, parse "x\x7b\x7ba\x7d\x7d".toList = .ok template) ∧
      ∀ more, parse (text ++ more) = .error error := by
  intro text error
  have hparse : parse text = .error error := by decide +kernel
  obtain ⟨-, hfirst, herror⟩ := parse_eq_error_iff_first text
  obtain ⟨hbefore, hmore⟩ := herror error hparse
  exact ⟨hparse, ((hfirst error).1 hparse).1, hbefore, hmore nofun⟩

end Phrasebook.Template
