import Mathlib.Data.List.Chain
import Phrasebook.Template.Reader

/-!
# Templates in normal form

A template that is read from a text has no segment that could be left out, joined to the next or
read in another way: its literals are not empty, no two of them are neighbours, and no brace of
theirs opens a placeholder. The tokens of the text say why, since a brace is read as a character
only where no other brace follows it.
-/

namespace Phrasebook

/-! ## Normal form -/

/-- A literal that is not empty and opens no placeholder, or a placeholder with a name. -/
def Segment.IsNormal : Segment → Prop
  | .literal text => text ≠ "" ∧ ¬['{', '{'] <:+: text.toList
  | .placeholder name => Name.isValid name.toList = true

/-- What may stand next to each other: two literals would be one, and a brace at the end of a
literal would be taken for the first of a placeholder. -/
def Segment.MayPrecede : Segment → Segment → Prop
  | .literal _, .literal _ => False
  | .literal text, .placeholder _ => text.toList.getLast? ≠ some '{'
  | .placeholder _, _ => True

instance : DecidablePred Segment.IsNormal
  | .literal text => inferInstanceAs (Decidable (text ≠ "" ∧ ¬['{', '{'] <:+: text.toList))
  | .placeholder name => inferInstanceAs (Decidable (Name.isValid name.toList = true))

instance : DecidableRel Segment.MayPrecede
  | .literal _, .literal _ => inferInstanceAs (Decidable False)
  | .literal text, .placeholder _ =>
      inferInstanceAs (Decidable (text.toList.getLast? ≠ some '{'))
  | .placeholder _, _ => inferInstanceAs (Decidable True)

namespace Template

structure IsNormal (template : Template) : Prop where
  segments : ∀ segment ∈ template, segment.IsNormal
  neighbours : template.IsChain Segment.MayPrecede

instance : DecidablePred IsNormal := fun template =>
  decidable_of_iff
    ((∀ segment ∈ template, segment.IsNormal) ∧ template.IsChain Segment.MayPrecede)
    ⟨fun h => ⟨h.1, h.2⟩, fun h => ⟨h.segments, h.neighbours⟩⟩

theorem isNormal_nil : IsNormal [] := ⟨by simp, .nil⟩

theorem isNormal_cons_iff {segment : Segment} {template : Template} :
    IsNormal (segment :: template) ↔
      segment.IsNormal ∧ (∀ next ∈ template.head?, segment.MayPrecede next) ∧
        IsNormal template := by
  constructor
  · rintro ⟨hsegments, hneighbours⟩
    obtain ⟨hsegment, hrest⟩ := List.forall_mem_cons.1 hsegments
    obtain ⟨hnext, hchain⟩ := List.isChain_cons.1 hneighbours
    exact ⟨hsegment, hnext, hrest, hchain⟩
  · rintro ⟨hsegment, hnext, hrest, hchain⟩
    exact ⟨List.forall_mem_cons.2 ⟨hsegment, hrest⟩, List.isChain_cons.2 ⟨hnext, hchain⟩⟩

/-! ## Tokens of a text -/

/-- A text and its tokens: two braces open a placeholder wherever they are met, and it goes on to
the first two that close one. -/
inductive Tokenizes : List Char → List Token → Prop
  | nil : Tokenizes [] []
  | char {c : Char} {cs : List Char} {tokens : List Token} :
      (c = '{' → cs.head? ≠ some '{') → Tokenizes cs tokens →
      Tokenizes (c :: cs) (.char c :: tokens)
  | name {content cs inner : List Char} {name : String} {tokens : List Token} :
      splitClosing [] inner = some (content, cs) → readName content = .ok name →
      Tokenizes cs tokens → Tokenizes ('{' :: '{' :: inner) (.name name :: tokens)

theorem tokenizes_of_tokensFrom {offset : Nat} {done tokens : List Token} {cs : List Char}
    (hread : tokensFrom offset done cs = .ok tokens) :
    ∃ more, tokens = done.reverse ++ more ∧ Tokenizes cs more := by
  fun_induction tokensFrom offset done cs with
  | case1 offset done =>
      cases hread
      exact ⟨[], (List.append_nil _).symm, .nil⟩
  | case2 => cases hread
  | case3 => cases hread
  | case4 offset done inner content rest hsplit _ name hname ih =>
      obtain ⟨more, rfl, hmore⟩ := ih hread
      exact ⟨.name name :: more, by simp, .name hsplit hname hmore⟩
  | case5 offset done c rest hopen ih =>
      obtain ⟨more, rfl, hmore⟩ := ih hread
      refine ⟨.char c :: more, by simp, .char ?_ hmore⟩
      rintro rfl hhead
      obtain ⟨inner, rfl⟩ : ∃ inner, rest = '{' :: inner := List.head?_eq_some_iff.1 hhead
      exact hopen inner rfl rfl

theorem tokensFrom_char {c : Char} {cs : List Char} (hopen : c = '{' → cs.head? ≠ some '{')
    (offset : Nat) (done : List Token) :
    tokensFrom offset done (c :: cs) = tokensFrom (offset + 1) (.char c :: done) cs := by
  rw [tokensFrom]
  rintro inner rfl rfl
  exact hopen rfl rfl

theorem tokensFrom_placeholder (offset : Nat) (done : List Token) (inner : List Char) :
    tokensFrom offset done ('{' :: '{' :: inner) =
      match splitClosing [] inner with
      | none => .error ⟨offset, .unterminated⟩
      | some (content, rest) =>
        match readName content with
        | .error fault => .error ⟨offset, fault⟩
        | .ok name => tokensFrom (offset + content.length + 4) (.name name :: done) rest := by
  rw [tokensFrom]
  split
  · next hnone => rw [hnone]
  · next content rest hsome => cases hname : readName content <;> simp only [hsome, hname]

/-- The tokens of a text are read whatever was read before it. -/
theorem tokensFrom_of_tokenizes {cs : List Char} {tokens : List Token}
    (htokens : Tokenizes cs tokens) (offset : Nat) (done : List Token) :
    tokensFrom offset done cs = .ok (done.reverse ++ tokens) := by
  induction htokens generalizing offset done with
  | nil => simp [tokensFrom]
  | @char c cs tokens hopen _ ih =>
      rw [tokensFrom_char hopen, ih]
      simp
  | @name content cs inner name tokens hsplit hname _ ih =>
      rw [tokensFrom_placeholder, hsplit]
      simp [hname, ih]

theorem parse_eq_ok_iff_tokenizes {text : List Char} {template : Template} :
    parse text = .ok template ↔
      ∃ tokens, Tokenizes text tokens ∧ ofTokens [] tokens = template := by
  constructor
  · intro hparse
    unfold parse at hparse
    split at hparse
    · cases hparse
    · next tokens hread =>
      obtain ⟨more, hmore, htokens⟩ := tokenizes_of_tokensFrom hread
      cases hparse
      exact ⟨more, htokens, congrArg _ hmore.symm⟩
  · rintro ⟨tokens, htokens, rfl⟩
    simp [parse, tokensFrom_of_tokenizes htokens]

theorem readName_eq_ok_iff {content : List Char} {name : String} :
    readName content = .ok name ↔
      Text.trim content = name.toList ∧ Name.isValid name.toList = true := by
  constructor
  · intro hread
    unfold readName at hread
    dsimp only at hread
    split at hread
    · next hvalid =>
      cases hread
      rw [String.toList_ofList]
      exact ⟨rfl, hvalid⟩
    · split at hread <;> cases hread
  · rintro ⟨htrim, hvalid⟩
    simp [readName, htrim, hvalid]

def Token.MayPrecede (token next : Token) : Prop :=
  token = .char '{' → ∃ c, next = .char c ∧ c ≠ '{'

namespace Tokenizes

variable {cs : List Char} {tokens : List Token}

theorem isValid (htokens : Tokenizes cs tokens) :
    ∀ name, .name name ∈ tokens → Name.isValid name.toList = true := by
  induction htokens with
  | nil => simp
  | char _ _ ih => simpa using ih
  | name _ hname _ ih => simpa using ⟨(readName_eq_ok_iff.1 hname).2, ih⟩

theorem char_of_head?_ne (htokens : Tokenizes cs tokens) (hhead : cs.head? ≠ some '{') :
    ∀ next ∈ tokens.head?, ∃ c, next = .char c ∧ c ≠ '{' := by
  cases htokens with
  | nil => simp
  | @char c cs => simpa using hhead
  | name => simp at hhead

theorem isChain (htokens : Tokenizes cs tokens) : tokens.IsChain Token.MayPrecede := by
  induction htokens with
  | nil => exact .nil
  | char hopen hrest ih =>
      refine List.isChain_cons.2 ⟨fun next hnext hbrace => ?_, ih⟩
      exact hrest.char_of_head?_ne (hopen (Token.char.inj hbrace)) next hnext
  | name _ _ _ ih => exact List.isChain_cons.2 ⟨fun _ _ => nofun, ih⟩

end Tokenizes

/-! ## Segments of tokens -/

/-- A run of characters within tokens makes a literal. -/
theorem isNormal_literal {run : List Char} (hrun : run ≠ [])
    (hchain : (run.map Token.char).IsChain Token.MayPrecede) :
    (Segment.literal (String.ofList run)).IsNormal := by
  refine ⟨fun hempty => hrun ?_, fun hopens => ?_⟩
  · simpa using congrArg String.toList hempty
  · rw [String.toList_ofList] at hopens
    have hopened := List.IsChain.infix hchain (hopens.map Token.char)
    obtain ⟨hbraces, -⟩ := List.isChain_cons.1 hopened
    obtain ⟨c, hc, hne⟩ := hbraces (.char '{') rfl rfl
    exact hne (Token.char.inj hc).symm

/-- The segments of tokens are in normal form, as the characters before them are pending. -/
theorem isNormal_ofTokens {pending : List Char} {tokens : List Token}
    (hchain : (pending.reverse.map Token.char ++ tokens).IsChain Token.MayPrecede)
    (hvalid : ∀ name, .name name ∈ tokens → Name.isValid name.toList = true) :
    IsNormal (ofTokens pending tokens) := by
  induction tokens generalizing pending with
  | nil =>
      rw [ofTokens, flush]
      rw [List.append_nil] at hchain
      split
      · exact isNormal_nil
      · next hpending =>
        have hrun : pending.reverse ≠ [] := by simpa using hpending
        exact isNormal_cons_iff.2 ⟨isNormal_literal hrun hchain, by simp, isNormal_nil⟩
  | cons token tokens ih =>
      have hrest : ∀ name, .name name ∈ tokens → Name.isValid name.toList = true :=
        fun name hmem => hvalid name (List.mem_cons_of_mem _ hmem)
      cases token with
      | char c => exact ih (by simpa using hchain) hrest
      | name name =>
          obtain ⟨hpending, htokens, hseam⟩ := List.isChain_append.1 hchain
          have hplaceholder : IsNormal (.placeholder name :: ofTokens [] tokens) :=
            isNormal_cons_iff.2 ⟨hvalid name List.mem_cons_self, fun _ _ => trivial,
              ih (List.isChain_cons.1 htokens).2 hrest⟩
          rw [ofTokens, flush]
          split
          · exact hplaceholder
          · next hsome =>
            have hrun : pending.reverse ≠ [] := by simpa using hsome
            refine isNormal_cons_iff.2 ⟨isNormal_literal hrun hpending, ?_, hplaceholder⟩
            intro next hnext
            cases hnext
            show (String.ofList pending.reverse).toList.getLast? ≠ some '{'
            intro hbrace
            rw [String.toList_ofList] at hbrace
            have hlast : .char '{' ∈ (pending.reverse.map Token.char).getLast? := by
              rw [List.getLast?_map, hbrace]
              rfl
            obtain ⟨c, hc, -⟩ := hseam _ hlast (.name name) rfl rfl
            cases hc

/-- What a text is read into is in normal form. -/
theorem isNormal_of_parse {text : List Char} {template : Template}
    (hparse : parse text = .ok template) : template.IsNormal := by
  obtain ⟨tokens, htokens, rfl⟩ := parse_eq_ok_iff_tokenizes.1 hparse
  exact isNormal_ofTokens htokens.isChain htokens.isValid

end Template

end Phrasebook
