import Phrasebook.Proofs.Template.Closing
import Phrasebook.Proofs.Template.Normal
import Phrasebook.Proofs.Text.Names

/-!
# Templates as written

A template is written by its literals as they are and by its names between double braces, with
as many blank characters around a name as one likes. The texts that are read into a template in
normal form are the ways to write it, and no text is read into any other template: what is
printed is read back, and what is read is printed but for those blank characters.
-/

namespace Phrasebook

/-! ## Ways to write a template -/

/-- Blank characters may stand on either side of a placeholder's name, and nowhere else. -/
inductive Segment.WrittenAs : Segment → List Char → Prop
  | literal (text : String) : WrittenAs (.literal text) text.toList
  | placeholder {before after : List Char} (name : String) :
      Text.isBlankText before = true → Text.isBlankText after = true →
      WrittenAs (.placeholder name)
        ('{' :: '{' :: (before ++ (name.toList ++ after) ++ ['}', '}']))

theorem Segment.writtenAs_render (segment : Segment) : segment.WrittenAs segment.render := by
  cases segment with
  | literal text => exact .literal text
  | placeholder name => simpa [render] using @WrittenAs.placeholder [] [] name rfl rfl

namespace Template

inductive WrittenAs : Template → List Char → Prop
  | nil : WrittenAs [] []
  | cons {segment : Segment} {template : Template} {piece text : List Char} :
      segment.WrittenAs piece → WrittenAs template text →
      WrittenAs (segment :: template) (piece ++ text)

/-- Printing is the way to write a template without blank characters around its names. -/
theorem writtenAs_render (template : Template) : template.WrittenAs template.render := by
  induction template with
  | nil => exact .nil
  | cons segment template ih =>
      rw [render, List.flatMap_cons]
      exact .cons segment.writtenAs_render ih

/-! ## Placeholders -/

theorem brace_notMem_of_isBlankText {cs : List Char} (hcs : Text.isBlankText cs = true) :
    '}' ∉ cs :=
  fun hbrace => absurd (List.all_eq_true.1 hcs _ hbrace) (by decide)

theorem Tokenizes.placeholder {before after text : List Char} {name : String}
    {tokens : List Token} (hbefore : Text.isBlankText before = true)
    (hafter : Text.isBlankText after = true) (hvalid : Name.isValid name.toList = true)
    (htokens : Tokenizes text tokens) :
    Tokenizes ('{' :: '{' :: (before ++ (name.toList ++ after) ++ ['}', '}']) ++ text)
      (.name name :: tokens) := by
  have hcontent : '}' ∉ before ++ (name.toList ++ after) := by
    simp [brace_notMem_of_isBlankText hbefore, Name.brace_notMem_of_isValid hvalid,
      brace_notMem_of_isBlankText hafter]
  have hsplit := splitClosing_of_not_infix (not_braces_infix_of_notMem hcontent) [] text
  have hname : readName (before ++ (name.toList ++ after)) = .ok name :=
    readName_eq_ok_iff.2
      ⟨(Text.trim_append_append _ hbefore hafter).trans (Name.trim_of_isValid hvalid), hvalid⟩
  simpa using Tokenizes.name hsplit hname htokens

/-! ## What is read is what was written -/

theorem writtenAs_flush {pending text : List Char} {template : Template}
    (hwritten : template.WrittenAs text) :
    (flush pending template).WrittenAs (pending.reverse ++ text) := by
  unfold flush
  split
  · next hpending => rwa [List.isEmpty_iff.1 hpending]
  · have hliteral := Segment.WrittenAs.literal (String.ofList pending.reverse)
    rw [String.toList_ofList] at hliteral
    exact .cons hliteral hwritten

theorem writtenAs_of_tokenizes {text : List Char} {tokens : List Token}
    (htokens : Tokenizes text tokens) (pending : List Char) :
    (ofTokens pending tokens).WrittenAs (pending.reverse ++ text) := by
  induction htokens generalizing pending with
  | nil => exact writtenAs_flush .nil
  | @char c cs tokens _ _ ih => simpa [ofTokens] using ih (c :: pending)
  | @name content cs inner name tokens hsplit hname _ ih =>
      obtain ⟨htrim, -⟩ := readName_eq_ok_iff.1 hname
      obtain ⟨before, after, hbefore, hafter, hcontent⟩ :=
        Text.exists_eq_append_trim_append content
      rw [htrim] at hcontent
      obtain ⟨hinner, -⟩ := splitClosing_eq_some_iff.1 hsplit
      have hrest : WrittenAs (ofTokens [] tokens) cs := ih []
      have hplaceholder := WrittenAs.cons (.placeholder name hbefore hafter) hrest
      rw [← hcontent] at hplaceholder
      refine writtenAs_flush ?_
      simpa [hinner] using hplaceholder

/-! ## What is written is what is read -/

def tokens (template : Template) : List Token :=
  template.flatMap fun
    | .literal text => text.toList.map .char
    | .placeholder name => [.name name]

theorem ofTokens_append_char (run pending : List Char) (tokens : List Token) :
    ofTokens pending (run.map .char ++ tokens) = ofTokens (run.reverse ++ pending) tokens := by
  induction run generalizing pending with
  | nil => rfl
  | cons c run ih => simp [ofTokens, ih]

/-- What is pending is a literal of its own unless more characters follow. -/
theorem ofTokens_eq_flush (pending : List Char) {tokens : List Token}
    (hhead : ∀ c, tokens.head? ≠ some (.char c)) :
    ofTokens pending tokens = flush pending (ofTokens [] tokens) := by
  cases tokens with
  | nil => rfl
  | cons token tokens =>
      cases token with
      | char c => exact absurd rfl (hhead c)
      | name name => rfl

theorem flush_reverse {text : String} (htext : text ≠ "") (template : Template) :
    flush text.toList.reverse template = .literal text :: template := by
  simp [flush, htext]

theorem ofTokens_tokens {template : Template} (hnormal : template.IsNormal) :
    ofTokens [] template.tokens = template := by
  induction template with
  | nil => rfl
  | cons segment template ih =>
      obtain ⟨hsegment, hnext, hrest⟩ := isNormal_cons_iff.1 hnormal
      cases segment with
      | placeholder name => exact congrArg _ (ih hrest)
      | literal text =>
          -- two literals are no neighbours, so the run ends where this one does
          have hhead : ∀ c, (tokens template).head? ≠ some (Token.char c) := by
            cases template with
            | nil => simp [tokens]
            | cons next template =>
                cases next with
                | literal => exact (hnext _ rfl).elim
                | placeholder => simp [tokens]
          calc ofTokens [] (tokens (.literal text :: template))
              = ofTokens text.toList.reverse (tokens template) := by
                rw [tokens, List.flatMap_cons, ofTokens_append_char, List.append_nil]
                rfl
            _ = flush text.toList.reverse (ofTokens [] (tokens template)) :=
                ofTokens_eq_flush _ hhead
            _ = .literal text :: ofTokens [] (tokens template) := flush_reverse hsegment.1 _
            _ = .literal text :: template := by rw [ih hrest]

/-- A run of characters that opens no placeholder by itself or with what follows it. -/
theorem Tokenizes.append_run {run text : List Char} {tokens : List Token}
    (hopens : ¬['{', '{'] <:+: run) (hseam : run.getLast? = some '{' → text.head? ≠ some '{')
    (htokens : Tokenizes text tokens) : Tokenizes (run ++ text) (run.map .char ++ tokens) := by
  induction run with
  | nil => exact htokens
  | cons c run ih =>
      have hrest : ¬['{', '{'] <:+: run := fun hrun =>
        hopens (hrun.trans (List.suffix_cons c run).isInfix)
      cases run with
      | nil => exact .char (fun hbrace => hseam (congrArg some hbrace)) htokens
      | cons d run =>
          refine .char ?_ (ih hrest (by simpa using hseam))
          -- two braces would stand within the run
          rintro rfl hhead
          cases hhead
          exact hopens ⟨[], run, rfl⟩

theorem tokenizes_of_writtenAs {text : List Char} {template : Template}
    (hnormal : template.IsNormal) (hwritten : template.WrittenAs text) :
    Tokenizes text template.tokens := by
  induction hwritten with
  | nil => exact .nil
  | @cons segment template piece text hsegment hrest ih =>
      obtain ⟨hhere, hnext, hthere⟩ := isNormal_cons_iff.1 hnormal
      cases hsegment with
      | placeholder name hbefore hafter => exact .placeholder hbefore hafter hhere (ih hthere)
      | literal literal =>
          refine .append_run hhere.2 (fun hlast => ?_) (ih hthere)
          cases hrest with
          | nil => nofun
          | @cons next template piece text hpiece =>
              cases hpiece with
              | literal => exact (hnext _ rfl).elim
              | placeholder => exact absurd hlast (hnext _ rfl)

/-- A text is read into a template exactly when it is a way to write it and the template is in
normal form; so what is printed of a template in normal form is read as that template. -/
theorem parse_eq_ok_iff_writtenAs (template : Template) :
    (∀ text, parse text = .ok template ↔ template.IsNormal ∧ template.WrittenAs text) ∧
      (template.IsNormal → parse template.render = .ok template) := by
  have hiff (text : List Char) :
      parse text = .ok template ↔ template.IsNormal ∧ template.WrittenAs text := by
    refine ⟨fun hparse => ⟨isNormal_of_parse hparse, ?_⟩, fun ⟨hnormal, hwritten⟩ => ?_⟩
    · obtain ⟨tokens, htokens, rfl⟩ := parse_eq_ok_iff_tokenizes.1 hparse
      exact writtenAs_of_tokenizes htokens []
    · exact parse_eq_ok_iff_tokenizes.2
        ⟨template.tokens, tokenizes_of_writtenAs hnormal hwritten, ofTokens_tokens hnormal⟩
  exact ⟨hiff, fun hnormal => (hiff _).2 ⟨hnormal, template.writtenAs_render⟩⟩

/-- Braces next to a placeholder stay in the literals, and the blanks within it are left out. -/
theorem parse_eq_ok_braces :
    parse "\x7b \x7d\x7d\x7b\x7b name \x7d\x7d\x7d\x7b".toList =
      .ok [.literal "\x7b \x7d\x7d", .placeholder "name", .literal "\x7d\x7b"] ∧
    parse "\x7b \x7d\x7d\x7b\x7bname\x7d\x7d\x7d\x7b".toList =
      .ok [.literal "\x7b \x7d\x7d", .placeholder "name", .literal "\x7d\x7b"] := by
  have hnormal : IsNormal
      [.literal "\x7b \x7d\x7d", .placeholder "name", .literal "\x7d\x7b"] := by
    decide +kernel
  obtain ⟨hread, hprinted⟩ := parse_eq_ok_iff_writtenAs
    [.literal "\x7b \x7d\x7d", .placeholder "name", .literal "\x7d\x7b"]
  refine ⟨(hread _).2 ⟨hnormal, ?_⟩, hprinted hnormal⟩
  have hname := @Segment.WrittenAs.placeholder [' '] [' '] "name" rfl rfl
  exact .cons (.literal "\x7b \x7d\x7d") (.cons hname (.cons (.literal "\x7d\x7b") .nil))

end Template

end Phrasebook
