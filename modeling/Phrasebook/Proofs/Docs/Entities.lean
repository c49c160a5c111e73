import Phrasebook.Proofs.Docs.OneLine
import Phrasebook.Proofs.Text.Splitting

/-!
# Text within HTML

What an element of the HTML of a sketch shows of a text holds no mark-up, and an ampersand in it
starts an entity. Decoding the entities from the left gives the text back, so no two texts are
shown alike, whatever entities they spell out themselves.
-/

namespace Phrasebook.Docs

/-! ## Entities -/

def entities : List (Char × List Char) :=
  [('&', "&amp;".toList), ('<', "&lt;".toList), ('>', "&gt;".toList), ('"', "&quot;".toList),
    ('\'', "&#39;".toList), ('\n', "&#10;".toList)]

/-- The characters that would end the text of an element or the value of an attribute. -/
def delimiters : List Char := ['<', '>', '"', '\'']

/-- The text that HTML text stands for: from the left, each entity is its character and any other
character is itself. -/
def decode (shown : List Char) : List Char :=
  match shown with
  | [] => []
  | c :: cs =>
    match entities.find? (·.2.isPrefixOf (c :: cs)) with
    | none => c :: decode cs
    -- the entity's first character is already taken off
    | some (d, entity) => d :: decode (cs.drop (entity.length - 1))
termination_by shown.length
decreasing_by
  · exact Nat.lt_succ_self _
  · rw [List.length_drop, List.length_cons]
    omega

/-- A text as HTML text: what delimits is not in it, each ampersand starts an entity, and the
text is what it decodes to. -/
structure Shows (shown text : List Char) : Prop where
  undelimited : ∀ c ∈ delimiters, c ∉ shown
  ampersands : ∀ before after, shown = before ++ '&' :: after →
    ∃ entry ∈ entities, entry.2 <+: '&' :: after
  decoded : decode shown = text

section
variable {c : Char} {entity : List Char}

/-- The only ampersand of an entity is its first character. -/
theorem exists_eq_ampersand_cons (hentity : (c, entity) ∈ entities) :
    ∃ name, entity = '&' :: name ∧ '&' ∉ name := by
  have hall : ∀ entry ∈ entities, entry.2.head? = some '&' ∧ '&' ∉ entry.2.tail := by
    decide
  obtain ⟨hhead, htail⟩ := hall _ hentity
  obtain ⟨name, rfl⟩ := List.head?_eq_some_iff.1 hhead
  exact ⟨name, rfl, htail⟩

theorem not_mem_entity_of_mem_delimiters (hentity : (c, entity) ∈ entities) {d : Char}
    (hd : d ∈ delimiters) : d ∉ entity := by
  have hall : ∀ entry ∈ entities, delimiters.all (!entry.2.contains ·) = true := by decide
  simpa using List.all_eq_true.1 (hall _ hentity) d hd

/-- No entity is the start of another, so the one that is found is the one that is there. -/
theorem find?_entity_append (hentity : (c, entity) ∈ entities) (cs : List Char) :
    entities.find? (·.2.isPrefixOf (entity ++ cs)) = some (c, entity) := by
  simp only [entities, List.mem_cons, Prod.mk.injEq, List.not_mem_nil, or_false] at hentity
  rcases hentity with ⟨rfl, rfl⟩ | ⟨rfl, rfl⟩ | ⟨rfl, rfl⟩ | ⟨rfl, rfl⟩ | ⟨rfl, rfl⟩ | ⟨rfl, rfl⟩
  all_goals rfl

theorem decode_entity_append (hentity : (c, entity) ∈ entities) (cs : List Char) :
    decode (entity ++ cs) = c :: decode cs := by
  have hfind := find?_entity_append hentity cs
  obtain ⟨name, rfl, -⟩ := exists_eq_ampersand_cons hentity
  rw [List.cons_append] at hfind ⊢
  rw [decode, hfind]
  simp

theorem decode_cons (hc : c ≠ '&') (cs : List Char) : decode (c :: cs) = c :: decode cs := by
  have hfind : entities.find? (·.2.isPrefixOf (c :: cs)) = none := by
    refine List.find?_eq_none.2 fun entry hentry hprefix => ?_
    obtain ⟨name, hname, -⟩ := exists_eq_ampersand_cons hentry
    rw [hname, List.isPrefixOf_iff_prefix, List.cons_prefix_cons] at hprefix
    exact hc hprefix.1.symm
  rw [decode, hfind]

end

/-! ## Encoded texts -/

/-- HTML text in which an entity stands for every ampersand and every character that delimits,
and the text that it stands for. -/
inductive Encodes : List Char → List Char → Prop
  | nil : Encodes [] []
  | char {c : Char} {shown text : List Char} :
      c ≠ '&' → c ∉ delimiters → Encodes shown text → Encodes (c :: shown) (c :: text)
  | entity {c : Char} {entity shown text : List Char} :
      (c, entity) ∈ entities → Encodes shown text → Encodes (entity ++ shown) (c :: text)

namespace Encodes

variable {shown text : List Char}

theorem decode_eq (hencodes : Encodes shown text) : decode shown = text := by
  induction hencodes with
  | nil => rw [decode]
  | char hc _ _ ih => rw [decode_cons hc, ih]
  | entity hentity _ ih => rw [decode_entity_append hentity, ih]

theorem not_mem (hencodes : Encodes shown text) {c : Char} (hc : c ∈ delimiters) : c ∉ shown := by
  induction hencodes with
  | nil => exact List.not_mem_nil
  | char _ hd _ ih =>
      refine List.not_mem_cons_of_ne_of_not_mem ?_ ih
      rintro rfl
      exact hd hc
  | entity hentity _ ih =>
      exact fun hmem => (List.mem_append.1 hmem).elim
        (not_mem_entity_of_mem_delimiters hentity hc) ih

/-- An ampersand that comes after text without any is in the rest. -/
theorem exists_eq_append_ampersand {name before after : List Char} (hname : '&' ∉ name)
    (heq : name ++ shown = before ++ '&' :: after) : ∃ more, shown = more ++ '&' :: after := by
  induction name generalizing before with
  | nil => exact ⟨before, heq⟩
  | cons d name ih =>
      obtain ⟨hd, hrest⟩ : '&' ≠ d ∧ '&' ∉ name := by simpa using hname
      cases before with
      | nil => exact absurd (List.cons.inj heq).1.symm hd
      | cons e before => exact ih hrest (List.cons.inj heq).2

theorem exists_entity_prefix (hencodes : Encodes shown text) {before after : List Char}
    (hshown : shown = before ++ '&' :: after) : ∃ entry ∈ entities, entry.2 <+: '&' :: after := by
  induction hencodes generalizing before with
  | nil => simp at hshown
  | char hc _ _ ih =>
      cases before with
      | nil => exact absurd (List.cons.inj hshown).1 hc
      | cons d before => exact ih (List.cons.inj hshown).2
  | entity hentity _ ih =>
      cases before with
      | nil => exact ⟨_, hentity, _, hshown⟩
      | cons d before =>
          -- the ampersand is not the first character, so it comes after the entity
          obtain ⟨name, rfl, hname⟩ := exists_eq_ampersand_cons hentity
          obtain ⟨more, hmore⟩ := exists_eq_append_ampersand hname (List.cons.inj hshown).2
          exact ih hmore

theorem shows (hencodes : Encodes shown text) : Shows shown text :=
  ⟨fun _ => hencodes.not_mem, fun _ _ => hencodes.exists_entity_prefix, hencodes.decode_eq⟩

end Encodes

theorem encodes_flatMap {write : Char → List Char}
    (hwrite : ∀ c, c ≠ '&' ∧ c ∉ delimiters ∧ write c = [c] ∨ (c, write c) ∈ entities)
    (text : List Char) : Encodes (text.flatMap write) text := by
  induction text with
  | nil => exact .nil
  | cons c text ih =>
      rw [List.flatMap_cons]
      rcases hwrite c with ⟨hc, hdelimiter, heq⟩ | hentity
      · rw [heq]
        exact .char hc hdelimiter ih
      · exact .entity hentity ih

theorem escapeChar_eq_or (c : Char) :
    c ≠ '&' ∧ c ∉ delimiters ∧ escapeChar c = [c] ∨ (c, escapeChar c) ∈ entities := by
  unfold escapeChar
  split_ifs with hamp hlt hgt hquot hapos
  case neg => exact .inl ⟨hamp, by simp [delimiters, hlt, hgt, hquot, hapos], rfl⟩
  all_goals
    subst c
    exact .inr (by decide)

theorem encodes_escape (text : List Char) : Encodes (escape text) text :=
  encodes_flatMap escapeChar_eq_or text

/-- Both passes at once: a line feed is written as an entity, and all else is escaped. -/
theorem escapeOneLine_eq_flatMap (text : List Char) :
    escapeOneLine text =
      text.flatMap fun c => if c = '\n' then "&#10;".toList else escapeChar c := by
  rw [escapeOneLine, escape, List.flatMap_assoc]
  refine List.flatMap_congr fun c _ => ?_
  split_ifs with hc
  · subst hc
    rfl
  · have hnone : '\n' ∉ escapeChar c := fun hmem => hc (newline_mem_escapeChar_iff.1 hmem).symm
    calc (escapeChar c).flatMap (fun d => if d = '\n' then "&#10;".toList else [d])
        = (escapeChar c).flatMap fun d => [d] :=
          List.flatMap_congr fun d hd => if_neg (ne_of_mem_of_not_mem hd hnone)
      _ = escapeChar c := List.flatMap_singleton' _

theorem encodes_escapeOneLine (text : List Char) : Encodes (escapeOneLine text) text := by
  rw [escapeOneLine_eq_flatMap]
  refine encodes_flatMap (fun c => ?_) text
  split_ifs with hc
  · subst hc
    exact .inr (by decide)
  · exact escapeChar_eq_or c

/-! ## The HTML of a sketch -/

/-- What is shown between two tags ends where the second one starts. -/
theorem eq_of_tags_eq {opening ending rest rest' : String} {tag shown other : List Char}
    (hshown : '<' ∉ shown) (hother : '<' ∉ other)
    (heq : opening ++ String.ofList other ++ String.ofList ('<' :: tag) ++ rest' ++ ending =
      opening ++ String.ofList shown ++ String.ofList ('<' :: tag) ++ rest ++ ending) :
    other = shown := by
  have hlists := congrArg String.toList heq
  simp only [String.toList_append, String.toList_ofList, List.append_assoc,
    List.append_cancel_left_eq, List.cons_append] at hlists
  exact (Text.eq_of_append_cons_eq hother hshown hlists).1

theorem eq_of_blockHtml_eq {source other : List Char} {result result' : Except Session.Error String}
    (hhtml : blockHtml other result' = blockHtml source result) : other = source := by
  have hsource := encodes_escapeOneLine source
  have hother := encodes_escapeOneLine other
  have hshown : escapeOneLine other = escapeOneLine source :=
    eq_of_tags_eq (hsource.not_mem (by decide)) (hother.not_mem (by decide)) hhtml
  rw [← hother.decode_eq, hshown, hsource.decode_eq]

/-- In the HTML of a sketch the source stands between `<code>` and `</code>` on one line, as text
that cannot leave the element and decodes to the source; so no two sources have the same HTML,
whatever they render to. The message of an error is shown in this way too. -/
theorem blockHtml_shows (source : List Char) :
    ∃ shown, Shows shown source ∧ '\n' ∉ shown ∧
      (∀ result, blockHtml source result =
        "<div class=\"code-wrap\"><pre><code>" ++ String.ofList shown ++ "</code></pre>" ++
          resultHtml result ++ "</div>") ∧
      (∀ error, ∃ message, Shows message error.message.toList ∧ resultHtml (.error error) =
        "<div class=\"code-result error\">" ++ String.ofList message ++ "</div>") ∧
      ∀ other, other ≠ source → ∀ result result',
        blockHtml other result' ≠ blockHtml source result :=
  ⟨escapeOneLine source, (encodes_escapeOneLine source).shows,
    newline_not_mem_escapeOneLine source, fun _ => rfl,
    fun error => ⟨_, (encodes_escape error.message.toList).shows, rfl⟩,
    fun _ hother _ _ hhtml => hother (eq_of_blockHtml_eq hhtml)⟩

/-- A source that spells out entities is shown as it is, and not as the text they stand for. -/
theorem blockHtml_shows_entities :
    (∃ shown, Shows shown "&lt;&#10;".toList ∧ ∀ result, blockHtml "&lt;&#10;".toList result =
      "<div class=\"code-wrap\"><pre><code>" ++ String.ofList shown ++ "</code></pre>" ++
        resultHtml result ++ "</div>") ∧
    ∀ result result', blockHtml "<\n".toList result' ≠ blockHtml "&lt;&#10;".toList result := by
  obtain ⟨shown, hshows, -, hhtml, -, hdistinct⟩ := blockHtml_shows "&lt;&#10;".toList
  exact ⟨⟨shown, hshows, hhtml⟩, hdistinct _ (by decide)⟩

example : decode (escapeOneLine "&lt;\n'".toList) = "&lt;\n'".toList ∧
    escapeOneLine "&lt;\n'".toList = "&amp;lt;&#10;&#39;".toList := by
  decide +kernel

end Phrasebook.Docs
