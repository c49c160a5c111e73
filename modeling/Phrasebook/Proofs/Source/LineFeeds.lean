import Phrasebook.Proofs.Derivation.Characters
import Phrasebook.Proofs.Source.Acceptance
import Phrasebook.Proofs.Source.Quoted

/-!
# Line feeds that a source escapes

No row holds a line feed. An item says one only when it stands in double quotes and escapes it, so
only then can a literal of the book that is read have one, or the message when none is read.
-/

namespace Phrasebook.Source

/-! ## Items -/

/-- The item, without its weight, is in double quotes and escapes a line feed. -/
def ItemRows.EscapesNewline (item : ItemRows) : Prop :=
  ∃ weight inner out, Weighs item.text weight ('"' :: (inner ++ ['"'])) ∧ Escapes inner out ∧
    '\n' ∈ out

def EscapesNewline (rows : List Row) : Prop :=
  ∃ item : ItemRows, item.first.IsItem ∧ item.rows <:+: rows ∧ item.EscapesNewline

theorem Row.text_prefix (row : Row) : row.text <+: row.body :=
  List.rdropWhile_prefix Text.isBlank row.body

theorem Row.content_infix (row : Row) : row.content <:+: row.body := by
  have hdropped := (List.dropWhile_suffix Text.isIndent).trans (List.drop_suffix 1 row.body)
  exact (List.rdropWhile_prefix Text.isBlank _).isInfix.trans hdropped.isInfix

/-- A row stands in a line of the text. -/
theorem exists_line_of_mem_rows {text : String} {row : Row} (hrow : row ∈ rows text) :
    ∃ line ∈ Text.lines text.toList, row.body <:+: line := by
  rw [rows_eq_rowsFrom] at hrow
  obtain ⟨-, line, hline, hofLine⟩ := mem_rowsFrom_iff.1 hrow
  refine ⟨line, List.mem_of_getElem? hline, ?_⟩
  rw [Row.eq_of_ofLine? hofLine]
  exact (List.dropWhile_suffix _).isInfix.trans (Text.withoutReturn_prefix line).isInfix

theorem unbroken_of_mem_rows {text : String} {row : Row} (hrow : row ∈ rows text) :
    '\n' ∉ row.body := by
  obtain ⟨line, hline, hwithin⟩ := exists_line_of_mem_rows hrow
  exact fun hmem => Text.unbroken_of_mem_lines line hline (hwithin.subset hmem)

/-- What is so of the rows of an item, and stays so of the parts of a text and of two texts that
are joined by a space, is so of the item's text. -/
theorem ItemRows.text_induction {p : List Char → Prop} {item : ItemRows}
    (hrows : ∀ row ∈ item.rows, p row.body)
    (hpart : ∀ {part whole : List Char}, part <:+: whole → p whole → p part)
    (hjoin : ∀ {front back}, p front → p back → p (front ++ ' ' :: back)) : p item.text := by
  obtain ⟨first, more⟩ := item
  obtain ⟨hfirst, hmore⟩ := List.forall_mem_cons.1 hrows
  rw [text]
  have hcontent : p first.content := hpart first.content_infix hfirst
  dsimp only at hmore ⊢
  generalize first.content = text at hcontent
  clear hrows hfirst
  induction more generalizing text with
  | nil => exact hcontent
  | cons row more ih =>
      obtain ⟨hrow, hrest⟩ := List.forall_mem_cons.1 hmore
      have htext : p row.text := hpart row.text_prefix.isInfix hrow
      refine ih hrest _ ?_
      dsimp only
      split
      · exact htext
      · exact hjoin hcontent htext

theorem ItemRows.unbroken_text {item : ItemRows} (hrows : ∀ row ∈ item.rows, '\n' ∉ row.body) :
    '\n' ∉ item.text := by
  refine text_induction (p := ('\n' ∉ ·)) hrows ?_ ?_
  · exact fun hpart hwhole hmem => hwhole (hpart.subset hmem)
  · intro front back hfront hback
    simp [hfront, hback]

theorem Doubles.subset {cs out : List Char} (hdoubles : Doubles cs out) : out ⊆ cs := by
  induction hdoubles with
  | nil => exact List.Subset.refl _
  | pair _ ih => exact List.cons_subset_cons _ (List.subset_cons_of_subset _ ih)
  | char _ _ ih => exact List.cons_subset_cons _ ih

theorem Weighs.suffix {text rest : List Char} {weight : Binary64}
    (hweighs : Weighs text weight rest) : rest <:+ text := by
  cases hweighs with
  | @given digits gap =>
      refine List.IsSuffix.trans ?_ (List.suffix_append digits _)
      exact (List.suffix_append gap rest).trans (List.suffix_cons _ _)
  | absent => exact List.suffix_rfl

/-- A text that says a line feed but holds none is in double quotes and escapes it. -/
theorem Quotes.exists_escapes {text out : List Char} (hquotes : Quotes text out)
    (htext : '\n' ∉ text) (hout : '\n' ∈ out) :
    ∃ inner, text = '"' :: (inner ++ ['"']) ∧ Escapes inner out := by
  cases hquotes with
  | double hescapes => exact ⟨_, rfl, hescapes⟩
  | single hdoubles =>
      refine absurd ?_ htext
      exact List.mem_cons_of_mem _ (List.mem_append_left _ (hdoubles.subset hout))
  | bare => exact absurd hout htext

theorem ItemRows.escapesNewline {item : ItemRows} (hrows : ∀ row ∈ item.rows, '\n' ∉ row.body)
    {weight : Binary64} {rest out : List Char} (hweighs : Weighs item.text weight rest)
    (hquotes : Quotes rest out) (hout : '\n' ∈ out) : item.EscapesNewline := by
  have hrest : '\n' ∉ rest := fun hmem => unbroken_text hrows (hweighs.suffix.subset hmem)
  obtain ⟨inner, rfl, hescapes⟩ := hquotes.exists_escapes hrest hout
  exact ⟨weight, inner, out, hweighs, hescapes, hout⟩

/-- The rows of an item of a block stand together. -/
theorem BlockRows.infix_rows {heading : Row} {name : String} {items : List ItemRows}
    {item : ItemRows} (hitem : item ∈ items) :
    item.rows <:+: (BlockRows.category heading name items).rows :=
  (List.infix_of_mem_flatten (List.mem_map_of_mem hitem)).trans (List.suffix_cons _ _).isInfix

/-! ## Backslashes -/

/-- Neighbours in two texts that a third character joins are neighbours in one of the two. -/
theorem infix_or_infix_of_infix_join {c d e : Char} (hc : c ≠ e) (hd : d ≠ e)
    {front back : List Char} (hjoined : [c, d] <:+: front ++ e :: back) :
    [c, d] <:+: front ∨ [c, d] <:+: back := by
  induction front with
  | nil =>
      rcases List.infix_cons_iff.1 hjoined with hstarts | hback
      · exact absurd (List.cons_prefix_cons.1 hstarts).1 hc
      · exact .inr hback
  | cons first front ih =>
      rcases List.infix_cons_iff.1 hjoined with hstarts | hrest
      · obtain ⟨rfl, hnext⟩ := List.cons_prefix_cons.1 hstarts
        cases front with
        | nil => exact absurd (List.cons_prefix_cons.1 hnext).1 hd
        | cons second front =>
            obtain ⟨rfl, -⟩ := List.cons_prefix_cons.1 hnext
            exact .inl (List.prefix_append [c, d] front).isInfix
      · exact (ih hrest).imp_left fun hfront => hfront.trans (List.suffix_cons first front).isInfix

/-- Neighbours in the text of an item, neither of them a space, are neighbours in a row. -/
theorem ItemRows.exists_infix_body {c d : Char} (hc : c ≠ ' ') (hd : d ≠ ' ') {item : ItemRows}
    (hpair : [c, d] <:+: item.text) : ∃ row ∈ item.rows, [c, d] <:+: row.body := by
  by_contra hnone
  have hrows : ∀ row ∈ item.rows, ¬[c, d] <:+: row.body := fun row hrow hbody =>
    hnone ⟨row, hrow, hbody⟩
  refine text_induction (p := (¬[c, d] <:+: ·)) hrows ?_ ?_ hpair
  · exact fun hpart hwhole hwithin => hwhole (hwithin.trans hpart)
  · intro front back hfront hback hjoined
    exact (infix_or_infix_of_infix_join hc hd hjoined).elim hfront hback

theorem Escapes.infix_of_newline_mem {inner out : List Char} (hescapes : Escapes inner out)
    (hinner : '\n' ∉ inner) (hout : '\n' ∈ out) : ['\\', 'n'] <:+: inner := by
  induction hescapes with
  | nil => cases hout
  | char hc _ ih =>
      obtain ⟨hne, hrest⟩ := List.ne_and_not_mem_of_not_mem_cons hinner
      rcases List.mem_cons.1 hout with heq | hout
      · exact absurd heq hne
      · exact (ih hrest hout).trans (List.suffix_cons _ _).isInfix
  | @escape e c cs out hec _ ih =>
      rcases List.mem_cons.1 hout with rfl | hout
      · cases hec
        exact (List.prefix_append ['\\', 'n'] cs).isInfix
      · have hrest : '\n' ∉ cs := fun hmem => hinner (by simp [hmem])
        exact (ih hrest hout).trans ((List.suffix_cons e cs).trans (List.suffix_cons _ _)).isInfix

/-- A text in which no backslash stands before an `n` escapes no line feed. -/
theorem EscapesNewline.backslash_isInfix {text : String} (hescapes : EscapesNewline (rows text)) :
    ['\\', 'n'] <:+: text.toList := by
  obtain ⟨item, -, hrows, weight, inner, out, hweighs, hinner, hout⟩ := hescapes
  have hunbroken : ∀ row ∈ item.rows, '\n' ∉ row.body := fun row hrow =>
    unbroken_of_mem_rows (hrows.subset hrow)
  have hquoted : inner <:+: item.text := by
    refine List.IsInfix.trans ?_ hweighs.suffix.isInfix
    exact (List.prefix_append inner ['"']).isInfix.trans (List.suffix_cons _ _).isInfix
  have hfeed : '\n' ∉ inner := fun hmem =>
    ItemRows.unbroken_text hunbroken (hquoted.subset hmem)
  have hpair : ['\\', 'n'] <:+: item.text := (hinner.infix_of_newline_mem hfeed hout).trans hquoted
  obtain ⟨row, hrow, hbody⟩ := ItemRows.exists_infix_body (by decide) (by decide) hpair
  obtain ⟨line, hline, hwithin⟩ := exists_line_of_mem_rows (hrows.subset hrow)
  exact (hbody.trans hwithin).trans (Text.infix_of_mem_lines hline)

/-! ## Books -/

theorem escapesNewline_of_spells {text : String} {book : Book} (hparse : parse text = .ok book)
    (hspells : book.Spells '\n') : EscapesNewline (rows text) := by
  obtain ⟨category, hcategory, alternative, halternative, htemplate⟩ := hspells
  obtain ⟨blocks, parts, hsource, hbook⟩ := exists_isSource_of_parse hparse
  obtain ⟨block, hblock, hwrites⟩ :=
    exists_mem_of_forall₂ hsource.written ((hbook.categories category).1 hcategory)
  have hlaid := hsource.laidOut block hblock
  cases hwrites with
  | @category heading name items alternatives hitems halternatives =>
      obtain ⟨item, hitem, rest, out, hweighs, hquotes, htemplateParse⟩ :=
        exists_mem_of_forall₂ halternatives halternative
      cases hlaid with
      | category indent hheads hvalid hstands =>
          have hwithin : item.rows <:+: rows text := by
            rw [hsource.parted]
            exact (BlockRows.infix_rows hitem).trans
              (List.infix_of_mem_flatten (List.mem_map_of_mem hblock))
          refine ⟨item, (hstands item hitem).marked, hwithin, ?_⟩
          refine ItemRows.escapesNewline (fun row hrow => ?_) hweighs hquotes ?_
          · exact unbroken_of_mem_rows (hwithin.subset hrow)
          · exact Template.mem_of_spells_of_parse htemplateParse htemplate

/-! ## Faults -/

/-- What the fault of an item quotes is in its text, or is what its quotes say, or names its
category. -/
theorem Item.Faulty.exists_of_mem_quoted {category : String} {item : Item} {cause : Cause}
    {c : Char} (hfaulty : item.Faulty category cause) (hc : c ∈ cause.quoted) :
    c ∈ item.text ∨ c ∈ category.toList ∨
      ∃ weight rest out, Weighs item.text weight rest ∧ Quotes rest out ∧ c ∈ out := by
  cases hfaulty with
  | weight hsplit => exact .inl (quoted_subset_of_splitWeight hsplit hc)
  | quotes hsplit hunquote =>
      have hrest := (weighs_of_splitWeight hsplit).suffix.subset
      exact .inl (hrest (quoted_subset_of_unquote hunquote hc))
  | placeholder hsplit hunquote hparse =>
      obtain ⟨before, after, htext, -, hquoted⟩ := Template.exists_append_of_parse hparse
      rcases List.mem_append.1 hc with hc | hc
      · refine .inr (.inr ⟨_, _, _, weighs_of_splitWeight hsplit, quotes_of_unquote hunquote, ?_⟩)
        simp [htext, hquoted hc]
      · exact .inr (.inl hc)

theorem escapesNewline_of_unclosed {front : List Row} {state : State} {error : Error}
    (htexts : ∀ row ∈ front, row.text ≠ []) (hfront : ∀ row ∈ front, '\n' ∉ row.body)
    (hread : State.start.readRows front = .ok state) (hunclosed : state.Unclosed error)
    (hquoted : '\n' ∈ error.cause.quoted) : EscapesNewline front := by
  cases hunclosed with
  | empty hempty =>
      obtain ⟨before, heading, itemRows, -, -, -, hlaid⟩ :=
        State.exists_category_of_readRows htexts hread hempty
      cases hlaid with
      | category indent hheads hvalid => exact absurd hquoted (Name.unbroken_of_isValid hvalid)
  | @item name _ _ _ _ _ hcategory hitem hfaulty =>
      obtain ⟨before, heading, items, rfl, -, rfl, hlaid⟩ :=
        State.exists_category_of_readRows htexts hread hcategory
      obtain ⟨item, hmem, rfl⟩ := List.mem_map.1 (List.mem_reverse.1 hitem)
      have hwithin : item.rows <:+: before ++ (BlockRows.category heading name items).rows :=
        (BlockRows.infix_rows hmem).trans (List.suffix_append _ _).isInfix
      have hrows : ∀ row ∈ item.rows, '\n' ∉ row.body := fun row hrow =>
        hfront row (hwithin.subset hrow)
      have hmore : ∀ row ∈ item.more, row.text ≠ [] := fun row hrow =>
        htexts row (hwithin.subset (List.mem_cons_of_mem _ hrow))
      cases hlaid with
      | category indent hheads hvalid hstands =>
          have hsaid := hfaulty.exists_of_mem_quoted hquoted
          rw [ItemRows.text_item hmore] at hsaid
          rcases hsaid with htext | hname | ⟨weight, rest, out, hweighs, hquotes, hout⟩
          · exact absurd htext (ItemRows.unbroken_text hrows)
          · exact absurd hname (Name.unbroken_of_isValid hvalid)
          · exact ⟨item, (hstands item hmem).marked, hwithin,
              ItemRows.escapesNewline hrows hweighs hquotes hout⟩

/-- What the fault of a row quotes is in the row, or names the category being read. -/
theorem State.Rejects.unbroken_quoted {front : List Row} {state : State} {row : Row}
    {cause : Cause} (htexts : ∀ row ∈ front, row.text ≠ [])
    (hread : start.readRows front = .ok state) (hrow : '\n' ∉ row.body)
    (hrejects : state.Rejects row cause) : '\n' ∉ cause.quoted := by
  have htext : '\n' ∉ row.text := fun hmem => hrow (row.text_prefix.subset hmem)
  cases hrejects with
  | tab => exact List.not_mem_nil
  | itemOutside => exact List.not_mem_nil
  | itemOfSettings => exact List.not_mem_nil
  | inconsistent => exact List.not_mem_nil
  | outside => exact List.not_mem_nil
  | itemExpected hblock =>
      obtain ⟨before, heading, itemRows, -, -, -, hlaid⟩ :=
        exists_category_of_readRows htexts hread hblock
      cases hlaid with
      | category indent hheads hvalid => exact Name.unbroken_of_isValid hvalid
  | setting _ hfault => exact fun hmem => htext (Settings.quoted_subset_of_read hfault hmem)
  | heading _ hkey => exact fun hmem => htext (quoted_subset_of_headingKey hkey hmem)
  | duplicate hheads =>
      obtain ⟨before, after, hbody, -⟩ := hheads.form
      refine fun hmem => hrow ?_
      rw [hbody]
      exact List.mem_append_left _ (List.mem_append_left _ hmem)

theorem escapesNewline_of_newline_mem_message {text : String} {error : Error}
    (hparse : parse text = .error error) (hmessage : '\n' ∈ error.message.toList) :
    EscapesNewline (rows text) := by
  have hquoted := Error.newline_mem_message_iff.1 hmessage
  obtain ⟨front, rest, state, hrows, hread, hfault⟩ := exists_of_parse_error hparse
  have htexts : ∀ row ∈ front, row.text ≠ [] := fun row hrow =>
    text_ne_nil_of_mem_rows (hrows ▸ List.mem_append_left _ hrow)
  have hunbroken : ∀ row ∈ front ++ rest, '\n' ∉ row.body := fun row hrow =>
    unbroken_of_mem_rows (hrows ▸ hrow)
  rcases hfault with ⟨-, hunclosed⟩ | ⟨row, hrow, -, hrejects⟩
  · obtain ⟨item, hmarked, hwithin, hitem⟩ := escapesNewline_of_unclosed htexts
      (fun row hrow => hunbroken row (List.mem_append_left _ hrow)) hread hunclosed hquoted
    refine ⟨item, hmarked, ?_, hitem⟩
    rw [hrows]
    exact hwithin.trans (List.prefix_append front rest).isInfix
  · have hrest : row ∈ rest := List.mem_of_mem_head? hrow
    have hbody := hunbroken row (List.mem_append_right _ hrest)
    exact absurd hquoted (hrejects.unbroken_quoted htexts hread hbody)

end Phrasebook.Source
