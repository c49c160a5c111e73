import Phrasebook.Proofs.Source.Acceptance
import Phrasebook.Proofs.Source.Writer
import Phrasebook.Proofs.Text.Splitting

/-!
# Written sources are read back

Each line that is written is a row that the grammar knows, so what is written is a
source, and the reader finds the categories that it was made of.
-/

namespace Phrasebook.Source

/-! ## Quotes -/

namespace QuoteMark

theorem escapes_flatMap (text : List Char) : Escapes (text.flatMap escape) text := by
  induction text with
  | nil => exact .nil
  | cons c text ih =>
      rw [List.flatMap_cons]
      unfold escape
      split
      · exact .escape .backslash ih
      · exact .escape .quote ih
      · exact .escape .newline ih
      · exact .escape .tab ih
      · next hbackslash _ _ _ => exact .char hbackslash ih

theorem doubles_flatMap (text : List Char) : Doubles (text.flatMap doubled) text := by
  induction text with
  | nil => exact .nil
  | cons c text ih =>
      rw [List.flatMap_cons]
      unfold doubled
      split
      · exact .pair ih
      · next hquote => exact .char (fun heq => (hquote heq).elim) ih

theorem quotes_write (mark : QuoteMark) (text : List Char) : Quotes (mark.write text) text := by
  cases mark with
  | double => exact .double (escapes_flatMap text)
  | single => exact .single (doubles_flatMap text)

/-- What is written starts and ends with the same quote. -/
theorem exists_write_eq (mark : QuoteMark) (text : List Char) :
    ∃ q inner, (q = '"' ∨ q = '\'') ∧ mark.write text = q :: (inner ++ [q]) := by
  cases mark with
  | double => exact ⟨_, _, .inl rfl, rfl⟩
  | single => exact ⟨_, _, .inr rfl, rfl⟩

theorem newline_not_mem_escape (c : Char) : '\n' ∉ escape c := by
  unfold escape
  split
  · decide
  · decide
  · decide
  · decide
  · next hnewline _ => simpa [eq_comm] using hnewline

theorem newline_not_mem_write {mark : QuoteMark} {text : List Char}
    (htext : mark = .single → '\n' ∉ text) : '\n' ∉ mark.write text := by
  cases mark with
  | double =>
      have hescaped : '\n' ∉ text.flatMap escape := by
        intro hmem
        obtain ⟨c, -, hc⟩ := List.mem_flatMap.1 hmem
        exact newline_not_mem_escape c hc
      simpa [write] using hescaped
  | single =>
      have hdoubled : '\n' ∉ text.flatMap doubled := by
        intro hmem
        obtain ⟨c, hmem, hc⟩ := List.mem_flatMap.1 hmem
        unfold doubled at hc
        split at hc
        · simp at hc
        · exact htext rfl (List.mem_singleton.1 hc ▸ hmem)
      simpa [write] using hdoubled

/-- A quote is no part of a weight. -/
theorem not_hasWeight_write (mark : QuoteMark) (text : List Char) :
    ¬HasWeight (mark.write text) := by
  rintro ⟨digits, c, rest, heq, hplain, -⟩
  obtain ⟨q, inner, hq, hwrite⟩ := mark.exists_write_eq text
  rw [hwrite] at heq
  cases digits with
  | nil => cases hplain
  | cons d digits =>
      obtain rfl : q = d := (List.cons.inj heq).1
      have hd : q.isDigit = true ∨ q = '.' := by
        simp only [isPlainDecimal, List.all_cons, Bool.and_eq_true, Bool.or_eq_true,
          beq_iff_eq] at hplain
        exact hplain.1.1.1
      rcases hq with rfl | rfl <;> simp at hd

end QuoteMark

/-! ## Items -/

namespace Draft

theorem writesAlternative_content {draft : Draft} {alternative : Alternative}
    (hdenotes : draft.Denotes alternative) : WritesAlternative draft.content alternative := by
  refine ⟨draft.quotes.write draft.text, draft.text, ?_, draft.quotes.quotes_write draft.text,
    hdenotes.template⟩
  unfold content
  cases hdigits : draft.digits with
  | none =>
      rw [hdenotes.absent hdigits]
      exact .absent (draft.quotes.not_hasWeight_write draft.text)
  | some digits =>
      obtain ⟨hplain, hread, hfinite⟩ := hdenotes.given digits hdigits
      obtain ⟨q, inner, hq, hwrite⟩ := draft.quotes.exists_write_eq draft.text
      have hquote : ∀ c ∈ (draft.quotes.write draft.text).head?, Text.isIndent c = false := by
        rw [hwrite]
        intro c hc
        cases hc
        rcases hq with rfl | rfl <;> rfl
      have hgap : ∀ c ∈ [' '], Text.isIndent c = true := by simp [Text.isIndent]
      exact .given hplain (List.cons_ne_nil _ _) hgap hquote hread hfinite

/-- What is written of an alternative starts with no space or tab. -/
theorem isIndent_head?_content {draft : Draft} {alternative : Alternative}
    (hdenotes : draft.Denotes alternative) :
    ∀ c ∈ draft.content.head?, Text.isIndent c = false := by
  obtain ⟨q, inner, hq, hwrite⟩ := draft.quotes.exists_write_eq draft.text
  unfold content
  cases hdigits : draft.digits with
  | none =>
      rw [hwrite]
      intro c hc
      cases hc
      rcases hq with rfl | rfl <;> rfl
  | some digits =>
      obtain ⟨hplain, -⟩ := hdenotes.given digits hdigits
      cases digits with
      | nil => cases hplain
      | cons d digits =>
          intro c hc
          cases hc
          simp only [isPlainDecimal, List.all_cons, Bool.and_eq_true, Bool.or_eq_true,
            beq_iff_eq] at hplain
          rcases hplain.1.1.1 with hd | rfl
          · exact isIndent_eq_false_of_isDigit hd
          · rfl

/-- What is written of an alternative ends in a quote. -/
theorem exists_content_eq_concat (draft : Draft) :
    ∃ front q, (q = '"' ∨ q = '\'') ∧ draft.content = front ++ [q] := by
  obtain ⟨q, inner, hq, hwrite⟩ := draft.quotes.exists_write_eq draft.text
  unfold content
  rw [hwrite]
  cases draft.digits with
  | none => exact ⟨q :: inner, q, hq, rfl⟩
  | some digits => exact ⟨digits ++ 'x' :: ' ' :: q :: inner, q, hq, by simp⟩

theorem newline_not_mem_content {draft : Draft} {alternative : Alternative}
    (hdenotes : draft.Denotes alternative) : '\n' ∉ draft.content := by
  have hquoted := QuoteMark.newline_not_mem_write hdenotes.unbroken
  unfold content
  cases hdigits : draft.digits with
  | none => exact hquoted
  | some digits =>
      obtain ⟨hplain, -⟩ := hdenotes.given digits hdigits
      have hfree : '\n' ∉ digits := by
        intro hmem
        simp only [isPlainDecimal, Bool.and_eq_true, List.all_eq_true] at hplain
        exact absurd (hplain.1.1 _ hmem) (by decide)
      simp [hfree, hquoted]

end Draft

/-! ## Lines -/

namespace DraftCategory

def headingRow (number : Nat) (draft : DraftCategory) : Row := ⟨number, [], draft.headingLine⟩

def itemRow (number indent : Nat) (draft : Draft) : Row :=
  ⟨number, List.replicate indent ' ', '-' :: ' ' :: draft.content⟩

/-- A name starts with none of the characters that make a line something else. -/
theorem exists_cons_of_isValid {name : List Char} (hname : Name.isValid name = true) :
    ∃ c cs, name = c :: cs ∧ c ≠ '-' ∧ c ≠ '#' ∧ Text.isIndent c = false ∧
      Text.isBlank c = false := by
  cases name with
  | nil => cases hname
  | cons c cs =>
      have hstart : Name.isStart c = true := (Bool.and_eq_true _ _ ▸ hname : _ ∧ _).1
      have hblank := Name.isBlank_eq_false_of_isRest (Name.isRest_of_isStart hstart)
      refine ⟨c, cs, rfl, ?_, ?_, ?_, hblank⟩
      · rintro rfl
        cases hstart
      · rintro rfl
        cases hstart
      · exact Text.isIndent_eq_false_of_isBlank hblank

section
variable {draft : DraftCategory} (hvalid : Name.isValid draft.name.toList = true)
include hvalid

theorem isLine_headingLine : Text.IsLine draft.headingLine := by
  constructor
  · intro hmem
    rcases List.mem_append.1 hmem with hmem | hmem
    · have hrest := Name.isRest_of_isValid hvalid _ hmem
      cases hrest
    · cases List.mem_singleton.1 hmem
  · simp [headingLine]

theorem ofLine?_headingLine (number : Nat) :
    Row.ofLine? number draft.headingLine = some (draft.headingRow number) := by
  obtain ⟨c, cs, hname, -, hcomment, hindent, hblank⟩ := exists_cons_of_isValid hvalid
  have hline : draft.headingLine = c :: (cs ++ [':']) := by
    rw [headingLine, hname]
    rfl
  rw [headingRow, hline, Row.ofLine?]
  simp [hindent, Text.isBlankText, hblank, hcomment]

theorem heads_headingRow (number : Nat) : (draft.headingRow number).Heads draft.name := by
  obtain ⟨c, cs, hname, hdash, -⟩ := exists_cons_of_isValid hvalid
  refine ⟨rfl, ?_, [], [], by simp [headingRow, headingLine], rfl, rfl⟩
  have hbody : (draft.headingRow number).body = c :: (cs ++ [':']) := by
    rw [headingRow, headingLine, hname]
    rfl
  rintro (hitem | ⟨d, rest, hitem, -⟩)
  · exact hdash (List.cons.inj (hbody.symm.trans hitem)).1
  · exact hdash (List.cons.inj (hbody.symm.trans hitem)).1

end

section
variable {draft : Draft} {alternative : Alternative} (hdenotes : draft.Denotes alternative)
include hdenotes

theorem isLine_itemLine (indent : Nat) : Text.IsLine (itemLine indent draft) := by
  constructor
  · simp [itemLine, draft.newline_not_mem_content hdenotes]
  · obtain ⟨front, q, hq, hcontent⟩ := draft.exists_content_eq_concat
    have hline : itemLine indent draft =
        (List.replicate indent ' ' ++ '-' :: ' ' :: front) ++ [q] := by
      simp [itemLine, hcontent]
    rw [hline, List.getLast?_concat]
    rcases hq with rfl | rfl <;> decide

theorem content_itemRow (number indent : Nat) :
    (itemRow number indent draft).content = draft.content := by
  have hdrop : draft.content.dropWhile Text.isIndent = draft.content := by
    have hhead := draft.isIndent_head?_content hdenotes
    cases hcontent : draft.content with
    | nil => rfl
    | cons c cs =>
        rw [hcontent] at hhead
        exact List.dropWhile_cons_of_neg (by simp [hhead c rfl])
  obtain ⟨front, q, hq, hcontent⟩ := draft.exists_content_eq_concat
  have hquote : Text.isBlank q = false := by
    rcases hq with rfl | rfl <;> decide
  change Text.trimEnd (List.dropWhile Text.isIndent (' ' :: draft.content)) = draft.content
  rw [List.dropWhile_cons_of_pos rfl, hdrop, hcontent, Text.trimEnd_concat front hquote]

end

theorem ofLine?_itemLine (number indent : Nat) (draft : Draft) :
    Row.ofLine? number (itemLine indent draft) = some (itemRow number indent draft) := by
  have hspaces : ∀ c ∈ List.replicate indent ' ', Text.isIndent c = true := by
    intro c hc
    rw [List.eq_of_mem_replicate hc]
    rfl
  rw [itemRow, itemLine, Row.ofLine?, List.takeWhile_append_of_pos hspaces,
    List.dropWhile_append_of_pos hspaces]
  simp [Text.isIndent, Text.isBlankText, Text.isBlank]

theorem standsAt_itemRow (number indent : Nat) (draft : Draft) :
    (ItemRows.mk (itemRow number indent draft) []).StandsAt indent where
  marked := .inr ⟨' ', draft.content, rfl, rfl⟩
  aligned := List.length_replicate
  deeper := by simp

/-! ## Blocks -/

def itemsFrom (number indent : Nat) (drafts : List Draft) : List ItemRows :=
  (drafts.zipIdx number).map fun (draft, number) => ⟨itemRow number indent draft, []⟩

def block (number : Nat) (draft : DraftCategory) : BlockRows :=
  .category (draft.headingRow number) draft.name
    (itemsFrom (number + 1) draft.indent draft.drafts)

theorem isLaidOut_block {draft : DraftCategory} (hvalid : Name.isValid draft.name.toList = true)
    (number : Nat) : (draft.block number).IsLaidOut := by
  refine .category draft.indent (heads_headingRow hvalid number) hvalid ?_
  intro item hitem
  obtain ⟨⟨written, n⟩, -, rfl⟩ := List.mem_map.1 hitem
  exact standsAt_itemRow n draft.indent written

theorem rowsFrom_cons_of_some {number : Nat} {line : List Char} {row : Row}
    (hline : Text.IsLine line) (hrow : Row.ofLine? number line = some row)
    (lines : List (List Char)) :
    rowsFrom number (line :: lines) = row :: rowsFrom (number + 1) lines := by
  rw [rowsFrom_cons, Text.withoutReturn_of_isLine hline, hrow]
  rfl

section
variable {drafts : List Draft} {alternatives : List Alternative}
  (hdenotes : List.Forall₂ Draft.Denotes drafts alternatives)
include hdenotes

theorem rowsFrom_items (number indent : Nat) :
    rowsFrom number (drafts.map (itemLine indent)) =
      (itemsFrom number indent drafts).flatMap ItemRows.rows := by
  induction hdenotes generalizing number with
  | nil => rfl
  | @cons draft alternative drafts alternatives hdraft hdrafts ih =>
      have hrow := ofLine?_itemLine number indent draft
      rw [List.map_cons, rowsFrom_cons_of_some (isLine_itemLine hdraft indent) hrow, ih]
      rfl

theorem writesAlternative_items (number indent : Nat) :
    List.Forall₂ (fun item alternative => WritesAlternative item.text alternative)
      (itemsFrom number indent drafts) alternatives := by
  induction hdenotes generalizing number with
  | nil => exact .nil
  | @cons draft alternative drafts alternatives hdraft hdrafts ih =>
      refine .cons ?_ (ih (number + 1))
      have htext : (ItemRows.mk (itemRow number indent draft) []).text = draft.content :=
        content_itemRow hdraft number indent
      rw [htext]
      exact Draft.writesAlternative_content hdraft

end

section
variable {draft : DraftCategory} {category : Category} (hdenotes : draft.Denotes category)
include hdenotes

theorem rowsFrom_lines (number : Nat) :
    rowsFrom number draft.lines = (draft.block number).rows := by
  rw [lines, rowsFrom_cons_of_some (isLine_headingLine hdenotes.valid)
    (ofLine?_headingLine hdenotes.valid number), rowsFrom_items hdenotes.alternatives]
  rfl

theorem isLine_of_mem_lines : ∀ line ∈ draft.lines, Text.IsLine line := by
  intro line hline
  rcases List.mem_cons.1 hline with rfl | hline
  · exact isLine_headingLine hdenotes.valid
  · obtain ⟨written, hwritten, rfl⟩ := List.mem_map.1 hline
    obtain ⟨alternative, -, hdraft⟩ := exists_mem_of_forall₂ hdenotes.alternatives.flip hwritten
    exact isLine_itemLine hdraft draft.indent

theorem writes_block (number : Nat) : (draft.block number).Writes (.category category) := by
  have hcategory : category = ⟨draft.name, category.alternatives⟩ := by
    rw [← hdenotes.name]
  rw [hcategory]
  refine .category ?_ (writesAlternative_items hdenotes.alternatives (number + 1) draft.indent)
  intro hnil
  have hlength := congrArg List.length hnil
  simp only [itemsFrom, List.length_map, List.length_zipIdx, List.length_nil] at hlength
  exact hdenotes.drafts (List.length_eq_zero_iff.1 hlength)

end

theorem untabbed_itemsFrom (number indent : Nat) (drafts : List Draft) :
    ∀ row ∈ (itemsFrom number indent drafts).flatMap ItemRows.rows, '\t' ∉ row.leading := by
  intro row hrow
  obtain ⟨item, hitem, hrow⟩ := List.mem_flatMap.1 hrow
  obtain ⟨⟨draft, n⟩, -, rfl⟩ := List.mem_map.1 hitem
  obtain rfl := List.mem_singleton.1 hrow
  simp [itemRow, List.mem_replicate]

def blocksFrom : Nat → List DraftCategory → List BlockRows
  | _, [] => []
  | number, draft :: drafts =>
    draft.block number :: blocksFrom (number + draft.lines.length) drafts

/-- Nothing is indented by tabs. -/
theorem untabbed_blocksFrom (number : Nat) (drafts : List DraftCategory) :
    ∀ row ∈ (blocksFrom number drafts).flatMap BlockRows.rows, '\t' ∉ row.leading := by
  induction drafts generalizing number with
  | nil => simp [blocksFrom]
  | cons draft drafts ih =>
      intro row hrow
      rw [blocksFrom, List.flatMap_cons, List.mem_append] at hrow
      rcases hrow with hrow | hrow
      · rcases List.mem_cons.1 hrow with rfl | hrow
        · exact List.not_mem_nil
        · exact untabbed_itemsFrom (number + 1) draft.indent draft.drafts row hrow
      · exact ih _ row hrow

theorem keys_blocksFrom (number : Nat) (drafts : List DraftCategory) :
    (blocksFrom number drafts).map BlockRows.key = drafts.map DraftCategory.name := by
  induction drafts generalizing number with
  | nil => rfl
  | cons draft drafts ih =>
      rw [blocksFrom, List.map_cons, ih]
      rfl

section
variable {drafts : List DraftCategory} {categories : List Category}
  (hdenotes : List.Forall₂ Denotes drafts categories)
include hdenotes

theorem rowsFrom_flatMap_lines (number : Nat) :
    rowsFrom number (drafts.flatMap lines) =
      (blocksFrom number drafts).flatMap BlockRows.rows := by
  induction hdenotes generalizing number with
  | nil => rfl
  | @cons draft category drafts categories hdraft hdrafts ih =>
      rw [List.flatMap_cons, rowsFrom_append, rowsFrom_lines hdraft, ih]
      rfl

theorem isLaidOut_blocksFrom (number : Nat) :
    ∀ block ∈ blocksFrom number drafts, block.IsLaidOut := by
  induction hdenotes generalizing number with
  | nil => simp [blocksFrom]
  | @cons draft category drafts categories hdraft hdrafts ih =>
      intro block hblock
      rcases List.mem_cons.1 hblock with rfl | hblock
      · exact isLaidOut_block hdraft.valid number
      · exact ih _ block hblock

theorem writes_blocksFrom (number : Nat) :
    List.Forall₂ BlockRows.Writes (blocksFrom number drafts) (categories.map Part.category) := by
  induction hdenotes generalizing number with
  | nil => exact .nil
  | @cons draft category drafts categories hdraft hdrafts ih =>
      exact .cons (writes_block hdraft number) (ih _)

theorem isLine_of_mem_flatMap_lines : ∀ line ∈ drafts.flatMap lines, Text.IsLine line := by
  intro line hline
  obtain ⟨draft, hdraft, hline⟩ := List.mem_flatMap.1 hline
  obtain ⟨category, -, hcategory⟩ := exists_mem_of_forall₂ hdenotes.flip hdraft
  exact isLine_of_mem_lines hcategory line hline

end

end DraftCategory

/-- What is written of some categories is a source. -/
theorem isSource_write {drafts : List DraftCategory} {categories : List Category}
    (hdenotes : List.Forall₂ DraftCategory.Denotes drafts categories)
    (hnames : (drafts.map DraftCategory.name).Nodup) :
    IsSource (write drafts) (DraftCategory.blocksFrom 1 drafts)
      (categories.map Part.category) := by
  have hrows : rows (write drafts) =
      (DraftCategory.blocksFrom 1 drafts).flatMap BlockRows.rows := by
    rw [rows, write, String.toList_ofList,
      Text.lines_flatMap (DraftCategory.isLine_of_mem_flatMap_lines hdenotes)]
    exact DraftCategory.rowsFrom_flatMap_lines hdenotes 1
  exact {
    untabbed := by
      rw [hrows]
      exact DraftCategory.untabbed_blocksFrom 1 drafts
    parted := hrows
    laidOut := DraftCategory.isLaidOut_blocksFrom hdenotes 1
    distinct := by
      rw [DraftCategory.keys_blocksFrom]
      exact hnames
    written := DraftCategory.writes_blocksFrom hdenotes 1 }

/-- Categories that are written down are read back: with the same alternatives in the same
order, and with the settings of a book that gives none. -/
theorem parse_write {drafts : List DraftCategory} {categories : List Category}
    (hdenotes : List.Forall₂ DraftCategory.Denotes drafts categories)
    (hnames : (drafts.map DraftCategory.name).Nodup) :
    ∃ book, parse (write drafts) = .ok book ∧
      (∀ category, category ∈ book.categories ↔ category ∈ categories) ∧
      book.preamble = Preamble.default := by
  obtain ⟨book, hparse, hbook⟩ := exists_parse_of_isSource (isSource_write hdenotes hnames)
  refine ⟨book, hparse, fun category => ?_, hbook.defaultPreamble (by simp)⟩
  rw [hbook.categories category, List.mem_map]
  simp

/-- Texts that look like a comment, an item and a weight are read back, as are a heading's
colon, blanks at an end and the quotes themselves. -/
theorem parse_write_greetings :
    ∃ book, parse (write
        [⟨"greeting", 2, [⟨some ['2'], .double, "{{name}}: \"hi\"\n".toList⟩,
          ⟨none, .single, "it's 3x ".toList⟩]⟩,
        ⟨"name", 0, [⟨none, .double, "# - 'x'\\".toList⟩]⟩]) = .ok book ∧
      (∀ category, category ∈ book.categories ↔ category ∈
        [⟨"greeting", [⟨.two, [.placeholder "name", .literal ": \"hi\"\n"]⟩,
          ⟨.one, [.literal "it's 3x "]⟩]⟩,
        ⟨"name", [⟨.one, [.literal "# - 'x'\\"]⟩]⟩]) ∧
      book.preamble = Preamble.default := by
  refine parse_write (.cons ⟨rfl, by decide, by simp, ?_⟩
    (.cons ⟨rfl, by decide, by simp, ?_⟩ .nil)) (by decide)
  · refine .cons ⟨by simp, ?_, by simp, by decide +kernel⟩
      (.cons ⟨fun _ => rfl, by simp, by decide, by decide +kernel⟩ .nil)
    intro digits hdigits
    obtain rfl : ['2'] = digits := Option.some.inj hdigits
    decide +kernel
  · exact .cons ⟨fun _ => rfl, by simp, by simp, by decide +kernel⟩ .nil

end Phrasebook.Source
