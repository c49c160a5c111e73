import Phrasebook.Proofs.Source.Alternatives
import Phrasebook.Proofs.Source.Contents
import Phrasebook.Proofs.Source.Faults
import Phrasebook.Proofs.Source.Layout

/-!
# Where faults are found

A fault is told at a line of the text, and what it says of that line is there: a placeholder
opens at its column, a category that is given twice has a heading there and an earlier one where
it was first given, and a category without alternatives has its heading there and nothing but
blank lines and comments below it.
-/

namespace Phrasebook.Source

/-! ## Places in a text -/

def lineAt? (text : String) : Nat → Option (List Char)
  | 0 => none
  | n + 1 => (Text.lines text.toList)[n]?

def charAt? (text : String) (line : Nat) : Nat → Option Char
  | 0 => none
  | n + 1 => (lineAt? text line).bind (·[n]?)

theorem mem_rows_iff {text : String} {row : Row} :
    row ∈ rows text ↔ ∃ line, lineAt? text row.number = some line ∧
      Row.ofLine? row.number (Text.withoutReturn line) = some row := by
  rw [rows_eq_rowsFrom, mem_rowsFrom_iff]
  cases row.number with
  | zero => simp [lineAt?]
  | succ n => simp [lineAt?]

theorem number_le_of_lineAt? {text : String} {n : Nat} {line : List Char}
    (hline : lineAt? text n = some line) : 1 ≤ n ∧ n ≤ (Text.lines text.toList).length := by
  cases n with
  | zero => cases hline
  | succ n =>
      have hlt := (List.getElem?_eq_some_iff.1 hline).1
      omega

theorem number_le_of_mem_rows {text : String} {row : Row} (hrow : row ∈ rows text) :
    1 ≤ row.number ∧ row.number ≤ (Text.lines text.toList).length := by
  obtain ⟨line, hline, -⟩ := mem_rows_iff.1 hrow
  exact number_le_of_lineAt? hline

theorem pairwise_rows (text : String) :
    (rows text).Pairwise fun row later => row.number < later.number :=
  pairwise_rowsFrom 1 _

/-- A row is its line, but for a carriage return at the end. -/
theorem exists_lineAt?_of_mem_rows {text : String} {row : Row} (hrow : row ∈ rows text) :
    ∃ ending, lineAt? text row.number = some (row.leading ++ row.body ++ ending) := by
  obtain ⟨line, hline, hofLine⟩ := mem_rows_iff.1 hrow
  have hparts := Row.eq_of_ofLine? hofLine
  have hleading := congrArg Row.leading hparts
  have hbody := congrArg Row.body hparts
  dsimp only at hleading hbody
  rw [hleading, hbody, List.takeWhile_append_dropWhile]
  rcases Text.eq_withoutReturn_or line with hwhole | hwhole
  · exact ⟨[], by rw [hline, List.append_nil, ← hwhole]⟩
  · exact ⟨['\r'], by rw [hline, ← hwhole]⟩

theorem charAt?_of_lineAt? {text : String} {line : Nat} {before after : List Char} {c : Char}
    (hline : lineAt? text line = some (before ++ c :: after)) :
    charAt? text line (before.length + 1) = some c := by
  rw [charAt?, hline, Option.bind_some, List.getElem?_append_right (Nat.le_refl _),
    Nat.sub_self, List.getElem?_cons_zero]

/-- Two characters that follow one another in the body of a row. -/
theorem charAt?_of_mem_rows {text : String} {row : Row} (hrow : row ∈ rows text)
    {before after : List Char} {c d : Char} (hbody : row.body = before ++ c :: d :: after) :
    charAt? text row.number (row.indent + before.length + 1) = some c ∧
      charAt? text row.number (row.indent + before.length + 2) = some d := by
  obtain ⟨ending, hline⟩ := exists_lineAt?_of_mem_rows hrow
  constructor
  · have hfirst : lineAt? text row.number =
        some ((row.leading ++ before) ++ c :: (d :: after ++ ending)) := by
      rw [hline, hbody]
      simp
    have hchar := charAt?_of_lineAt? hfirst
    rwa [List.length_append] at hchar
  · have hsecond : lineAt? text row.number =
        some ((row.leading ++ before ++ [c]) ++ d :: (after ++ ending)) := by
      rw [hline, hbody]
      simp
    have hchar := charAt?_of_lineAt? hsecond
    rwa [List.length_append, List.length_append] at hchar

/-- A line that makes no row is blank or a comment. -/
theorem isVoid_of_ofLine?_eq_none {number : Nat} {line : List Char}
    (hnone : Row.ofLine? number (Text.withoutReturn line) = none) : IsVoid line := by
  have hvoid : IsVoid (Text.withoutReturn line) := by
    unfold Row.ofLine? at hnone
    dsimp only at hnone
    split at hnone
    · next hvoid =>
      rcases Bool.or_eq_true_iff.1 hvoid with hblank | hcomment
      · refine .inl ?_
        rw [← List.takeWhile_append_dropWhile (p := Text.isIndent) (l := Text.withoutReturn line),
          Text.isBlankText, List.all_append, Bool.and_eq_true]
        exact ⟨Text.isBlankText_of_isIndent fun c hc => List.mem_takeWhile_imp hc, hblank⟩
      · exact .inr (beq_iff_eq.1 hcomment)
    · cases hnone
  rcases Text.eq_withoutReturn_or line with hwhole | hwhole
  · rwa [hwhole]
  · rw [hwhole]
    rcases hvoid with hblank | hcomment
    · refine .inl ?_
      rw [Text.isBlankText, List.all_append, Bool.and_eq_true]
      exact ⟨hblank, by decide⟩
    · refine .inr ?_
      have hbody : (Text.withoutReturn line).dropWhile Text.isIndent ≠ [] := by
        intro hnil
        rw [hnil] at hcomment
        cases hcomment
      rw [List.dropWhile_append, if_neg (by simpa using hbody),
        List.head?_append_of_ne_nil _ hbody, hcomment]

/-! ## Items -/

/-- The content of an item stands after its dash and the gap. -/
theorem Row.exists_body_eq {row : Row} (hitem : row.IsItem) :
    ∃ spaces blanks, row.body = '-' :: (spaces ++ row.content ++ blanks) ∧
      spaces.length = row.gap := by
  obtain ⟨blanks, -, hblanks⟩ :=
    Text.exists_eq_trimEnd_append ((row.body.drop 1).dropWhile Text.isIndent)
  refine ⟨(row.body.drop 1).takeWhile Text.isIndent, blanks, ?_, rfl⟩
  have hdash : row.body = '-' :: row.body.drop 1 := by
    rcases hitem with hbody | ⟨c, rest, hbody, -⟩
    · rw [hbody]
      rfl
    · rw [hbody]
      rfl
  rw [content, List.append_assoc, ← hblanks, List.takeWhile_append_dropWhile]
  exact hdash

/-- The column that is told of an item is that of a placeholder in its text. -/
theorem Item.exists_of_faulty {category given : String} {item : Item} {cause : Cause}
    {column : Nat} {fault : Template.Fault} (hfaulty : item.Faulty category cause)
    (hcause : cause = .placeholder given (some column) fault) :
    item.isFolded = false ∧ ∃ before after, item.text = before ++ '{' :: '{' :: after ∧
      column = item.column + before.length := by
  cases hfaulty with
  | weight => cases hcause
  | quotes => cases hcause
  | @placeholder weighted unquoted error hsplit hunquote hparse =>
      obtain ⟨-, hcolumn, -⟩ := Cause.placeholder.inj hcause
      split at hcolumn
      · cases hcolumn
      · next hplain =>
        obtain ⟨hfolded, hbare⟩ : item.isFolded = false ∧ unquoted.quoted = false := by
          simpa using hplain
        obtain ⟨weight, htext, hweight⟩ := exists_append_of_splitWeight hsplit
        obtain ⟨before, after, hopens, hoffset, -⟩ := Template.exists_append_of_parse hparse
        rw [text_of_unquote hunquote hbare] at hopens
        refine ⟨hfolded, weight ++ before, after, ?_, ?_⟩
        · rw [htext, hopens, List.append_assoc]
        · rw [← Option.some.inj hcolumn, hoffset, ← hweight, List.length_append]
          omega

/-- What stands in the text of an item on one line stands in its row. -/
theorem ItemRows.exists_body_eq {item : ItemRows} (hmarked : item.first.IsItem)
    (hfolded : item.item.isFolded = false) {before after : List Char} {c d : Char}
    (htext : item.item.text = before ++ c :: d :: after) :
    ∃ front back, item.first.body = front ++ c :: d :: back ∧
      item.item.column + before.length = item.first.indent + front.length + 1 := by
  obtain ⟨first, more⟩ := item
  cases more with
  | cons row more => simp [ItemRows.item, Item.isFolded] at hfolded
  | nil =>
      have hcontent : first.content = before ++ c :: d :: after := by
        rw [← htext, ItemRows.text_item (by simp)]
        rfl
      obtain ⟨spaces, blanks, hbody, hgap⟩ := Row.exists_body_eq hmarked
      refine ⟨'-' :: (spaces ++ before), after ++ blanks, ?_, ?_⟩
      · rw [hbody, hcontent]
        simp
      · simp only [ItemRows.item, List.length_cons, List.length_append, hgap]
        omega

/-! ## Blocks -/

/-- What the fault of a block that does not close says of the rows that are read. -/
def Cause.IsOfRows (rows : List Row) (line : Nat) : Cause → Prop
  | .emptyCategory name => ∃ front heading, rows = front ++ [heading] ∧ heading.number = line ∧
      heading.Heads name ∧ IsKey name
  | .placeholder _ (some column) _ => ∃ row ∈ rows, row.number = line ∧
      ∃ before after, row.body = before ++ '{' :: '{' :: after ∧
        column = row.indent + before.length + 1
  | .duplicateCategory _ _ => False
  | _ => ∃ row ∈ rows, row.number = line

theorem isOfRows_of_faulty {rows : List Row} {name : String} {itemRows : ItemRows}
    {cause : Cause} (hmarked : itemRows.first.IsItem) (hrow : itemRows.first ∈ rows)
    (hfaulty : itemRows.item.Faulty name cause) : cause.IsOfRows rows itemRows.item.line := by
  cases hcause : cause with
  | placeholder given column fault =>
      cases column with
      | none => exact ⟨_, hrow, rfl⟩
      | some column =>
          obtain ⟨hfolded, before, after, htext, rfl⟩ := Item.exists_of_faulty hfaulty hcause
          obtain ⟨front, back, hbody, hcolumn⟩ := ItemRows.exists_body_eq hmarked hfolded htext
          exact ⟨_, hrow, rfl, front, back, hbody, hcolumn⟩
  | form fault => exact ⟨_, hrow, rfl⟩
  | indentation => subst hcause; cases hfaulty
  | setting => subst hcause; cases hfaulty
  | emptyCategory => subst hcause; cases hfaulty
  | duplicateCategory => subst hcause; cases hfaulty

theorem isOfRows_of_unclosed {front : List Row} {state : State} {error : Error}
    (htexts : ∀ row ∈ front, row.text ≠ []) (hread : State.start.readRows front = .ok state)
    (hunclosed : state.Unclosed error) : error.cause.IsOfRows front error.line := by
  cases hunclosed with
  | empty hempty =>
      obtain ⟨before, heading, itemRows, rfl, rfl, hitems, hlaid⟩ :=
        State.exists_category_of_readRows htexts hread hempty
      obtain rfl : itemRows = [] := by simpa using hitems
      obtain ⟨hheads, hkey⟩ := hlaid.heads
      exact ⟨before, heading, rfl, rfl, hheads, hkey⟩
  | @item name _ _ _ _ _ hcategory hitem hfaulty =>
      obtain ⟨before, heading, items, rfl, -, rfl, hlaid⟩ :=
        State.exists_category_of_readRows htexts hread hcategory
      obtain ⟨itemRows, hmem, rfl⟩ := List.mem_map.1 (List.mem_reverse.1 hitem)
      have hrow : itemRows.first ∈ before ++ (BlockRows.category heading name items).rows := by
        refine List.mem_append_right _ (List.mem_cons_of_mem _ ?_)
        exact List.mem_flatMap.2 ⟨itemRows, hmem, List.mem_cons_self⟩
      cases hlaid with
      | category indent hheads hvalid hitems =>
          exact isOfRows_of_faulty (hitems itemRows hmem).marked hrow hfaulty

/-! ## Faults of a text -/

/-- What a fault says of its line is so: the braces of a placeholder stand at its column, the
headings of a category that is given twice are its two lines, and below the heading of a category
without alternatives there are only blank lines and comments until a row ends its block. -/
def Cause.PointsAt (text : String) (line : Nat) : Cause → Prop
  | .placeholder _ (some column) _ =>
    charAt? text line column = some '{' ∧ charAt? text line (column + 1) = some '{'
  | .duplicateCategory name firstLine =>
    firstLine < line ∧ HeadsAt (rows text) name firstLine ∧ HeadsAt (rows text) name line
  | .emptyCategory name =>
    HeadsAt (rows text) name line ∧ ∀ n later, line < n → lineAt? text n = some later →
      (∀ row ∈ rows text, row.EndsBlock → line < row.number → n < row.number) → IsVoid later
  | _ => True

theorem Cause.IsOfRows.exists_mem {rows : List Row} {line : Nat} {cause : Cause}
    (hcause : cause.IsOfRows rows line) : ∃ row ∈ rows, row.number = line := by
  cases cause with
  | emptyCategory name =>
      obtain ⟨front, heading, rfl, hnumber, -⟩ := hcause
      exact ⟨heading, List.mem_append_right front List.mem_cons_self, hnumber⟩
  | placeholder category column fault =>
      cases column with
      | none => exact hcause
      | some column =>
          obtain ⟨row, hrow, hnumber, -⟩ := hcause
          exact ⟨row, hrow, hnumber⟩
  | duplicateCategory name firstLine => exact hcause.elim
  | indentation fault => exact hcause
  | form fault => exact hcause
  | setting fault => exact hcause

/-- After the last row that is read, lines are void up to the row that comes next. -/
theorem isVoid_of_lt {text : String} {front rest : List Row} {heading : Row}
    (hrows : rows text = front ++ heading :: rest) (hrest : ∀ row ∈ rest.head?, row.EndsBlock)
    {n : Nat} {later : List Char} (hn : heading.number < n) (hlater : lineAt? text n = some later)
    (hbefore : ∀ row ∈ rows text, row.EndsBlock → heading.number < row.number → n < row.number) :
    IsVoid later := by
  cases hofLine : Row.ofLine? n (Text.withoutReturn later) with
  | none => exact isVoid_of_ofLine?_eq_none hofLine
  | some row =>
      -- A row there would be one of the rest, the first of which ends the block no later.
      exfalso
      obtain rfl : row.number = n := congrArg Row.number (Row.eq_of_ofLine? hofLine)
      have hmem : row ∈ rows text := mem_rows_iff.2 ⟨later, hlater, hofLine⟩
      have hordered := pairwise_rows text
      rw [hrows] at hmem hbefore hordered
      obtain ⟨-, hafter, hfront⟩ := List.pairwise_append.1 hordered
      rcases List.mem_append.1 hmem with hmem | hmem
      · have hbelow := hfront row hmem heading List.mem_cons_self
        omega
      · rcases List.mem_cons.1 hmem with rfl | hmem
        · omega
        · cases rest with
          | nil => cases hmem
          | cons next rest =>
              have hheading := List.rel_of_pairwise_cons hafter List.mem_cons_self
              have hnext := hbefore next (by simp) (hrest next rfl) hheading
              rcases List.mem_cons.1 hmem with rfl | hmem
              · omega
              · have hbelow := List.rel_of_pairwise_cons (List.pairwise_cons.1 hafter).2 hmem
                omega

theorem pointsAt_of_isOfRows {text : String} {front rest : List Row} {line : Nat} {cause : Cause}
    (hrows : rows text = front ++ rest) (hrest : ∀ row ∈ rest.head?, row.EndsBlock)
    (hcause : cause.IsOfRows front line) : cause.PointsAt text line := by
  cases cause with
  | emptyCategory name =>
      obtain ⟨before, heading, rfl, rfl, hheads, hkey⟩ := hcause
      rw [List.append_assoc, List.singleton_append] at hrows
      have hmem : heading ∈ rows text := by simp [hrows]
      refine ⟨⟨heading, hmem, rfl, hheads, hkey⟩, ?_⟩
      intro n later hn hlater hbefore
      exact isVoid_of_lt hrows hrest hn hlater hbefore
  | placeholder category column fault =>
      cases column with
      | none => trivial
      | some column =>
          obtain ⟨row, hrow, rfl, before, after, hbody, rfl⟩ := hcause
          exact charAt?_of_mem_rows (hrows ▸ List.mem_append_left rest hrow) hbody
  | duplicateCategory name firstLine => exact hcause.elim
  | indentation fault => trivial
  | form fault => trivial
  | setting fault => trivial

theorem pointsAt_of_rejects {text : String} {front rest : List Row} {row : Row} {state : State}
    {cause : Cause} (hrows : rows text = front ++ rest) (hrow : row ∈ rest.head?)
    (hread : State.start.readRows front = .ok state) (hrejects : state.Rejects row cause) :
    cause.PointsAt text row.number := by
  cases hrejects with
  | @duplicate key first hheads hkey hmet =>
      obtain ⟨rest, rfl⟩ := List.head?_eq_some_iff.1 hrow
      obtain ⟨met, hmem, rfl, hmetHeads, -⟩ := (State.mem_headings_iff hread key first).1 hmet
      have hordered := pairwise_rows text
      rw [hrows] at hordered
      have hbelow := (List.pairwise_append.1 hordered).2.2 met hmem row List.mem_cons_self
      refine ⟨hbelow, ⟨met, ?_, rfl, hmetHeads, hkey⟩, ⟨row, ?_, rfl, hheads, hkey⟩⟩
      · exact hrows ▸ List.mem_append_left _ hmem
      · exact hrows ▸ List.mem_append_right _ List.mem_cons_self
  | tab => trivial
  | itemOutside => trivial
  | itemOfSettings => trivial
  | inconsistent => trivial
  | outside => trivial
  | itemExpected => trivial
  | setting => trivial
  | heading => trivial

/-- A fault is told at a line of the text, and what it says of that line is so. -/
theorem pointsAt_of_parse {text : String} {error : Error} (hparse : parse text = .error error) :
    1 ≤ error.line ∧ error.line ≤ (Text.lines text.toList).length ∧
      error.cause.PointsAt text error.line := by
  obtain ⟨front, rest, state, hrows, hread, hfault⟩ := exists_of_parse_error hparse
  have htexts : ∀ row ∈ front, row.text ≠ [] := by
    intro row hrow
    exact text_ne_nil_of_mem_rows (hrows ▸ List.mem_append_left rest hrow)
  rcases hfault with ⟨hrest, hunclosed⟩ | ⟨row, hrow, hline, hrejects⟩
  · have hcause := isOfRows_of_unclosed htexts hread hunclosed
    obtain ⟨row, hrow, hnumber⟩ := hcause.exists_mem
    obtain ⟨hpos, hle⟩ := number_le_of_mem_rows (hrows ▸ List.mem_append_left rest hrow)
    rw [← hnumber] at hcause ⊢
    exact ⟨hpos, hle, pointsAt_of_isOfRows hrows hrest hcause⟩
  · have hmem : row ∈ rows text := hrows ▸ List.mem_append_right front (List.mem_of_mem_head? hrow)
    obtain ⟨hpos, hle⟩ := number_le_of_mem_rows hmem
    rw [hline]
    exact ⟨hpos, hle, pointsAt_of_rejects hrows hrow hread hrejects⟩

/-- A column after characters of several bytes, a gap with a tab, a weight and a brace; the fault
is found when the next heading comes. -/
theorem pointsAt_of_parse_wide :
    ∃ error,
      parse "# ü\na:\n  - é\n\n  -\t2.5x ü–\x7b \x7b\x7b 1 \x7d\x7d\r\nb:\n-" = .error error ∧
      error.line = 5 ∧ error.column = some 14 ∧
      (1 ≤ error.line ∧
        error.line ≤ (Text.lines
          "# ü\na:\n  - é\n\n  -\t2.5x ü–\x7b \x7b\x7b 1 \x7d\x7d\r\nb:\n-".toList).length ∧
        error.cause.PointsAt
          "# ü\na:\n  - é\n\n  -\t2.5x ü–\x7b \x7b\x7b 1 \x7d\x7d\r\nb:\n-" error.line) := by
  have hparse : parse "# ü\na:\n  - é\n\n  -\t2.5x ü–\x7b \x7b\x7b 1 \x7d\x7d\r\nb:\n-" =
      .error ⟨5, .placeholder "a" (some 14) (.invalidName "1")⟩ :=
    eq_error_of_fault? (by decide +kernel)
  exact ⟨_, hparse, rfl, rfl, pointsAt_of_parse hparse⟩

end Phrasebook.Source
