import Phrasebook.Proofs.Source.Contents
import Phrasebook.Proofs.Source.HeadingLines
import Phrasebook.Proofs.Source.Layout

/-!
# Sources one after the other

Two sources with a line feed between them make a source when no key heads a block in both, and
the book is then that of the blocks of either. Otherwise the fault is the first heading of the
second source whose key the first one has.
-/

namespace Phrasebook.Source

/-! ## Rows of joined texts -/

theorem length_splitOn (c : Char) (text : List Char) :
    (text.splitOn c).length = text.count c + 1 := by
  induction text with
  | nil => rfl
  | cons d text ih =>
      rw [List.splitOn_cons_eq_if_modifyHead, List.count_cons]
      split
      · rw [List.length_cons, ih]
      · rw [List.length_modifyHead, ih, Nat.add_zero]

/-- Lines keep their rows whatever lines follow them. -/
theorem joinedRows_append {lines : List (List Char)}
    (hlines : ∀ line ∈ lines, '\n' ∉ line ∧ '\r' ∉ line) (number : Nat)
    (later : List (List Char)) :
    joinedRows number (lines ++ later) =
      joinedRows number lines ++ joinedRows (number + lines.length) later := by
  induction lines generalizing number with
  | nil => rfl
  | cons line lines ih =>
      obtain ⟨⟨hfeed, hreturn⟩, hlines⟩ := List.forall_mem_cons.1 hlines
      rw [List.cons_append, joinedRows_cons_of_unreturned hfeed hreturn,
        joinedRows_cons_of_unreturned hfeed hreturn, ih hlines, List.append_assoc,
        List.length_cons, Nat.add_right_comm number 1, Nat.add_assoc]

def linesBefore (text : String) : Nat := text.toList.count '\n' + 1

theorem rows_join {text : String} (hreturn : '\r' ∉ text.toList) (other : String) :
    rows (text ++ "\n" ++ other) =
      rows text ++ rowsFrom (1 + linesBefore text) (Text.lines other.toList) := by
  have hlines : ∀ line ∈ text.toList.splitOn '\n', '\n' ∉ line ∧ '\r' ∉ line := by
    intro line hline
    exact (Text.subset_of_mem_splitOn hline).imp_right fun hsubset hmem => hreturn (hsubset hmem)
  have hjoined := joinedRows_append hlines 1 (other.toList.splitOn '\n')
  rw [← List.splitOn_append_cons_self, length_splitOn] at hjoined
  simp only [joinedRows, List.intercalate_splitOn] at hjoined
  rw [rows_eq_rowsFrom, rows_eq_rowsFrom, linesBefore, ← hjoined]
  simp

/-! ## Rows at later lines -/

def Row.shift (k : Nat) (row : Row) : Row := { row with number := row.number + k }

theorem Row.line_shift (k : Nat) (row : Row) : (row.shift k).line = row.line := rfl

theorem Row.heads_shift_iff {k : Nat} {row : Row} {key : String} :
    (row.shift k).Heads key ↔ row.Heads key :=
  ⟨fun h => ⟨h.unindented, h.unmarked, h.form⟩, fun h => ⟨h.unindented, h.unmarked, h.form⟩⟩

theorem rowsFrom_add (number k : Nat) (lines : List (List Char)) :
    rowsFrom (number + k) lines = (rowsFrom number lines).map (Row.shift k) := by
  induction lines generalizing number with
  | nil => rfl
  | cons line lines ih =>
      rw [rowsFrom_cons, rowsFrom_cons, List.map_append, ← ih, Nat.add_right_comm]
      congr 1
      unfold Row.ofLine?
      dsimp only
      split <;> rfl

theorem headsAt_shift_iff {k : Nat} {rows : List Row} {key : String} {line : Nat} :
    HeadsAt (rows.map (Row.shift k)) key line ↔
      ∃ original, HeadsAt rows key original ∧ original + k = line := by
  constructor
  · intro hheads
    obtain ⟨_, hmem, rfl, hheads, hkey⟩ := hheads
    obtain ⟨row, hrow, rfl⟩ := List.mem_map.1 hmem
    exact ⟨row.number, ⟨row, hrow, rfl, Row.heads_shift_iff.1 hheads, hkey⟩, rfl⟩
  · intro horiginal
    obtain ⟨_, ⟨row, hrow, rfl, hheads, hkey⟩, rfl⟩ := horiginal
    exact ⟨row.shift k, List.mem_map_of_mem hrow, rfl, Row.heads_shift_iff.2 hheads, hkey⟩

theorem hasKey_shift_iff {k : Nat} {rows : List Row} {key : String} :
    HasKey (rows.map (Row.shift k)) key ↔ HasKey rows key := by
  constructor
  · intro hkey
    obtain ⟨_, hheads⟩ := hkey
    obtain ⟨line, hheads, -⟩ := headsAt_shift_iff.1 hheads
    exact ⟨line, hheads⟩
  · intro hkey
    obtain ⟨line, hheads⟩ := hkey
    exact ⟨line + k, headsAt_shift_iff.2 ⟨line, hheads, rfl⟩⟩

/-! ## Sources that are read -/

/-- The reader takes in rows and closes their last block; they are the rows of blocks, which
write parts. -/
structure IsRead (rows : List Row) (last closed : State) (blocks : List BlockRows)
    (parts : List Part) : Prop where
  texts : ∀ row ∈ rows, row.text ≠ []
  read : State.start.readRows rows = .ok last
  close : last.close = .ok closed
  tracks : closed.Tracks blocks parts none
  parted : blocks.flatMap BlockRows.rows = rows

namespace IsRead

variable {rows : List Row} {last closed : State} {blocks : List BlockRows} {parts : List Part}

theorem exists_of_close (htexts : ∀ row ∈ rows, row.text ≠ [])
    (hread : State.start.readRows rows = .ok last) (hclose : last.close = .ok closed) :
    ∃ blocks parts, IsRead rows last closed blocks parts := by
  obtain ⟨blocks, parts, current, htracks, hrows⟩ :=
    State.Tracks.of_readRows (by simpa using htexts) State.tracks_start hread
  replace hrows : (blocks ++ current.toList).flatMap BlockRows.rows = rows := hrows
  obtain ⟨parts, hclosed⟩ := htracks.of_close (hrows ▸ htexts) hclose
  exact ⟨blocks ++ current.toList, parts, htexts, hread, hclose, hclosed, hrows⟩

/-- A source is read, at whatever line it starts. -/
theorem exists_of_parse {text : String} {book : Book} (hparse : parse text = .ok book) (k : Nat) :
    ∃ last closed blocks parts,
      IsRead ((Source.rows text).map (Row.shift k)) last closed blocks parts ∧
        closed.book = book := by
  have halike : List.Forall₂ (Row.Alike fun _ _ => True) (Source.rows text)
      ((Source.rows text).map (Row.shift k)) := by
    rw [List.forall₂_map_right_iff, List.forall₂_same]
    exact fun row _ => ⟨trivial, row.line_shift k ▸ .same _⟩
  have htexts : ∀ row ∈ (Source.rows text).map (Row.shift k), row.text ≠ [] :=
    List.forall_mem_map.2 fun row hrow => @text_ne_nil_of_mem_rows text row hrow
  have hresults := State.alike_start.readRows halike
  rw [parse_eq_readRows] at hparse
  generalize State.start.readRows (Source.rows text) = result at hresults hparse
  generalize hread : State.start.readRows ((Source.rows text).map (Row.shift k)) = shifted
    at hresults
  cases hresults with
  | error => cases hparse
  | @ok state last hstates =>
      have hresults := hstates.close
      rw [Except.bind] at hparse
      generalize state.close = result at hresults hparse
      generalize hclose : last.close = shifted at hresults
      cases hresults with
      | error => cases hparse
      | @ok _ closed hclosed =>
          obtain ⟨blocks, parts, hread⟩ := exists_of_close htexts hread hclose
          exact ⟨last, closed, blocks, parts, hread,
            hclosed.book.symm.trans (Except.ok.inj hparse)⟩

section
variable (hread : IsRead rows last closed blocks parts)
include hread

theorem parse_eq {text : String} (hrows : Source.rows text = rows) :
    parse text = .ok closed.book := by
  rw [parse_eq_readRows, hrows, hread.read, Except.bind, hread.close]
  rfl

theorem untabbed : ∀ row ∈ rows, '\t' ∉ row.leading := by
  have huntabbed := hread.tracks.untabbed
  rwa [Option.toList_none, List.append_nil, hread.parted] at huntabbed

theorem laidOut : ∀ block ∈ blocks, block.IsLaidOut := by
  simpa using hread.tracks.laidOut

theorem distinct : (blocks.map BlockRows.key).Nodup := by
  simpa using hread.tracks.distinct

theorem headsAt_iff {key : String} {line : Nat} :
    HeadsAt rows key line ↔ ∃ block ∈ blocks, block.key = key ∧ block.heading.number = line := by
  rw [← hread.parted, BlockRows.headsAt_flatMap_rows_iff hread.laidOut]

/-- The keys that head blocks in the rows are those of the blocks. -/
theorem hasKey_iff {key : String} : HasKey rows key ↔ key ∈ blocks.map BlockRows.key := by
  rw [HasKey, List.mem_map]
  constructor
  · intro hkey
    obtain ⟨line, hheads⟩ := hkey
    obtain ⟨block, hblock, hkey, -⟩ := hread.headsAt_iff.1 hheads
    exact ⟨block, hblock, hkey⟩
  · intro hblock
    obtain ⟨block, hblock, hkey⟩ := hblock
    exact ⟨block.heading.number, hread.headsAt_iff.2 ⟨block, hblock, hkey, rfl⟩⟩

/-- A preamble is written when there is a settings block. -/
theorem hasKey_preambleKey_iff :
    HasKey rows preambleKey ↔ ∃ preamble, .preamble preamble ∈ parts := by
  rw [hread.hasKey_iff, List.mem_map]
  constructor
  · intro hmem
    obtain ⟨block, hblock, hkey⟩ := hmem
    obtain ⟨part, hpart, hwrites⟩ := exists_mem_of_forall₂ hread.tracks.written.flip hblock
    cases hwrites with
    | settings => exact ⟨_, hpart⟩
    | category =>
        cases hread.laidOut _ hblock with
        | category indent hheads hvalid =>
            obtain rfl : _ = preambleKey := hkey
            rw [Name.isValid_preambleKey] at hvalid
            cases hvalid
  · intro hmem
    obtain ⟨preamble, hpart⟩ := hmem
    obtain ⟨block, hblock, hwrites⟩ := exists_mem_of_forall₂ hread.tracks.written hpart
    cases hwrites with
    | settings => exact ⟨_, hblock, rfl⟩

end

end IsRead

/-! ## One source after another -/

theorem exists_first {p : α → Prop} {x : α} {xs : List α} (hmem : x ∈ xs) (hx : p x) :
    ∃ front y back, xs = front ++ y :: back ∧ p y ∧ ∀ z ∈ front, ¬p z := by
  induction xs with
  | nil => cases hmem
  | cons y xs ih =>
      by_cases hy : p y
      · exact ⟨[], y, xs, rfl, hy, by simp⟩
      · have hrest : x ∈ xs := by
          refine (List.mem_cons.1 hmem).resolve_left ?_
          rintro rfl
          exact hy hx
        obtain ⟨front, z, back, rfl, hz, hfront⟩ := ih hrest
        exact ⟨y :: front, z, back, rfl, hz, List.forall_mem_cons.2 ⟨hy, hfront⟩⟩

theorem exists_append_of_forall₂ {R : α → β → Prop} {front back : List α} {ys : List β}
    (hall : List.Forall₂ R (front ++ back) ys) :
    ∃ zs later, ys = zs ++ later ∧ List.Forall₂ R front zs ∧ List.Forall₂ R back later := by
  induction front generalizing ys with
  | nil => exact ⟨[], ys, rfl, .nil, hall⟩
  | cons x front ih =>
      obtain ⟨y, ys, hxy, hrest, rfl⟩ := List.forall₂_cons_left_iff.1 hall
      obtain ⟨zs, later, rfl, hfront, hback⟩ := ih hrest
      exact ⟨y :: zs, later, rfl, .cons hxy hfront, hback⟩

section
variable {rows later : List Row} {last closed laterLast laterClosed : State}
  {blocks front back : List BlockRows} {parts laterParts : List Part}

/-- After a source the first blocks of another one are read, as long as their keys are new. -/
theorem IsRead.exists_append (hread : IsRead rows last closed blocks parts)
    (hlater : IsRead later laterLast laterClosed (front ++ back) laterParts)
    (hnew : ∀ block ∈ front, ¬HasKey rows block.key) :
    ∃ last closed frontParts backParts, laterParts = frontParts ++ backParts ∧
      List.Forall₂ BlockRows.Writes back backParts ∧
      IsRead (rows ++ front.flatMap BlockRows.rows) last closed (blocks ++ front)
        (parts ++ frontParts) := by
  obtain ⟨frontParts, backParts, hparts, hfront, hback⟩ :=
    exists_append_of_forall₂ hlater.tracks.written
  have hsubset : ∀ row ∈ front.flatMap BlockRows.rows, row ∈ later := by
    intro row hrow
    rw [← hlater.parted, List.flatMap_append]
    exact List.mem_append_left _ hrow
  have hkeys : ((blocks ++ front).map BlockRows.key).Nodup := by
    have hdistinct := hlater.distinct
    rw [List.map_append, List.nodup_append] at hdistinct ⊢
    refine ⟨hread.distinct, hdistinct.1, ?_⟩
    intro key hkey other hother heq
    obtain ⟨block, hblock, rfl⟩ := List.mem_map.1 hother
    exact hnew block hblock (hread.hasKey_iff.2 (heq ▸ hkey))
  obtain ⟨last, closed, hrest, hclose, htracks⟩ :=
    State.Tracks.exists_readRows_of_writes hread.close hread.tracks hfront
      (fun block hblock => hlater.laidOut block (List.mem_append_left _ hblock))
      (fun row hrow => hlater.untabbed row (hsubset row hrow))
      (fun row hrow => hlater.texts row (hsubset row hrow)) hkeys
  refine ⟨last, closed, frontParts, backParts, hparts, hback, ?_, ?_, hclose, htracks, ?_⟩
  · intro row hrow
    exact (List.mem_append.1 hrow).elim (hread.texts row) fun hrow =>
      hlater.texts row (hsubset row hrow)
  · rw [State.readRows_append, hread.read]
    exact hrest
  · rw [List.flatMap_append, hread.parted]

/-- After a source and blocks with keys that are new, a heading with a key of the source is not
taken in. -/
theorem IsRead.exists_readRow_eq_duplicate
    (hread : IsRead (rows ++ front.flatMap BlockRows.rows) last closed blocks parts)
    (hlaid : ∀ block ∈ front, block.IsLaidOut) (hnew : ∀ block ∈ front, ¬HasKey rows block.key)
    {row : Row} {key : String} (hheads : row.Heads key) (hkey : IsKey key)
    (hmet : HasKey rows key) :
    ∃ first, HeadsAt rows key first ∧
      last.readRow row = .error ⟨row.number, .duplicateCategory key first⟩ := by
  obtain ⟨line, hline⟩ := hmet
  have hheading : (key, line) ∈ last.headings := by
    rw [State.mem_headings_iff hread.read, headsAt_append_iff]
    exact .inl hline
  obtain ⟨first, hfirst, hrow⟩ :=
    State.exists_readRow_eq_duplicate hread.close hheads hkey hheading
  refine ⟨first, ?_, hrow⟩
  rw [State.mem_headings_iff hread.read, headsAt_append_iff] at hfirst
  refine hfirst.resolve_right fun hlater => ?_
  obtain ⟨block, hblock, rfl, -⟩ := (BlockRows.headsAt_flatMap_rows_iff hlaid).1 hlater
  exact hnew block hblock ⟨line, hline⟩

/-- No heading with a property stands before that of the first block whose key has it. -/
theorem IsRead.number_le {first : BlockRows} {p : String → Prop}
    (hread : IsRead rows last closed (front ++ first :: back) parts)
    (hordered : rows.Pairwise fun row next => row.number < next.number)
    (hfront : ∀ block ∈ front, ¬p block.key) {key : String} {line : Nat}
    (hheads : HeadsAt rows key line) (hkey : p key) : first.heading.number ≤ line := by
  obtain ⟨block, hblock, rfl, rfl⟩ := hread.headsAt_iff.1 hheads
  rcases List.mem_append.1 hblock with hblock | hblock
  · exact absurd hkey (hfront block hblock)
  · rcases List.mem_cons.1 hblock with rfl | hblock
    · exact Nat.le_refl _
    · rw [← hread.parted, List.flatMap_append, List.flatMap_cons, List.pairwise_append,
        List.pairwise_append] at hordered
      have hmem : block.heading ∈ back.flatMap BlockRows.rows :=
        List.mem_flatMap.2 ⟨block, hblock, List.mem_cons_self⟩
      exact Nat.le_of_lt
        (hordered.2.1.2.2 first.heading List.mem_cons_self block.heading hmem)

end

/-- A key that heads a block in each of two texts, such that none of the headings of the second
text before it has a key of the first one. -/
structure IsFirstShared (text other : String) (key : String) (firstLine line : Nat) : Prop where
  first : HeadsAt (rows text) key firstLine
  shared : HeadsAt (rows other) key line
  earliest : ∀ earlier earlierLine, HeadsAt (rows other) earlier earlierLine →
    HasKey (rows text) earlier → line ≤ earlierLine

/-- The categories of two books, with the preamble of the one whose source has a settings block. -/
structure IsUnion (text other : String) (book otherBook union : Book) : Prop where
  categories : ∀ category, category ∈ union.categories ↔
    category ∈ book.categories ∨ category ∈ otherBook.categories
  preamble : HasKey (rows text) preambleKey → union.preamble = book.preamble
  otherPreamble : HasKey (rows other) preambleKey → union.preamble = otherBook.preamble
  defaultPreamble : ¬HasKey (rows text) preambleKey → ¬HasKey (rows other) preambleKey →
    union.preamble = Preamble.default

namespace IsUnion

variable {text other : String} {book otherBook union : Book}

theorem symm (hunion : IsUnion text other book otherBook union) :
    IsUnion other text otherBook book union where
  categories category := (hunion.categories category).trans or_comm
  preamble := hunion.otherPreamble
  otherPreamble := hunion.preamble
  defaultPreamble hother htext := hunion.defaultPreamble htext hother

theorem unique {second : Book} (hunion : IsUnion text other book otherBook union)
    (hsecond : IsUnion text other book otherBook second) : union = second := by
  refine Book.eq_of_mem_iff ?_ fun category =>
    (hunion.categories category).trans (hsecond.categories category).symm
  by_cases htext : HasKey (rows text) preambleKey
  · exact (hunion.preamble htext).trans (hsecond.preamble htext).symm
  · by_cases hother : HasKey (rows other) preambleKey
    · exact (hunion.otherPreamble hother).trans (hsecond.otherPreamble hother).symm
    · exact (hunion.defaultPreamble htext hother).trans
        (hsecond.defaultPreamble htext hother).symm

end IsUnion

section
variable {text other : String} {book otherBook : Book}

theorem exists_isRead (hparse : parse text = .ok book) :
    ∃ last closed blocks parts, IsRead (rows text) last closed blocks parts ∧
      closed.book = book := by
  have hread := IsRead.exists_of_parse hparse 0
  rwa [show (rows text).map (Row.shift 0) = rows text from List.map_id _] at hread

variable (hreturn : '\r' ∉ text.toList) (hparse : parse text = .ok book)
  (hotherParse : parse other = .ok otherBook)
include hreturn hparse hotherParse

theorem exists_union (hdisjoint : ∀ key, HasKey (rows text) key → ¬HasKey (rows other) key) :
    ∃ union, parse (text ++ "\n" ++ other) = .ok union ∧
      IsUnion text other book otherBook union := by
  obtain ⟨last, closed, blocks, parts, hread, rfl⟩ := exists_isRead hparse
  obtain ⟨_, laterClosed, laterBlocks, laterParts, hlater, rfl⟩ :=
    IsRead.exists_of_parse hotherParse (linesBefore text)
  have hnew : ∀ block ∈ laterBlocks, ¬HasKey (rows text) block.key := by
    intro block hblock hkey
    exact hdisjoint _ hkey (hasKey_shift_iff.1 (hlater.hasKey_iff.2 (List.mem_map_of_mem hblock)))
  rw [← List.append_nil laterBlocks] at hlater
  obtain ⟨_, unionClosed, frontParts, backParts, hparts, hback, hunion⟩ :=
    hread.exists_append hlater hnew
  obtain rfl : backParts = [] := List.forall₂_nil_left_iff.1 hback
  rw [List.append_nil] at hlater hparts
  subst hparts
  rw [hlater.parted] at hunion
  have hrows := rows_join hreturn other
  rw [rowsFrom_add, ← rows_eq_rowsFrom] at hrows
  have hbook := hread.tracks.isBookOf
  have hotherBook := hlater.tracks.isBookOf
  have hunionBook := hunion.tracks.isBookOf
  refine ⟨unionClosed.book, hunion.parse_eq hrows, ?_, ?_, ?_, ?_⟩
  · intro category
    rw [hunionBook.categories, hbook.categories, hotherBook.categories, List.mem_append]
  · intro hkey
    obtain ⟨preamble, hmem⟩ := hread.hasKey_preambleKey_iff.1 hkey
    rw [hunionBook.preamble preamble (List.mem_append_left _ hmem), hbook.preamble preamble hmem]
  · intro hkey
    obtain ⟨preamble, hmem⟩ := hlater.hasKey_preambleKey_iff.1 (hasKey_shift_iff.2 hkey)
    rw [hunionBook.preamble preamble (List.mem_append_right _ hmem),
      hotherBook.preamble preamble hmem]
  · intro hkey hotherKey
    refine hunionBook.defaultPreamble fun preamble hmem => ?_
    rcases List.mem_append.1 hmem with hmem | hmem
    · exact hkey (hread.hasKey_preambleKey_iff.2 ⟨preamble, hmem⟩)
    · exact hotherKey (hasKey_shift_iff.1 (hlater.hasKey_preambleKey_iff.2 ⟨preamble, hmem⟩))

/-- The first heading of the second source with a key of the first one is the fault. -/
theorem exists_duplicate (hshared : ∃ key, HasKey (rows text) key ∧ HasKey (rows other) key) :
    ∃ key firstLine line, IsFirstShared text other key firstLine line ∧
      parse (text ++ "\n" ++ other) =
        .error ⟨linesBefore text + line, .duplicateCategory key firstLine⟩ := by
  obtain ⟨last, closed, blocks, parts, hread, rfl⟩ := exists_isRead hparse
  obtain ⟨_, _, laterBlocks, _, hlater, -⟩ :=
    IsRead.exists_of_parse hotherParse (linesBefore text)
  obtain ⟨key, hkey, hotherKey⟩ := hshared
  obtain ⟨block, hblock, rfl⟩ :=
    List.mem_map.1 (hlater.hasKey_iff.1 (hasKey_shift_iff.2 hotherKey))
  obtain ⟨front, first, back, rfl, hfirst, hnew⟩ :=
    exists_first (p := fun block => HasKey (rows text) block.key) hblock hkey
  obtain ⟨frontLast, _, _, _, -, -, hfront⟩ := hread.exists_append hlater hnew
  obtain ⟨hheads, hfirstKey⟩ := (hlater.laidOut first (by simp)).heads
  have hlaid : ∀ block ∈ front, block.IsLaidOut := fun block hblock =>
    hlater.laidOut block (List.mem_append_left _ hblock)
  obtain ⟨firstLine, hfirstLine, hrow⟩ :=
    hfront.exists_readRow_eq_duplicate hlaid hnew hheads hfirstKey hfirst
  obtain ⟨line, hline, hnumber⟩ :=
    headsAt_shift_iff.1 (hlater.headsAt_iff.2 ⟨first, by simp, rfl, rfl⟩)
  refine ⟨first.key, firstLine, line, ⟨hfirstLine, hline, ?_⟩, ?_⟩
  · intro earlier earlierLine hearlier hmet
    have hordered := pairwise_rowsFrom (1 + linesBefore text) (Text.lines other.toList)
    rw [rowsFrom_add, ← rows_eq_rowsFrom] at hordered
    have hle := hlater.number_le hordered hnew (headsAt_shift_iff.2 ⟨earlierLine, hearlier, rfl⟩)
      hmet
    omega
  · rw [parse_eq_readRows, rows_join hreturn, rowsFrom_add, ← rows_eq_rowsFrom, ← hlater.parted,
      List.flatMap_append, ← List.append_assoc, State.readRows_append, hfront.read,
      List.flatMap_cons, BlockRows.rows, List.cons_append, Except.bind, State.readRows, hrow,
      ← hnumber, Nat.add_comm line]
    rfl

end

/-- Two sources with a line feed between them are read exactly when they share no key, as the
categories of both whichever comes first; else the first key that the second source shares with
the first one is a duplicate. -/
theorem parse_join {text other : String} {book otherBook : Book} (hreturn : '\r' ∉ text.toList)
    (hotherReturn : '\r' ∉ other.toList) (hparse : parse text = .ok book)
    (hotherParse : parse other = .ok otherBook) :
    ((∃ union, parse (text ++ "\n" ++ other) = .ok union) ↔
      ∀ key, ¬(HasKey (rows text) key ∧ HasKey (rows other) key)) ∧
    (∀ union, parse (text ++ "\n" ++ other) = .ok union →
      IsUnion text other book otherBook union ∧ parse (other ++ "\n" ++ text) = .ok union) ∧
    ∀ error, parse (text ++ "\n" ++ other) = .error error →
      ∃ key firstLine line, IsFirstShared text other key firstLine line ∧
        error = ⟨linesBefore text + line, .duplicateCategory key firstLine⟩ := by
  by_cases hshared : ∃ key, HasKey (rows text) key ∧ HasKey (rows other) key
  · obtain ⟨key, firstLine, line, hfirst, hjoined⟩ :=
      exists_duplicate hreturn hparse hotherParse hshared
    rw [hjoined]
    refine ⟨⟨nofun, fun hdisjoint => absurd hshared (not_exists.2 hdisjoint)⟩, nofun, ?_⟩
    intro error herror
    exact ⟨key, firstLine, line, hfirst, (Except.error.inj herror).symm⟩
  · have hdisjoint := not_exists.1 hshared
    obtain ⟨union, hjoined, hunion⟩ := exists_union hreturn hparse hotherParse fun key hkey
      hother => hdisjoint key ⟨hkey, hother⟩
    obtain ⟨swapped, hswapped, hsame⟩ := exists_union hotherReturn hotherParse hparse fun key
      hother hkey => hdisjoint key ⟨hkey, hother⟩
    obtain rfl : union = swapped := hunion.unique hsame.symm
    rw [hjoined]
    refine ⟨⟨fun _ => hdisjoint, fun _ => ⟨union, rfl⟩⟩, ?_, nofun⟩
    intro other hother
    obtain rfl := Except.ok.inj hother
    exact ⟨hunion, hswapped⟩

/-- A heading that comes again after two others, of which the settings come first. -/
theorem parse_join_again :
    ∃ book otherBook, parse "# people\na:\n- x\n  y\nb :\n-" = .ok book ∧
      parse "%preamble:\n\n  duration: 3\nb:\n- {{ c }}\na:\n- z\n" = .ok otherBook ∧
      parse ("# people\na:\n- x\n  y\nb :\n-\n" ++
          "%preamble:\n\n  duration: 3\nb:\n- {{ c }}\na:\n- z\n") =
        .error ⟨10, .duplicateCategory "b" 5⟩ ∧
      IsFirstShared "# people\na:\n- x\n  y\nb :\n-"
        "%preamble:\n\n  duration: 3\nb:\n- {{ c }}\na:\n- z\n" "b" 5 4 := by
  obtain ⟨book, hparse, -⟩ := exists_parse_of_test "# people\na:\n- x\n  y\nb :\n-"
    (fun _ => true) (by decide +kernel)
  obtain ⟨otherBook, hotherParse, -⟩ := exists_parse_of_test
    "%preamble:\n\n  duration: 3\nb:\n- {{ c }}\na:\n- z\n" (fun _ => true) (by decide +kernel)
  have hjoined : parse ("# people\na:\n- x\n  y\nb :\n-" ++ "\n" ++
      "%preamble:\n\n  duration: 3\nb:\n- {{ c }}\na:\n- z\n") =
        .error ⟨10, .duplicateCategory "b" 5⟩ := eq_error_of_fault? (by decide +kernel)
  refine ⟨book, otherBook, hparse, hotherParse, hjoined, ?_⟩
  obtain ⟨key, firstLine, line, hfirst, herror⟩ :=
    (parse_join (by decide +kernel) (by decide +kernel) hparse hotherParse).2.2 _ hjoined
  have hline : 10 = 6 + line := congrArg Error.line herror
  have hcause : Cause.duplicateCategory "b" 5 = .duplicateCategory key firstLine :=
    congrArg Error.cause herror
  obtain ⟨rfl, rfl⟩ := Cause.duplicateCategory.inj hcause
  obtain rfl : line = 4 := by omega
  exact hfirst

end Phrasebook.Source
