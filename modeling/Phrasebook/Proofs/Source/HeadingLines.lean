import Phrasebook.Proofs.Source.Closing

/-!
# Lines of headings

Each row is found in the text by its number. A key heads a block at the line of its heading, and
whatever rows the reader has taken in, the headings that it remembers are those of the keys that
head blocks in them.
-/

namespace Phrasebook.Source

/-! ## Numbers of rows -/

theorem Row.eq_of_ofLine? {number : Nat} {cs : List Char} {row : Row}
    (hrow : ofLine? number cs = some row) :
    row = ⟨number, cs.takeWhile Text.isIndent, cs.dropWhile Text.isIndent⟩ := by
  unfold ofLine? at hrow
  dsimp only at hrow
  split at hrow
  · cases hrow
  · exact (Option.some.inj hrow).symm

theorem mem_rowsFrom_iff {number : Nat} {lines : List (List Char)} {row : Row} :
    row ∈ rowsFrom number lines ↔ number ≤ row.number ∧ ∃ line,
      lines[row.number - number]? = some line ∧
        Row.ofLine? row.number (Text.withoutReturn line) = some row := by
  rw [rowsFrom, List.mem_filterMap]
  constructor
  · intro hmem
    obtain ⟨⟨line, n⟩, hline, hrow⟩ := hmem
    obtain rfl : row.number = n := congrArg Row.number (Row.eq_of_ofLine? hrow)
    obtain ⟨hle, hget⟩ := List.mk_mem_zipIdx_iff_le_and_getElem?_sub.1 hline
    exact ⟨hle, line, hget, hrow⟩
  · intro hfound
    obtain ⟨hle, line, hget, hrow⟩ := hfound
    exact ⟨(line, row.number), List.mk_mem_zipIdx_iff_le_and_getElem?_sub.2 ⟨hle, hget⟩, hrow⟩

/-- Rows stand in the order of their numbers. -/
theorem pairwise_rowsFrom (number : Nat) (lines : List (List Char)) :
    (rowsFrom number lines).Pairwise fun row later => row.number < later.number := by
  induction lines generalizing number with
  | nil => exact .nil
  | cons line lines ih =>
      rw [rowsFrom_cons, List.pairwise_append]
      refine ⟨?_, ih (number + 1), ?_⟩
      · cases Row.ofLine? number (Text.withoutReturn line) with
        | none => exact .nil
        | some row => exact List.pairwise_singleton _ row
      · intro row hrow later hlater
        have hnumber : row.number = number := by
          rw [Option.mem_toList] at hrow
          exact congrArg Row.number (Row.eq_of_ofLine? hrow)
        have habove := (mem_rowsFrom_iff.1 hlater).1
        omega

/-! ## Headings -/

/-- A row that is neither indented nor an item ends the block before it. -/
def Row.EndsBlock (row : Row) : Prop := row.leading = [] ∧ ¬row.IsItem

theorem Row.Heads.endsBlock {row : Row} {key : String} (hheads : row.Heads key) :
    row.EndsBlock := ⟨hheads.unindented, hheads.unmarked⟩

/-- A row is the heading of one key at most. -/
theorem Row.Heads.unique {row : Row} {key other : String} (hheads : row.Heads key)
    (hkey : IsKey key) (hother : row.Heads other) (hotherKey : IsKey other) : key = other := by
  have hread := (headingKey_eq_ok_iff hheads.unindented hheads.unmarked).2 ⟨hheads, hkey⟩
  have hreadOther :=
    (headingKey_eq_ok_iff hheads.unindented hheads.unmarked).2 ⟨hother, hotherKey⟩
  exact Except.ok.inj (hread.symm.trans hreadOther)

/-- A key, which is a name or the key of the settings, heads a block at a line. -/
def HeadsAt (rows : List Row) (key : String) (line : Nat) : Prop :=
  ∃ row ∈ rows, row.number = line ∧ row.Heads key ∧ IsKey key

def HasKey (rows : List Row) (key : String) : Prop := ∃ line, HeadsAt rows key line

theorem headsAt_append_iff {rows later : List Row} {key : String} {line : Nat} :
    HeadsAt (rows ++ later) key line ↔ HeadsAt rows key line ∨ HeadsAt later key line := by
  simp only [HeadsAt, List.mem_append, or_and_right, exists_or]

theorem headsAt_cons_iff {row : Row} {rows : List Row} {key : String} {line : Nat} :
    HeadsAt (row :: rows) key line ↔
      (row.number = line ∧ row.Heads key ∧ IsKey key) ∨ HeadsAt rows key line := by
  simp only [HeadsAt, List.mem_cons, exists_eq_or_imp]

namespace BlockRows

theorem IsLaidOut.heads {block : BlockRows} (hlaid : block.IsLaidOut) :
    block.heading.Heads block.key ∧ IsKey block.key := by
  cases hlaid with
  | category indent hheads hvalid hitems => exact ⟨hheads, .inr hvalid⟩
  | settings indent hheads hpos hlines hnodup => exact ⟨hheads, .inl rfl⟩

/-- No row of a block but its heading ends the block before it. -/
theorem IsLaidOut.not_endsBlock {block : BlockRows} (hlaid : block.IsLaidOut) :
    ∀ row ∈ block.body, ¬row.EndsBlock := by
  intro row hrow hends
  have hindent : row.indent = 0 := List.length_eq_zero_iff.2 hends.1
  cases hlaid with
  | category indent hheads hvalid hitems =>
      obtain ⟨item, hitem, hrow⟩ := List.mem_flatMap.1 hrow
      have hstands := hitems item hitem
      rcases List.mem_cons.1 hrow with rfl | hrow
      · exact hends.2 hstands.marked
      · have hdeeper := (hstands.deeper row hrow).2
        omega
  | settings indent hheads hpos hlines hnodup =>
      obtain ⟨line, hline, rfl⟩ := List.mem_map.1 hrow
      have haligned := (hlines line hline).aligned
      omega

/-- The keys that head blocks in the rows of some blocks are the keys of these blocks. -/
theorem headsAt_flatMap_rows_iff {blocks : List BlockRows}
    (hlaid : ∀ block ∈ blocks, block.IsLaidOut) {key : String} {line : Nat} :
    HeadsAt (blocks.flatMap rows) key line ↔
      ∃ block ∈ blocks, block.key = key ∧ block.heading.number = line := by
  constructor
  · intro hheadsAt
    obtain ⟨row, hrow, hnumber, hheads, hkey⟩ := hheadsAt
    obtain ⟨block, hblock, hrow⟩ := List.mem_flatMap.1 hrow
    obtain ⟨hblockHeads, hblockKey⟩ := (hlaid block hblock).heads
    rcases List.mem_cons.1 hrow with rfl | hrow
    · exact ⟨block, hblock, hblockHeads.unique hblockKey hheads hkey, hnumber⟩
    · exact absurd hheads.endsBlock ((hlaid block hblock).not_endsBlock row hrow)
  · intro hblock
    obtain ⟨block, hblock, rfl, hnumber⟩ := hblock
    obtain ⟨hheads, hkey⟩ := (hlaid block hblock).heads
    have hmem : block.heading ∈ blocks.flatMap rows :=
      List.mem_flatMap.2 ⟨block, hblock, List.mem_cons_self⟩
    exact ⟨block.heading, hmem, hnumber, hheads, hkey⟩

end BlockRows

/-! ## Headings that the reader has met -/

namespace State

variable {state next : State}

theorem headings_of_close (hclose : state.close = .ok next) : next.headings = state.headings := by
  unfold close at hclose
  split at hclose
  · cases hclose
    rfl
  · cases hclose
    rfl
  · split at hclose
    · cases hclose
    · split at hclose
      · cases hclose
      · cases hclose
        rfl

theorem headings_of_readItem {line indent gap : Nat} {content : List Char}
    (hread : state.readItem line indent gap content = .ok next) :
    next.headings = state.headings := by
  unfold readItem at hread
  split at hread
  · cases hread
  · cases hread
  · split at hread
    · cases hread
    · cases hread
      rfl

theorem headings_of_readIndented {line indent : Nat} {body : List Char}
    (hread : state.readIndented line indent body = .ok next) :
    next.headings = state.headings := by
  unfold readIndented at hread
  split at hread
  · cases hread
  · split at hread
    · cases hread
    · split at hread
      · cases hread
      · cases hread
        rfl
  · split at hread
    · split at hread
      · cases hread
        rfl
      · cases hread
    · cases hread

/-- Only a row that ends a block adds a heading. -/
theorem headings_of_readRow {row : Row} (hrow : ¬row.EndsBlock)
    (hread : state.readRow row = .ok next) : next.headings = state.headings := by
  by_cases htab : '\t' ∈ row.leading
  · rw [readRow, row.line_of_tab htab] at hread
    cases hread
  · by_cases hitem : row.IsItem
    · rw [readRow_of_isItem htab hitem] at hread
      exact headings_of_readItem hread
    · have hleading : row.leading ≠ [] := fun hleading => hrow ⟨hleading, hitem⟩
      rw [readRow_of_indented htab hitem hleading] at hread
      exact headings_of_readIndented hread

theorem mem_headings_of_readRow {row : Row} (hread : state.readRow row = .ok next) (key : String)
    (line : Nat) : (key, line) ∈ next.headings ↔
      (key, line) ∈ state.headings ∨ row.number = line ∧ row.Heads key ∧ IsKey key := by
  by_cases hrow : row.EndsBlock
  · obtain ⟨closed, met, hclose, hheads, hkey, -, rfl⟩ :=
      (readRow_eq_ok_iff_of_unindented hrow.1 hrow.2).1 hread
    rw [opened, headings_of_close hclose, List.mem_cons, Prod.mk.injEq, or_comm]
    refine or_congr_right ?_
    constructor
    · intro heq
      obtain ⟨rfl, rfl⟩ := heq
      exact ⟨rfl, hheads, hkey⟩
    · intro hheading
      obtain ⟨rfl, hother, hotherKey⟩ := hheading
      exact ⟨hother.unique hotherKey hheads hkey, rfl⟩
  · rw [headings_of_readRow hrow hread]
    exact (or_iff_left fun hheading => hrow hheading.2.1.endsBlock).symm

/-- The reader has met the headings of the rows that it has taken in. -/
theorem mem_headings_of_readRows {rows : List Row} (hread : state.readRows rows = .ok next)
    (key : String) (line : Nat) :
    (key, line) ∈ next.headings ↔ (key, line) ∈ state.headings ∨ HeadsAt rows key line := by
  induction rows generalizing state with
  | nil =>
      cases hread
      simp [HeadsAt]
  | cons row rows ih =>
      obtain ⟨middle, hrow, hrest⟩ := readRow_of_readRows_ok hread
      rw [ih hrest, mem_headings_of_readRow hrow, headsAt_cons_iff, or_assoc]

theorem mem_headings_iff {rows : List Row} (hread : start.readRows rows = .ok next)
    (key : String) (line : Nat) : (key, line) ∈ next.headings ↔ HeadsAt rows key line := by
  rw [mem_headings_of_readRows hread]
  exact or_iff_right List.not_mem_nil

/-- A heading is not taken in when its key was met before. -/
theorem exists_readRow_eq_duplicate {closed : State} {row : Row} {key : String} {line : Nat}
    (hclose : state.close = .ok closed) (hheads : row.Heads key) (hkey : IsKey key)
    (hmet : (key, line) ∈ state.headings) :
    ∃ first, (key, first) ∈ state.headings ∧
      state.readRow row = .error ⟨row.number, .duplicateCategory key first⟩ := by
  have htab : '\t' ∉ row.leading := by simp [hheads.unindented]
  rw [readRow, row.line_of_unindented htab hheads.unmarked hheads.unindented, read, openBlock,
    hclose, ← headings_of_close hclose]
  rw [← headings_of_close hclose] at hmet
  simp only [(headingKey_eq_ok_iff hheads.unindented hheads.unmarked).2 ⟨hheads, hkey⟩]
  cases hfind : closed.headings.find? (·.1 == key) with
  | none =>
      have hnew := find?_headings_eq_none_iff.1 hfind
      exact absurd (List.mem_map_of_mem hmet) hnew
  | some found =>
      obtain ⟨met, first⟩ := found
      obtain rfl : met = key := by simpa using List.find?_some hfind
      exact ⟨first, List.mem_of_find?_eq_some hfind, rfl⟩

end State

end Phrasebook.Source
