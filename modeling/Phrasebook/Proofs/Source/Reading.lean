import Phrasebook.Proofs.Book.Entries
import Phrasebook.Proofs.Source.Closing

/-!
# Reading sources

The reader tracks the blocks of a source: after any rows it is in the state that the
blocks closed so far, the parts that they write and the block being read determine. Each
row either lets one more block be tracked or makes the source no source.
-/

namespace Phrasebook.Source

namespace State

/-- The reader has read the rows of some blocks, which write the given parts, and of the
block that it is reading, if any. -/
structure Tracks (state : State) (blocks : List BlockRows) (parts : List Part)
    (current : Option BlockRows) : Prop where
  untabbed : ∀ row ∈ (blocks ++ current.toList).flatMap BlockRows.rows, '\t' ∉ row.leading
  laidOut : ∀ block ∈ blocks ++ current.toList, block.IsLaidOut
  distinct : ((blocks ++ current.toList).map BlockRows.key).Nodup
  written : List.Forall₂ BlockRows.Writes blocks parts
  headings : state.headings.map Prod.fst = ((blocks ++ current.toList).map BlockRows.key).reverse
  categories : state.categories = (parts.foldl finish start).categories
  preamble : state.preamble = (parts.foldl finish start).preamble
  block : state.block = current.map BlockRows.block

theorem tracks_start : start.Tracks [] [] none where
  untabbed := by simp
  laidOut := by simp
  distinct := List.nodup_nil
  written := .nil
  headings := rfl
  categories := rfl
  preamble := rfl
  block := rfl

/-! ## Steps -/

theorem finish_congr {state other : State} (hcategories : state.categories = other.categories)
    (hpreamble : state.preamble = other.preamble) (part : Part) :
    (state.finish part).categories = (other.finish part).categories ∧
      (state.finish part).preamble = (other.finish part).preamble := by
  cases part with
  | category category => exact ⟨congrArg (category :: ·) hcategories, hpreamble⟩
  | preamble preamble => exact ⟨hcategories, rfl⟩

theorem headings_finish (state : State) (part : Part) :
    (state.finish part).headings = state.headings := by
  cases part <;> rfl

theorem block_finish (state : State) (part : Part) : (state.finish part).block = none := by
  cases part <;> rfl

variable {state : State} {blocks : List BlockRows} {parts : List Part}

theorem Tracks.finish {block : BlockRows} {part : Part}
    (htracks : state.Tracks blocks parts (some block)) (hwrites : block.Writes part) :
    (state.finish part).Tracks (blocks ++ [block]) (parts ++ [part]) none := by
  obtain ⟨hcategories, hpreamble⟩ := finish_congr htracks.categories htracks.preamble part
  exact {
    untabbed := by simpa using htracks.untabbed
    laidOut := by simpa using htracks.laidOut
    distinct := by simpa using htracks.distinct
    written := List.rel_append htracks.written (.cons hwrites .nil)
    headings := by
      rw [headings_finish, htracks.headings]
      simp
    categories := by
      rw [hcategories, List.foldl_append]
      rfl
    preamble := by
      rw [hpreamble, List.foldl_append]
      rfl
    block := block_finish state part }

theorem isLaidOut_start {heading : Row} {key : String} (hheads : heading.Heads key)
    (hkey : IsKey key) : (BlockRows.start heading key).IsLaidOut := by
  unfold BlockRows.start
  split
  · next heq =>
    exact .settings 1 (heq ▸ hheads) Nat.one_pos (by simp) (by simp)
  · next hne => exact .category 0 hheads (hkey.resolve_left hne) (by simp)

theorem Tracks.opened {heading : Row} {key : String} (htracks : state.Tracks blocks parts none)
    (hheads : heading.Heads key) (hkey : IsKey key) (hfresh : key ∉ blocks.map BlockRows.key) :
    (state.opened heading key).Tracks blocks parts (some (BlockRows.start heading key)) where
  untabbed := by
    intro row hrow
    rw [Option.toList_some, List.flatMap_append, List.mem_append] at hrow
    rcases hrow with hrow | hrow
    · exact htracks.untabbed row (by simpa using hrow)
    · obtain rfl : row = heading := by simpa [BlockRows.start_rows] using hrow
      simp [hheads.unindented]
  laidOut := by
    intro block hblock
    rcases List.mem_append.1 hblock with hblock | hblock
    · exact htracks.laidOut block (List.mem_append_left _ hblock)
    · obtain rfl : block = BlockRows.start heading key := by simpa using hblock
      exact isLaidOut_start hheads hkey
  distinct := by
    have hblocks : (blocks.map BlockRows.key).Nodup := by simpa using htracks.distinct
    rw [List.map_append, List.nodup_append]
    refine ⟨hblocks, by simp, ?_⟩
    intro other hother last hlast
    obtain rfl : last = key := by simpa [BlockRows.start_key] using hlast
    rintro rfl
    exact hfresh hother
  written := htracks.written
  headings := by
    rw [State.opened, List.map_cons, htracks.headings]
    simp [BlockRows.start_key]
  categories := htracks.categories
  preamble := htracks.preamble
  block := rfl

theorem Tracks.grown {block grown : BlockRows} {row : Row}
    (htracks : state.Tracks blocks parts (some block)) (htab : '\t' ∉ row.leading)
    (hgrows : block.Grows row grown) (hlaid : grown.IsLaidOut) :
    State.Tracks { state with block := some grown.block } blocks parts (some grown) where
  untabbed := by
    intro other hother
    rw [Option.toList_some, List.flatMap_append, List.flatMap_singleton, hgrows.rows,
      ← List.append_assoc, List.mem_append] at hother
    rcases hother with hother | hother
    · exact htracks.untabbed other (by simpa using hother)
    · exact List.mem_singleton.1 hother ▸ htab
  laidOut := by
    intro other hother
    rcases List.mem_append.1 hother with hother | hother
    · exact htracks.laidOut other (List.mem_append_left _ hother)
    · obtain rfl : other = grown := by simpa using hother
      exact hlaid
  distinct := by simpa [hgrows.key.1] using htracks.distinct
  written := htracks.written
  headings := by
    have hheadings := htracks.headings
    simp only [Option.toList_some, List.map_append, List.map_singleton, hgrows.key.1] at hheadings ⊢
    exact hheadings
  categories := htracks.categories
  preamble := htracks.preamble
  block := rfl

/-! ## Soundness -/

/-- No block is being read before the first heading, and nothing else may come first. -/
theorem readRow_ne_ok_of_closed {next : State} {row : Row} (hblock : state.block = none)
    (hrow : row.IsItem ∨ row.leading ≠ []) : state.readRow row ≠ .ok next := by
  intro hread
  by_cases htab : '\t' ∈ row.leading
  · rw [readRow, row.line_of_tab htab] at hread
    cases hread
  · by_cases hitem : row.IsItem
    · rw [readRow_of_isItem htab hitem, readItem, hblock] at hread
      cases hread
    · rw [readRow_of_indented htab hitem (hrow.resolve_left hitem), readIndented, hblock] at hread
      cases hread

section
variable {current : Option BlockRows}
  (htexts : ∀ row ∈ (blocks ++ current.toList).flatMap BlockRows.rows, row.text ≠ [])
include htexts

theorem Tracks.of_close {closed : State} (htracks : state.Tracks blocks parts current)
    (hclose : state.close = .ok closed) :
    ∃ parts', closed.Tracks (blocks ++ current.toList) parts' none := by
  cases current with
  | none =>
      rw [close, htracks.block] at hclose
      cases hclose
      exact ⟨parts, by simpa using htracks⟩
  | some block =>
      have hlaid : block.IsLaidOut := htracks.laidOut block (by simp)
      have hblock : ∀ row ∈ block.rows, row.text ≠ [] := fun row hrow =>
        htexts row (List.mem_flatMap.2 ⟨block, by simp, hrow⟩)
      obtain ⟨part, hwrites, rfl⟩ := (close_eq_ok_iff htracks.block hlaid hblock).1 hclose
      exact ⟨parts ++ [part], htracks.finish hwrites⟩

/-- A row is read only as part of a block. -/
theorem Tracks.of_readRow {next : State} {row : Row} (htracks : state.Tracks blocks parts current)
    (hread : state.readRow row = .ok next) :
    ∃ blocks' parts' current', next.Tracks blocks' parts' current' ∧
      (blocks' ++ current'.toList).flatMap BlockRows.rows =
        (blocks ++ current.toList).flatMap BlockRows.rows ++ [row] := by
  by_cases hrow : row.IsItem ∨ row.leading ≠ []
  · cases current with
    | none => exact (readRow_ne_ok_of_closed htracks.block hrow hread).elim
    | some block =>
        have hlaid : block.IsLaidOut := htracks.laidOut block (by simp)
        obtain ⟨htab, grown, hgrows, hgrown, rfl⟩ :=
          (readRow_eq_ok_iff_grows htracks.block hlaid hrow).1 hread
        refine ⟨blocks, parts, some grown, htracks.grown htab hgrows hgrown, ?_⟩
        simp [hgrows.rows]
  · obtain ⟨hitem, hleading⟩ : ¬row.IsItem ∧ row.leading = [] := by simpa using hrow
    obtain ⟨closed, key, hclose, hheads, hkey, hfresh, rfl⟩ :=
      (readRow_eq_ok_iff_of_unindented hleading hitem).1 hread
    obtain ⟨parts', hclosed⟩ := htracks.of_close htexts hclose
    rw [hclosed.headings, List.mem_reverse] at hfresh
    refine ⟨_, parts', _, hclosed.opened hheads hkey (by simpa using hfresh), ?_⟩
    simp [BlockRows.start_rows]

end

theorem Tracks.of_readRows {last : State} {current : Option BlockRows} {rows : List Row}
    (htexts : ∀ row ∈ (blocks ++ current.toList).flatMap BlockRows.rows ++ rows, row.text ≠ [])
    (htracks : state.Tracks blocks parts current) (hread : state.readRows rows = .ok last) :
    ∃ blocks' parts' current', last.Tracks blocks' parts' current' ∧
      (blocks' ++ current'.toList).flatMap BlockRows.rows =
        (blocks ++ current.toList).flatMap BlockRows.rows ++ rows := by
  induction rows generalizing state blocks parts current with
  | nil =>
      cases hread
      exact ⟨blocks, parts, current, htracks, (List.append_nil _).symm⟩
  | cons row rows ih =>
      obtain ⟨next, hrow, hrest⟩ := readRow_of_readRows_ok hread
      obtain ⟨blocks', parts', current', hnext, hrows⟩ :=
        htracks.of_readRow (fun row hrow => htexts row (List.mem_append_left _ hrow)) hrow
      rw [List.append_cons, ← hrows] at htexts ⊢
      exact ih htexts hnext hrest

/-! ## Completeness -/

theorem eq_start_of_isLaidOut {block : BlockRows} (hlaid : block.IsLaidOut)
    (hbody : block.body = []) :
    block = BlockRows.start block.heading block.key ∧ block.heading.Heads block.key ∧
      IsKey block.key := by
  cases hlaid with
  | @category heading name items indent hheads hvalid hitems =>
      obtain rfl : items = [] := by
        cases items with
        | nil => rfl
        | cons item items => cases hbody
      have hne : name ≠ preambleKey := by
        rintro rfl
        rw [Name.isValid_preambleKey] at hvalid
        cases hvalid
      exact ⟨(if_neg hne).symm, hheads, .inr hvalid⟩
  | @settings heading lines indent hheads hpos hlines hnodup =>
      obtain rfl : lines = [] := List.map_eq_nil_iff.1 hbody
      exact ⟨rfl, hheads, .inl rfl⟩

/-- The rows of a block that is laid out as one, with a new key, are read once the block
before it closes. -/
theorem Tracks.exists_readRows {closed : State} {block : BlockRows}
    (hclose : state.close = .ok closed) (htracks : closed.Tracks blocks parts none)
    (hlaid : block.IsLaidOut) (huntabbed : ∀ row ∈ block.rows, '\t' ∉ row.leading)
    (hfresh : block.key ∉ blocks.map BlockRows.key) :
    ∃ next, state.readRows block.rows = .ok next ∧ next.Tracks blocks parts (some block) := by
  -- The induction takes the last row off the block.
  induction hlength : block.body.length generalizing block with
  | zero =>
      have hbody : block.body = [] := List.length_eq_zero_iff.1 hlength
      obtain ⟨hstart, hheads, hkey⟩ := eq_start_of_isLaidOut hlaid hbody
      have hread : state.readRow block.heading = .ok (closed.opened block.heading block.key) := by
        refine (readRow_eq_ok_iff_of_unindented hheads.unindented hheads.unmarked).2
          ⟨closed, block.key, hclose, hheads, hkey, ?_, rfl⟩
        rw [htracks.headings]
        simpa using hfresh
      refine ⟨closed.opened block.heading block.key, ?_, ?_⟩
      · rw [BlockRows.rows, hbody, readRows_cons_of_ok hread]
        rfl
      · have hopened := htracks.opened hheads hkey hfresh
        rwa [← hstart] at hopened
  | succ n ih =>
      have hbody : block.body ≠ [] := List.ne_nil_of_length_eq_add_one hlength
      obtain ⟨smaller, row, hgrows⟩ := BlockRows.exists_grows hbody
      have hrows := hgrows.rows
      have hshorter : smaller.body.length = n := by
        have hlengths := congrArg List.length hrows
        simp only [BlockRows.rows, List.length_append, List.length_cons,
          List.length_nil] at hlengths
        omega
      rw [hrows] at huntabbed
      have hlaidSmaller : smaller.IsLaidOut := hlaid.of_grows hgrows
      have hfreshSmaller : smaller.key ∉ blocks.map BlockRows.key := hgrows.key.1 ▸ hfresh
      obtain ⟨before, hbefore, hsmaller⟩ := ih hlaidSmaller
        (fun row hrow => huntabbed row (List.mem_append_left _ hrow)) hfreshSmaller hshorter
      have htab : '\t' ∉ row.leading := huntabbed row (by simp)
      have hread := (readRow_eq_ok_iff_grows hsmaller.block hlaidSmaller
        (hgrows.isItem_or_indented hlaid)).2 ⟨htab, block, hgrows, hlaid, rfl⟩
      refine ⟨_, ?_, hsmaller.grown htab hgrows hlaid⟩
      rw [hrows, readRows_append, hbefore]
      exact readRows_cons_of_ok hread []

theorem Tracks.exists_readRows_of_writes {closed : State} {front : List BlockRows}
    {fparts : List Part} (hclose : state.close = .ok closed)
    (htracks : closed.Tracks front fparts none)
    (hwritten : List.Forall₂ BlockRows.Writes blocks parts)
    (hlaid : ∀ block ∈ blocks, block.IsLaidOut)
    (huntabbed : ∀ row ∈ blocks.flatMap BlockRows.rows, '\t' ∉ row.leading)
    (htexts : ∀ row ∈ blocks.flatMap BlockRows.rows, row.text ≠ [])
    (hdistinct : ((front ++ blocks).map BlockRows.key).Nodup) :
    ∃ last closed', state.readRows (blocks.flatMap BlockRows.rows) = .ok last ∧
      last.close = .ok closed' ∧ closed'.Tracks (front ++ blocks) (fparts ++ parts) none := by
  induction hwritten generalizing state closed front fparts with
  | nil =>
      refine ⟨state, closed, rfl, hclose, ?_⟩
      rwa [List.append_nil, List.append_nil]
  | @cons block part blocks parts hwrites hwritten ih =>
      rw [List.flatMap_cons] at huntabbed htexts ⊢
      have hfresh : block.key ∉ front.map BlockRows.key := by
        rw [List.map_append, List.map_cons, List.nodup_append] at hdistinct
        exact fun hmem => hdistinct.2.2 _ hmem _ List.mem_cons_self rfl
      obtain ⟨next, hread, hnext⟩ := htracks.exists_readRows hclose
        (hlaid block List.mem_cons_self)
        (fun row hrow => huntabbed row (List.mem_append_left _ hrow)) hfresh
      have hclosed : next.close = .ok (next.finish part) :=
        (close_eq_ok_iff hnext.block (hlaid block List.mem_cons_self)
          fun row hrow => htexts row (List.mem_append_left _ hrow)).2 ⟨part, hwrites, rfl⟩
      obtain ⟨last, closed', hrest, hlast, htracked⟩ := ih hclosed (hnext.finish hwrites)
        (fun block hblock => hlaid block (List.mem_cons_of_mem _ hblock))
        (fun row hrow => huntabbed row (List.mem_append_right _ hrow))
        (fun row hrow => htexts row (List.mem_append_right _ hrow)) (by simpa using hdistinct)
      refine ⟨last, closed', ?_, hlast, by simpa using htracked⟩
      rw [readRows_append, hread]
      exact hrest

end State

end Phrasebook.Source
