import Phrasebook.Proofs.Source.Reading

/-!
# What is read

A text is read exactly when it is a source, and the book that is read is the one that
its blocks write.
-/

namespace Phrasebook.Source

/-! ## Parts of a book -/

namespace Part

def key : Part → String
  | .category written => written.name
  | .preamble _ => preambleKey

def category? : Part → Option Category
  | .category written => some written
  | .preamble _ => none

theorem category?_eq_some_iff {part : Part} {written : Category} :
    part.category? = some written ↔ part = .category written := by
  cases part <;> simp [category?]

theorem sublist_keys (parts : List Part) :
    ((parts.filterMap category?).map Category.name).Sublist (parts.map key) := by
  induction parts with
  | nil => exact List.Sublist.slnil
  | cons part parts ih =>
      cases part with
      | category written => exact ih.cons_cons written.name
      | preamble preamble => exact ih.cons preambleKey

end Part

theorem keys_of_writes {blocks : List BlockRows} {parts : List Part}
    (hwritten : List.Forall₂ BlockRows.Writes blocks parts) :
    parts.map Part.key = blocks.map BlockRows.key := by
  induction hwritten with
  | nil => rfl
  | cons hwrites hwritten ih =>
      rw [List.map_cons, List.map_cons, ih]
      cases hwrites <;> rfl

namespace State

theorem categories_foldl_finish (parts : List Part) (state : State) :
    (parts.foldl finish state).categories =
      (parts.filterMap Part.category?).reverse ++ state.categories := by
  induction parts generalizing state with
  | nil => rfl
  | cons part parts ih =>
      rw [List.foldl_cons, ih]
      cases part <;> simp [finish, Part.category?, List.filterMap_cons]

theorem preamble_foldl_finish_of_not_mem {parts : List Part}
    (hnone : ∀ preamble, .preamble preamble ∉ parts) (state : State) :
    (parts.foldl finish state).preamble = state.preamble := by
  induction parts generalizing state with
  | nil => rfl
  | cons part parts ih =>
      rw [List.foldl_cons, ih fun preamble hmem => hnone preamble (List.mem_cons_of_mem _ hmem)]
      cases part with
      | category category => rfl
      | preamble preamble => exact (hnone preamble List.mem_cons_self).elim

theorem preamble_foldl_finish_of_mem {parts : List Part} {preamble : Preamble}
    (hdistinct : (parts.map Part.key).Nodup) (hmem : .preamble preamble ∈ parts) (state : State) :
    (parts.foldl finish state).preamble = preamble := by
  induction parts generalizing state with
  | nil => cases hmem
  | cons part parts ih =>
      obtain ⟨hfirst, hrest⟩ := List.nodup_cons.1 (List.map_cons ▸ hdistinct)
      rcases List.mem_cons.1 hmem with rfl | hmem
      · have hnone : ∀ other, .preamble other ∉ parts := fun other hother =>
          hfirst (List.mem_map.2 ⟨_, hother, rfl⟩)
        exact preamble_foldl_finish_of_not_mem hnone (state.finish (.preamble preamble))
      · exact ih hrest hmem (state.finish part)

/-- The book of a state that has tracked a source is the book of the parts. -/
theorem Tracks.isBookOf {state : State} {blocks : List BlockRows} {parts : List Part}
    (htracks : state.Tracks blocks parts none) : IsBookOf parts state.book := by
  have hdistinct : (parts.map Part.key).Nodup := by
    rw [keys_of_writes htracks.written]
    simpa using htracks.distinct
  have hcategories : state.categories.reverse = parts.filterMap Part.category? := by
    rw [htracks.categories, categories_foldl_finish, start, List.append_nil, List.reverse_reverse]
  constructor
  · intro category
    rw [book, hcategories, Book.mem_ofCategories ((Part.sublist_keys parts).nodup hdistinct),
      List.mem_filterMap]
    simp only [Part.category?_eq_some_iff, exists_eq_right]
  · intro preamble hmem
    rw [book, Book.preamble_ofCategories, htracks.preamble]
    exact preamble_foldl_finish_of_mem hdistinct hmem start
  · intro hnone
    rw [book, Book.preamble_ofCategories, htracks.preamble]
    exact preamble_foldl_finish_of_not_mem hnone start

end State

theorem IsBookOf.unique {parts : List Part} {book other : Book} (hbook : IsBookOf parts book)
    (hother : IsBookOf parts other) : book = other := by
  refine Book.eq_of_mem_iff ?_ fun category =>
    (hbook.categories category).trans (hother.categories category).symm
  by_cases hgiven : ∃ preamble, .preamble preamble ∈ parts
  · obtain ⟨preamble, hmem⟩ := hgiven
    rw [hbook.preamble preamble hmem, hother.preamble preamble hmem]
  · rw [not_exists] at hgiven
    rw [hbook.defaultPreamble hgiven, hother.defaultPreamble hgiven]

/-! ## Soundness and completeness -/

/-- A text that is read is a source, of which the book is made. -/
theorem exists_isSource_of_parse {text : String} {book : Book} (hparse : parse text = .ok book) :
    ∃ blocks parts, IsSource text blocks parts ∧ IsBookOf parts book := by
  rw [parse_eq_readRows] at hparse
  cases hread : State.start.readRows (rows text) with
  | error error =>
      rw [hread] at hparse
      cases hparse
  | ok last =>
      have htexts : ∀ row ∈ rows text, row.text ≠ [] := fun row => text_ne_nil_of_mem_rows
      obtain ⟨blocks, parts, current, htracks, hrows⟩ :=
        State.Tracks.of_readRows (by simpa using htexts) State.tracks_start hread
      replace hrows : (blocks ++ current.toList).flatMap BlockRows.rows = rows text := hrows
      cases hclose : last.close with
      | error error =>
          rw [hread, Except.bind, hclose] at hparse
          cases hparse
      | ok closed =>
          rw [hread, Except.bind, hclose] at hparse
          cases hparse
          obtain ⟨parts, hclosed⟩ := htracks.of_close (hrows ▸ htexts) hclose
          refine ⟨blocks ++ current.toList, parts, ?_, hclosed.isBookOf⟩
          exact {
            untabbed := hrows ▸ htracks.untabbed
            parted := hrows.symm
            laidOut := htracks.laidOut
            distinct := htracks.distinct
            written := hclosed.written }

/-- A source is read. -/
theorem exists_parse_of_isSource {text : String} {blocks : List BlockRows} {parts : List Part}
    (hsource : IsSource text blocks parts) :
    ∃ book, parse text = .ok book ∧ IsBookOf parts book := by
  have hrows := hsource.parted
  have huntabbed := hsource.untabbed
  have htexts : ∀ row ∈ rows text, row.text ≠ [] := fun row => text_ne_nil_of_mem_rows
  rw [hrows] at huntabbed htexts
  have hstart : State.start.close = .ok State.start := rfl
  obtain ⟨last, closed, hread, hclose, htracks⟩ :=
    State.Tracks.exists_readRows_of_writes hstart State.tracks_start hsource.written
      hsource.laidOut huntabbed htexts hsource.distinct
  refine ⟨closed.book, ?_, htracks.isBookOf⟩
  rw [parse_eq_readRows, hrows, hread, Except.bind, hclose]
  rfl

/-- The reader accepts exactly the sources, and what it makes of a source is the book that
the source's blocks write. -/
theorem parse_iff_isSource (text : String) :
    ((∃ book, parse text = .ok book) ↔ ∃ blocks parts, IsSource text blocks parts) ∧
      ∀ blocks parts book, IsSource text blocks parts →
        (parse text = .ok book ↔ IsBookOf parts book) := by
  refine ⟨⟨?_, ?_⟩, fun blocks parts book hsource => ?_⟩
  · rintro ⟨book, hparse⟩
    obtain ⟨blocks, parts, hsource, -⟩ := exists_isSource_of_parse hparse
    exact ⟨blocks, parts, hsource⟩
  · rintro ⟨blocks, parts, hsource⟩
    obtain ⟨book, hparse, -⟩ := exists_parse_of_isSource hsource
    exact ⟨book, hparse⟩
  · obtain ⟨read, hparse, hread⟩ := exists_parse_of_isSource hsource
    constructor
    · intro h
      exact Except.ok.inj (hparse.symm.trans h) ▸ hread
    · intro hbook
      rw [hparse, hread.unique hbook]

end Phrasebook.Source
