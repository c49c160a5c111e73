import Phrasebook.Proofs.Source.HeadingLines
import Phrasebook.Proofs.Source.Reading
import Phrasebook.Proofs.Template.Faults

/-!
# What stops the reader

The faults of an item, of a block that closes and of a row, each with what makes it one. A text
that is not read has rows that are taken in, and then a row or the end of the text that is at
fault.
-/

namespace Phrasebook.Source

/-! ## Items -/

/-- The weight and the blanks after it stand before the rest. -/
theorem exists_append_of_splitWeight {text : List Char} {weighted : Weighted}
    (hsplit : splitWeight text = .ok weighted) :
    ∃ before, text = before ++ weighted.rest ∧ before.length = weighted.consumed := by
  unfold splitWeight at hsplit
  dsimp only at hsplit
  split at hsplit
  · cases hsplit
    exact ⟨[], rfl, rfl⟩
  · split at hsplit
    · cases hsplit
      refine ⟨text.takeWhile (!Text.isIndent ·) ++
        (text.dropWhile (!Text.isIndent ·)).takeWhile Text.isIndent, ?_, List.length_append⟩
      rw [List.append_assoc, List.takeWhile_append_dropWhile, List.takeWhile_append_dropWhile]
    · cases hsplit

theorem text_of_unquote {text : List Char} {unquoted : Unquoted}
    (hunquote : unquote text = .ok unquoted) (hbare : unquoted.quoted = false) :
    unquoted.text = text := by
  unfold unquote at hunquote
  split at hunquote
  · split at hunquote
    · cases hunquote
    · split at hunquote
      · cases hunquote
      · cases hunquote
        cases hbare
  · split at hunquote
    · cases hunquote
    · cases hunquote
      cases hbare
  · cases hunquote
    rfl

inductive Item.Faulty (category : String) (item : Item) : Cause → Prop
  | weight {fault : FormFault} :
      splitWeight item.text = .error fault → Faulty category item (.form fault)
  | quotes {weighted : Weighted} {fault : FormFault} :
      splitWeight item.text = .ok weighted → unquote weighted.rest = .error fault →
      Faulty category item (.form fault)
  | placeholder {weighted : Weighted} {unquoted : Unquoted} {error : Template.Error} :
      splitWeight item.text = .ok weighted → unquote weighted.rest = .ok unquoted →
      Template.parse unquoted.text = .error error →
      Faulty category item (.placeholder category
        (if item.isFolded || unquoted.quoted then none
          else some (item.column + weighted.consumed + error.offset)) error.fault)

theorem Item.faulty_of_alternative {category : String} {item : Item} {error : Error}
    (herror : item.alternative category = .error error) :
    error.line = item.line ∧ item.Faulty category error.cause := by
  unfold alternative at herror
  split at herror
  · next hsplit =>
    cases herror
    exact ⟨rfl, .weight hsplit⟩
  · next hsplit =>
    split at herror
    · next hunquote =>
      cases herror
      exact ⟨rfl, .quotes hsplit hunquote⟩
    · next hunquote =>
      split at herror
      · cases herror
      · next hparse =>
        cases herror
        exact ⟨rfl, .placeholder hsplit hunquote hparse⟩

theorem exists_mem_of_mapM_error {f : α → Except ε β} {xs : List α} {error : ε}
    (hmapM : xs.mapM f = .error error) : ∃ x ∈ xs, f x = .error error := by
  induction xs with
  | nil => cases hmapM
  | cons x xs ih =>
      rw [List.mapM_cons] at hmapM
      cases hx : f x with
      | error other =>
          rw [hx] at hmapM
          cases hmapM
          exact ⟨x, List.mem_cons_self, hx⟩
      | ok y =>
          cases hxs : xs.mapM f with
          | error other =>
              rw [hx, hxs] at hmapM
              cases hmapM
              obtain ⟨z, hz, hfz⟩ := ih hxs
              exact ⟨z, List.mem_cons_of_mem x hz, hfz⟩
          | ok ys =>
              rw [hx, hxs] at hmapM
              cases hmapM

namespace State

/-! ## Ends of blocks -/

inductive Unclosed (state : State) : Error → Prop
  | empty {name : String} {line : Nat} {indent : Option Nat} :
      state.block = some (.category name line indent []) →
      Unclosed state ⟨line, .emptyCategory name⟩
  | item {name : String} {line : Nat} {indent : Option Nat} {items : List Item} {item : Item}
      {cause : Cause} :
      state.block = some (.category name line indent items) → item ∈ items →
      item.Faulty name cause → Unclosed state ⟨item.line, cause⟩

theorem unclosed_of_close {state : State} {error : Error} (hclose : state.close = .error error) :
    state.Unclosed error := by
  unfold close at hclose
  split at hclose
  · cases hclose
  · cases hclose
  · next name line indent items hblock =>
    split at hclose
    · next hempty =>
      cases hclose
      rw [List.isEmpty_iff.1 hempty] at hblock
      exact .empty hblock
    · split at hclose
      · next hmapM =>
        cases hclose
        obtain ⟨item, hitem, herror⟩ := exists_mem_of_mapM_error hmapM
        obtain ⟨hline, hfaulty⟩ := Item.faulty_of_alternative herror
        have hunclosed := Unclosed.item hblock (List.mem_reverse.1 hitem) hfaulty
        rwa [← hline] at hunclosed
      · cases hclose

/-! ## Rows -/

/-- Why a row is not taken in, though the block before it closes where the row ends that. -/
inductive Rejects (state : State) (row : Row) : Cause → Prop
  | tab : '\t' ∈ row.leading → Rejects state row (.indentation .tab)
  | itemOutside : state.block = none → Rejects state row (.form .itemOutside)
  | itemOfSettings {indent : Option Nat} {given : Settings} :
      state.block = some (.settings indent given) → Rejects state row (.setting .itemFound)
  | inconsistent {expected : Nat} : expected ≠ row.indent →
      Rejects state row (.indentation (.inconsistent expected row.indent))
  | outside : state.block = none → Rejects state row (.indentation .outside)
  | itemExpected {name : String} {line : Nat} {indent : Option Nat} {items : List Item} :
      state.block = some (.category name line indent items) →
      Rejects state row (.indentation (.itemExpected name))
  | setting {indent : Option Nat} {given : Settings} {fault : SettingFault} :
      state.block = some (.settings indent given) → given.read row.text = .error fault →
      Rejects state row (.setting fault)
  | heading {fault : FormFault} :
      row.EndsBlock → headingKey row.text = .error fault → Rejects state row (.form fault)
  | duplicate {key : String} {first : Nat} :
      row.Heads key → IsKey key → (key, first) ∈ state.headings →
      Rejects state row (.duplicateCategory key first)

section
variable {state : State} {row : Row} {error : Error}

theorem checkIndent_eq_error {expected : Option Nat} {line indent : Nat}
    (hcheck : checkIndent expected line indent = .error error) :
    ∃ e, e ≠ indent ∧ error = ⟨line, .indentation (.inconsistent e indent)⟩ := by
  unfold checkIndent at hcheck
  split at hcheck
  · cases hcheck
  · next e =>
    split at hcheck
    · cases hcheck
    · next hne =>
      cases hcheck
      exact ⟨e, hne, rfl⟩

theorem rejects_of_readItem {content : List Char} {gap : Nat}
    (hread : state.readItem row.number row.indent gap content = .error error) :
    error.line = row.number ∧ state.Rejects row error.cause := by
  unfold readItem at hread
  split at hread
  · next hblock =>
    cases hread
    exact ⟨rfl, .itemOutside hblock⟩
  · next hblock =>
    cases hread
    exact ⟨rfl, .itemOfSettings hblock⟩
  · split at hread
    · next hcheck =>
      cases hread
      obtain ⟨e, hne, rfl⟩ := checkIndent_eq_error hcheck
      exact ⟨rfl, .inconsistent hne⟩
    · cases hread

theorem rejects_of_readIndented
    (hread : state.readIndented row.number row.indent row.text = .error error) :
    error.line = row.number ∧ state.Rejects row error.cause := by
  unfold readIndented at hread
  split at hread
  · next hblock =>
    cases hread
    exact ⟨rfl, .outside hblock⟩
  · next hblock =>
    split at hread
    · next hcheck =>
      cases hread
      obtain ⟨e, hne, rfl⟩ := checkIndent_eq_error hcheck
      exact ⟨rfl, .inconsistent hne⟩
    · split at hread
      · next hfault =>
        cases hread
        exact ⟨rfl, .setting hblock hfault⟩
      · cases hread
  · next hblock =>
    split at hread
    · split at hread
      · cases hread
      · cases hread
        exact ⟨rfl, .itemExpected hblock⟩
    · cases hread
      exact ⟨rfl, .itemExpected hblock⟩

theorem rejects_of_openBlock (hrow : row.EndsBlock)
    (hread : state.openBlock row.number row.text = .error error) :
    state.close = .error error ∨ error.line = row.number ∧ state.Rejects row error.cause := by
  unfold openBlock at hread
  split at hread
  · next hclose =>
    cases hread
    exact .inl hclose
  · next closed hclose =>
    refine .inr ?_
    split at hread
    · next hkey =>
      cases hread
      exact ⟨rfl, .heading hrow hkey⟩
    · next key hkey =>
      obtain ⟨hheads, hiskey⟩ := (headingKey_eq_ok_iff hrow.1 hrow.2).1 hkey
      split at hread
      · next met first hfind =>
        cases hread
        obtain rfl : met = key := by simpa using List.find?_some hfind
        have hmet := List.mem_of_find?_eq_some hfind
        rw [headings_of_close hclose] at hmet
        exact ⟨rfl, .duplicate hheads hiskey hmet⟩
      · cases hread

/-- A row is not taken in when the block that it ends does not close, or for a fault of its
own. -/
theorem rejects_of_readRow (hread : state.readRow row = .error error) :
    row.EndsBlock ∧ state.close = .error error ∨
      error.line = row.number ∧ state.Rejects row error.cause := by
  by_cases htab : '\t' ∈ row.leading
  · rw [readRow, row.line_of_tab htab] at hread
    cases hread
    exact .inr ⟨rfl, .tab htab⟩
  · by_cases hitem : row.IsItem
    · rw [readRow_of_isItem htab hitem] at hread
      exact .inr (rejects_of_readItem hread)
    · by_cases hleading : row.leading = []
      · rw [readRow, row.line_of_unindented htab hitem hleading] at hread
        exact (rejects_of_openBlock ⟨hleading, hitem⟩ hread).imp_left fun hclose =>
          ⟨⟨hleading, hitem⟩, hclose⟩
      · rw [readRow_of_indented htab hitem hleading] at hread
        exact .inr (rejects_of_readIndented hread)

end

/-! ## Categories being read -/

end State

theorem BlockRows.exists_of_block_eq {block : BlockRows} {name : String} {line : Nat}
    {indent : Option Nat} {items : List Item}
    (hblock : block.block = .category name line indent items) :
    ∃ heading itemRows, block = .category heading name itemRows ∧ heading.number = line ∧
      (itemRows.map ItemRows.item).reverse = items := by
  cases block with
  | category heading given itemRows =>
      obtain ⟨rfl, hline, -, hitems⟩ := Block.category.inj hblock
      exact ⟨heading, itemRows, rfl, hline, hitems⟩
  | settings => cases hblock

/-- A category that is being read has the last of the rows that were taken in. -/
theorem State.exists_category_of_readRows {front : List Row} {state : State} {name : String}
    {line : Nat} {indent : Option Nat} {items : List Item}
    (htexts : ∀ row ∈ front, row.text ≠ []) (hread : start.readRows front = .ok state)
    (hblock : state.block = some (.category name line indent items)) :
    ∃ before heading itemRows, front = before ++ (BlockRows.category heading name itemRows).rows ∧
      heading.number = line ∧ (itemRows.map ItemRows.item).reverse = items ∧
        (BlockRows.category heading name itemRows).IsLaidOut := by
  obtain ⟨blocks, parts, current, htracks, hrows⟩ :=
    Tracks.of_readRows (by simpa using htexts) tracks_start hread
  replace hrows : (blocks ++ current.toList).flatMap BlockRows.rows = front := hrows
  obtain ⟨block, rfl, hcategory⟩ := Option.map_eq_some_iff.1 (htracks.block.symm.trans hblock)
  obtain ⟨heading, itemRows, rfl, hnumber, hitems⟩ := BlockRows.exists_of_block_eq hcategory
  have hlaid := htracks.laidOut _ (List.mem_append_right blocks List.mem_cons_self)
  refine ⟨blocks.flatMap BlockRows.rows, heading, itemRows, ?_, hnumber, hitems, hlaid⟩
  rw [← hrows, Option.toList_some, List.flatMap_append, List.flatMap_singleton]

namespace State

/-! ## Texts -/

theorem exists_of_readRows_error {state : State} {rows : List Row} {error : Error}
    (hread : state.readRows rows = .error error) :
    ∃ front row back middle, rows = front ++ row :: back ∧ state.readRows front = .ok middle ∧
      middle.readRow row = .error error := by
  induction rows generalizing state with
  | nil => cases hread
  | cons row rows ih =>
      cases hrow : state.readRow row with
      | error other =>
          rw [readRows, hrow] at hread
          cases hread
          exact ⟨[], row, rows, state, rfl, rfl, hrow⟩
      | ok next =>
          rw [readRows_cons_of_ok hrow] at hread
          obtain ⟨front, later, back, middle, rfl, hfront, hlater⟩ := ih hread
          refine ⟨row :: front, later, back, middle, rfl, ?_, hlater⟩
          rw [readRows_cons_of_ok hrow, hfront]

end State

/-- A text that is not read has rows that are taken in. Then the last block does not close, at
the end of the text or before a row that ends it, or a row is not taken in. -/
theorem exists_of_parse_error {text : String} {error : Error} (hparse : parse text = .error error) :
    ∃ front rest state, rows text = front ++ rest ∧ State.start.readRows front = .ok state ∧
      ((∀ row ∈ rest.head?, row.EndsBlock) ∧ state.Unclosed error ∨
        ∃ row ∈ rest.head?, error.line = row.number ∧ state.Rejects row error.cause) := by
  rw [parse_eq_readRows] at hparse
  cases hread : State.start.readRows (rows text) with
  | error other =>
      rw [hread] at hparse
      cases hparse
      obtain ⟨front, row, back, state, hrows, hfront, hrow⟩ := State.exists_of_readRows_error hread
      refine ⟨front, row :: back, state, hrows, hfront, ?_⟩
      rcases State.rejects_of_readRow hrow with ⟨hends, hclose⟩ | hrejects
      · exact .inl ⟨by simpa using hends, State.unclosed_of_close hclose⟩
      · exact .inr ⟨row, rfl, hrejects⟩
  | ok last =>
      rw [hread, Except.bind] at hparse
      cases hclose : last.close with
      | error other =>
          rw [hclose] at hparse
          cases hparse
          refine ⟨rows text, [], last, (List.append_nil _).symm, hread, .inl ?_⟩
          exact ⟨by simp, State.unclosed_of_close hclose⟩
      | ok closed =>
          rw [hclose] at hparse
          cases hparse

end Phrasebook.Source
