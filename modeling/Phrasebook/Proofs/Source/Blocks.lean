import Phrasebook.Proofs.Source.Alternatives
import Phrasebook.Proofs.Source.SettingLine

/-!
# Reading blocks

One row of a block, one heading and one end of a block: what each does to the reader is
said in terms of the rows read so far. The reader takes a row in exactly when the block
is laid out with that row as it is without it.
-/

namespace Phrasebook.Source

def ItemRows.indent (item : ItemRows) : Nat := item.first.indent

def SettingRow.indent (line : SettingRow) : Nat := line.row.indent

namespace BlockRows

/-- What the reader has of a block once its rows are read. -/
def block : BlockRows → Block
  | .category heading name items =>
    .category name heading.number (items.head?.map ItemRows.indent)
      (items.map ItemRows.item).reverse
  | .settings _ lines =>
    .settings (lines.head?.map SettingRow.indent)
      ((lines.map SettingRow.setting).foldl Settings.add Settings.empty)

def start (heading : Row) (key : String) : BlockRows :=
  if key = preambleKey then .settings heading [] else .category heading key []

/-- One more row of a block: an item, a row that goes on with the last item, or a setting. -/
inductive Grows : BlockRows → Row → BlockRows → Prop
  | item {heading : Row} {name : String} {items : List ItemRows} {row : Row} :
      Grows (.category heading name items) row (.category heading name (items ++ [⟨row, []⟩]))
  | more {heading first : Row} {name : String} {items : List ItemRows} {more : List Row}
      {row : Row} :
      Grows (.category heading name (items ++ [⟨first, more⟩])) row
        (.category heading name (items ++ [⟨first, more ++ [row]⟩]))
  | setting {heading : Row} {lines : List SettingRow} {row : Row} {setting : Setting} :
      Grows (.settings heading lines) row (.settings heading (lines ++ [⟨row, setting⟩]))

theorem Grows.rows {block grown : BlockRows} {row : Row} (hgrows : Grows block row grown) :
    grown.rows = block.rows ++ [row] := by
  cases hgrows <;> simp [BlockRows.rows, body, BlockRows.heading, ItemRows.rows]

theorem Grows.key {block grown : BlockRows} {row : Row} (hgrows : Grows block row grown) :
    grown.key = block.key ∧ grown.heading = block.heading := by
  cases hgrows <;> exact ⟨rfl, rfl⟩

theorem start_rows (heading : Row) (key : String) : (start heading key).rows = [heading] := by
  unfold start
  split <;> rfl

theorem start_key (heading : Row) (key : String) : (start heading key).key = key := by
  unfold start
  split
  · next heq => exact heq.symm
  · rfl

/-- A block that is more than its heading has a last row. -/
theorem exists_grows {block : BlockRows} (hbody : block.body ≠ []) :
    ∃ smaller row, Grows smaller row block := by
  cases block with
  | category heading name items =>
      rcases items.eq_nil_or_concat' with rfl | ⟨front, ⟨first, more⟩, rfl⟩
      · exact (hbody rfl).elim
      · rcases more.eq_nil_or_concat' with rfl | ⟨more, row, rfl⟩
        · exact ⟨_, first, .item⟩
        · exact ⟨_, row, .more⟩
  | settings heading lines =>
      rcases lines.eq_nil_or_concat' with rfl | ⟨front, ⟨row, setting⟩, rfl⟩
      · exact (hbody rfl).elim
      · exact ⟨_, row, .setting⟩

/-! ## Layout -/

theorem standsAt_more_iff {first row : Row} {more : List Row} {indent : Nat} :
    (ItemRows.mk first (more ++ [row])).StandsAt indent ↔
      (ItemRows.mk first more).StandsAt indent ∧ ¬row.IsItem ∧ indent < row.indent := by
  constructor
  · intro hstands
    obtain ⟨hmore, hrow⟩ := List.forall_mem_append.1 hstands.deeper
    exact ⟨⟨hstands.marked, hstands.aligned, hmore⟩, hrow row List.mem_cons_self⟩
  · rintro ⟨hstands, hrow⟩
    refine ⟨hstands.marked, hstands.aligned, List.forall_mem_append.2 ⟨hstands.deeper, ?_⟩⟩
    exact List.forall_mem_singleton.2 hrow

section
variable {heading row : Row} {name : String} {items : List ItemRows} {lines : List SettingRow}

/-- Items go on at the indentation of those before them. -/
theorem isLaidOut_item_iff :
    (category heading name (items ++ [⟨row, []⟩])).IsLaidOut ↔
      (category heading name items).IsLaidOut ∧ row.IsItem ∧
        ∀ item ∈ items, item.indent = row.indent := by
  constructor
  · intro hlaid
    cases hlaid with
    | category indent hheads hvalid hitems =>
        obtain ⟨hitems, hlast⟩ := List.forall_mem_append.1 hitems
        have hrow := hlast _ List.mem_cons_self
        exact ⟨.category indent hheads hvalid hitems, hrow.marked, fun item hitem =>
          (hitems item hitem).aligned.trans hrow.aligned.symm⟩
  · rintro ⟨hlaid, hitem, haligned⟩
    cases hlaid with
    | category indent hheads hvalid hitems =>
        refine .category row.indent hheads hvalid (List.forall_mem_append.2 ⟨?_, ?_⟩)
        · intro item hmem
          have hstands := hitems item hmem
          have hindent : indent = row.indent := hstands.aligned.symm.trans (haligned item hmem)
          exact hindent ▸ hstands
        · exact List.forall_mem_singleton.2 ⟨hitem, rfl, by simp⟩

/-- An item goes on deeper than it starts. -/
theorem isLaidOut_more_iff {first : Row} {more : List Row} :
    (category heading name (items ++ [⟨first, more ++ [row]⟩])).IsLaidOut ↔
      (category heading name (items ++ [⟨first, more⟩])).IsLaidOut ∧ ¬row.IsItem ∧
        first.indent < row.indent := by
  constructor
  · intro hlaid
    cases hlaid with
    | category indent hheads hvalid hitems =>
        obtain ⟨hitems, hlast⟩ := List.forall_mem_append.1 hitems
        obtain ⟨hstands, hitem, hdeeper⟩ := standsAt_more_iff.1 (hlast _ List.mem_cons_self)
        have hfirst : first.indent = indent := hstands.aligned
        refine ⟨.category indent hheads hvalid (List.forall_mem_append.2 ⟨hitems, ?_⟩), hitem,
          hfirst ▸ hdeeper⟩
        exact List.forall_mem_singleton.2 hstands
  · rintro ⟨hlaid, hitem, hdeeper⟩
    cases hlaid with
    | category indent hheads hvalid hitems =>
        obtain ⟨hitems, hlast⟩ := List.forall_mem_append.1 hitems
        have hstands := hlast _ List.mem_cons_self
        have hfirst : first.indent = indent := hstands.aligned
        refine .category indent hheads hvalid (List.forall_mem_append.2 ⟨hitems, ?_⟩)
        exact List.forall_mem_singleton.2 (standsAt_more_iff.2 ⟨hstands, hitem, hfirst ▸ hdeeper⟩)

/-- Settings go on at the indentation of those before them, and are not given twice. -/
theorem isLaidOut_setting_iff {setting : Setting} :
    (settings heading (lines ++ [⟨row, setting⟩])).IsLaidOut ↔
      (settings heading lines).IsLaidOut ∧ ¬row.IsItem ∧ row.leading ≠ [] ∧
        (∀ line ∈ lines, line.indent = row.indent) ∧ WritesSetting row.text setting ∧
          setting.key ∉ (lines.map SettingRow.setting).map Setting.key := by
  have hkeys : ((lines ++ [SettingRow.mk row setting]).map SettingRow.setting).map Setting.key =
      (lines.map SettingRow.setting).map Setting.key ++ [setting.key] := by
    simp
  constructor
  · intro hlaid
    cases hlaid with
    | settings indent hheads hpos hlines hnodup =>
        obtain ⟨hlines, hlast⟩ := List.forall_mem_append.1 hlines
        have hrow := hlast _ List.mem_cons_self
        have hindent : row.indent = indent := hrow.aligned
        rw [hkeys, List.nodup_append] at hnodup
        refine ⟨.settings indent hheads hpos hlines hnodup.1, hrow.unmarked, ?_, ?_,
          hrow.written, ?_⟩
        · exact Row.indent_pos_iff.1 (hindent ▸ hpos)
        · exact fun line hline => (hlines line hline).aligned.trans hindent.symm
        · exact fun hmem => hnodup.2.2 _ hmem _ List.mem_cons_self rfl
  · rintro ⟨hlaid, hitem, hleading, haligned, hwritten, hfresh⟩
    cases hlaid with
    | settings indent hheads hpos hlines hnodup =>
        refine .settings row.indent hheads (Row.indent_pos_iff.2 hleading)
          (List.forall_mem_append.2 ⟨?_, ?_⟩) ?_
        · intro line hline
          exact ⟨(hlines line hline).unmarked, haligned line hline, (hlines line hline).written⟩
        · exact List.forall_mem_singleton.2 ⟨hitem, rfl, hwritten⟩
        · rw [hkeys, List.nodup_append]
          refine ⟨hnodup, by simp, ?_⟩
          rintro key hkey _ hlast rfl
          exact hfresh (List.mem_singleton.1 hlast ▸ hkey)

end

/-- A block is laid out as one from its first row on. -/
theorem IsLaidOut.of_grows {block grown : BlockRows} {row : Row} (hlaid : grown.IsLaidOut)
    (hgrows : Grows block row grown) : block.IsLaidOut := by
  cases hgrows with
  | item => exact (isLaidOut_item_iff.1 hlaid).1
  | more => exact (isLaidOut_more_iff.1 hlaid).1
  | setting => exact (isLaidOut_setting_iff.1 hlaid).1

/-- A row that a block goes on with is no heading. -/
theorem Grows.isItem_or_indented {block grown : BlockRows} {row : Row}
    (hgrows : Grows block row grown) (hlaid : grown.IsLaidOut) :
    row.IsItem ∨ row.leading ≠ [] := by
  cases hgrows with
  | item => exact .inl (isLaidOut_item_iff.1 hlaid).2.1
  | more =>
      have hdeeper := (isLaidOut_more_iff.1 hlaid).2.2
      exact .inr (Row.indent_pos_iff.1 (Nat.zero_lt_of_lt hdeeper))
  | setting => exact .inr (isLaidOut_setting_iff.1 hlaid).2.2.1

/-- The items of a category that is laid out as one are aligned. -/
theorem IsLaidOut.aligned_items {heading : Row} {name : String} {items : List ItemRows}
    (hlaid : (BlockRows.category heading name items).IsLaidOut) :
    ∃ indent, ∀ item ∈ items, item.indent = indent := by
  cases hlaid with
  | category indent hheads hvalid hitems =>
      exact ⟨indent, fun item hitem => (hitems item hitem).aligned⟩

theorem IsLaidOut.aligned_lines {heading : Row} {lines : List SettingRow}
    (hlaid : (BlockRows.settings heading lines).IsLaidOut) :
    ∃ indent, ∀ line ∈ lines, line.indent = indent := by
  cases hlaid with
  | settings indent hheads hpos hlines hnodup =>
      exact ⟨indent, fun line hline => (hlines line hline).aligned⟩

theorem IsLaidOut.nodup_keys {heading : Row} {lines : List SettingRow}
    (hlaid : (BlockRows.settings heading lines).IsLaidOut) :
    ((lines.map SettingRow.setting).map Setting.key).Nodup := by
  cases hlaid with
  | settings indent hheads hpos hlines hnodup => exact hnodup

end BlockRows

namespace State

/-! ## Indentations -/

theorem checkIndent_eq_ok_iff {expected : Option Nat} {line indent checked : Nat} :
    checkIndent expected line indent = .ok checked ↔
      (∀ e ∈ expected, e = indent) ∧ checked = indent := by
  cases expected with
  | none => simp [checkIndent, eq_comm]
  | some e =>
      by_cases he : e = indent
      · simp [checkIndent, he, eq_comm]
      · simp [checkIndent, he]

/-- Where all stand at one indentation, it is enough to check against the first. -/
theorem checkIndent_head?_eq_ok_iff {f : α → Nat} {xs : List α} {indent : Nat}
    (haligned : ∀ x ∈ xs, f x = indent) {line n checked : Nat} :
    checkIndent (xs.head?.map f) line n = .ok checked ↔ (∀ x ∈ xs, f x = n) ∧ checked = n := by
  rw [checkIndent_eq_ok_iff]
  cases xs with
  | nil => simp
  | cons x xs =>
      refine and_congr_left fun _ => ⟨fun h y hy => ?_, fun h e he => ?_⟩
      · have hx : f x = n := h (f x) rfl
        rw [haligned y hy, ← hx, haligned x List.mem_cons_self]
      · cases he
        exact h x List.mem_cons_self

/-- The first of some that stand at one indentation stands there. -/
theorem head?_map_concat {f : α → Nat} {xs : List α} {x : α} (hxs : ∀ y ∈ xs, f y = f x) :
    (xs ++ [x]).head?.map f = some (f x) := by
  cases xs with
  | nil => rfl
  | cons y xs => exact congrArg some (hxs y List.mem_cons_self)

/-! ## Rows within a block -/

section
variable {state next : State} {row : Row}

theorem readRow_of_isItem (htab : '\t' ∉ row.leading) (hitem : row.IsItem) :
    state.readRow row = state.readItem row.number row.indent row.gap row.content := by
  rw [readRow, row.line_of_isItem htab hitem]
  rfl

theorem readRow_of_indented (htab : '\t' ∉ row.leading) (hitem : ¬row.IsItem)
    (hleading : row.leading ≠ []) :
    state.readRow row = state.readIndented row.number row.indent row.text := by
  rw [readRow, row.line_of_indented htab hitem hleading]
  rfl

section
variable {heading : Row} {name : String} {items : List ItemRows} {lines : List SettingRow}

/-- An item is taken in when it stands where the others do. -/
theorem readItem_eq_ok_iff
    (hblock : state.block = some (BlockRows.category heading name items).block)
    (hlaid : (BlockRows.category heading name items).IsLaidOut) :
    state.readItem row.number row.indent row.gap row.content = .ok next ↔
      (∀ item ∈ items, item.indent = row.indent) ∧
        next = { state with
          block := some (BlockRows.category heading name (items ++ [⟨row, []⟩])).block } := by
  obtain ⟨indent, haligned⟩ := hlaid.aligned_items
  rw [readItem, hblock]
  simp only [BlockRows.block]
  constructor
  · intro hread
    cases hcheck : checkIndent (items.head?.map ItemRows.indent) row.number row.indent with
    | error error => simp [hcheck] at hread
    | ok checked =>
        obtain ⟨hall, rfl⟩ := (checkIndent_head?_eq_ok_iff haligned).1 hcheck
        rw [hcheck] at hread
        cases hread
        have hhead := @head?_map_concat _ ItemRows.indent items ⟨row, []⟩ hall
        refine ⟨hall, ?_⟩
        rw [hhead]
        simp [ItemRows.item, ItemRows.indent]
  · rintro ⟨hall, rfl⟩
    have hhead := @head?_map_concat _ ItemRows.indent items ⟨row, []⟩ hall
    rw [(checkIndent_head?_eq_ok_iff haligned).2 ⟨hall, rfl⟩, hhead]
    simp [ItemRows.item, ItemRows.indent]

/-- An indented line goes on with the last item when it stands deeper. -/
theorem readIndented_more_eq_ok_iff {first : Row} {more : List Row}
    (hblock : state.block =
      some (BlockRows.category heading name (items ++ [⟨first, more⟩])).block)
    (hlaid : (BlockRows.category heading name (items ++ [⟨first, more⟩])).IsLaidOut) :
    state.readIndented row.number row.indent row.text = .ok next ↔
      first.indent < row.indent ∧
        next = { state with
          block := some
            (BlockRows.category heading name (items ++ [⟨first, more ++ [row]⟩])).block } := by
  obtain ⟨indent, haligned⟩ := hlaid.aligned_items
  have hfirst : first.indent = indent := haligned ⟨first, more⟩ (by simp)
  have hhead (more : List Row) :
      (items ++ [ItemRows.mk first more]).head?.map ItemRows.indent = some first.indent :=
    head?_map_concat fun item hitem =>
      (haligned item (List.mem_append_left _ hitem)).trans hfirst.symm
  rw [readIndented, hblock]
  simp only [BlockRows.block, hhead, List.map_append, List.map_singleton, List.reverse_append,
    List.reverse_singleton, List.singleton_append, Option.getD_some]
  by_cases hdeeper : first.indent < row.indent
  · rw [if_pos hdeeper]
    simp [hdeeper, ItemRows.item, eq_comm]
  · rw [if_neg hdeeper]
    simp [hdeeper]

/-- A line before the first item is none of a category. -/
theorem readIndented_ne_ok_of_nil
    (hblock : state.block = some (BlockRows.category heading name []).block) (line indent : Nat)
    (text : List Char) : state.readIndented line indent text ≠ .ok next := by
  rw [readIndented, hblock]
  exact fun h => nomatch h

/-- A setting is taken in when it stands where the others do and is not given yet. -/
theorem readIndented_setting_eq_ok_iff
    (hblock : state.block = some (BlockRows.settings heading lines).block)
    (hlaid : (BlockRows.settings heading lines).IsLaidOut) :
    state.readIndented row.number row.indent row.text = .ok next ↔
      (∀ line ∈ lines, line.indent = row.indent) ∧ ∃ setting, WritesSetting row.text setting ∧
        setting.key ∉ (lines.map SettingRow.setting).map Setting.key ∧
          next = { state with
            block := some (BlockRows.settings heading (lines ++ [⟨row, setting⟩])).block } := by
  obtain ⟨indent, haligned⟩ := hlaid.aligned_lines
  have hnodup := hlaid.nodup_keys
  rw [readIndented, hblock]
  simp only [BlockRows.block]
  constructor
  · intro hread
    cases hcheck : checkIndent (lines.head?.map SettingRow.indent) row.number row.indent with
    | error error => simp [hcheck] at hread
    | ok checked =>
        obtain ⟨hall, rfl⟩ := (checkIndent_head?_eq_ok_iff haligned).1 hcheck
        simp only [hcheck] at hread
        split at hread
        · cases hread
        · next given hgiven =>
          obtain ⟨setting, hwritten, hfresh, rfl⟩ := writesSetting_of_read hgiven
          refine ⟨hall, setting, hwritten, fun hmem => ?_, ?_⟩
          · obtain ⟨other, hother, hkeys⟩ := List.mem_map.1 hmem
            have hgot := Settings.get?_foldl_of_mem hnodup hother Settings.empty
            rw [hkeys, hfresh] at hgot
            cases hgot
          · cases hread
            have hhead := @head?_map_concat _ SettingRow.indent lines ⟨row, setting⟩ hall
            rw [hhead]
            simp [SettingRow.indent]
  · rintro ⟨hall, setting, hwritten, hfresh, rfl⟩
    have hhead := @head?_map_concat _ SettingRow.indent lines ⟨row, setting⟩ hall
    have hread := read_of_writesSetting hwritten
      ((Settings.get?_foldl_of_not_mem hfresh Settings.empty).trans (Settings.get?_empty _))
    rw [(checkIndent_head?_eq_ok_iff haligned).2 ⟨hall, rfl⟩, hhead]
    simp only [hread]
    simp [SettingRow.indent]

end

section
variable {block : BlockRows} (hblock : state.block = some block.block) (hlaid : block.IsLaidOut)
include hblock hlaid

theorem readItem_eq_ok_iff_grows (hitem : row.IsItem) :
    state.readItem row.number row.indent row.gap row.content = .ok next ↔
      ∃ grown, block.Grows row grown ∧ grown.IsLaidOut ∧
        next = { state with block := some grown.block } := by
  cases block with
  | category heading name items =>
      rw [readItem_eq_ok_iff hblock hlaid]
      constructor
      · rintro ⟨haligned, hnext⟩
        exact ⟨_, .item, BlockRows.isLaidOut_item_iff.2 ⟨hlaid, hitem, haligned⟩, hnext⟩
      · rintro ⟨grown, hgrows, hgrown, hnext⟩
        cases hgrows with
        | item => exact ⟨(BlockRows.isLaidOut_item_iff.1 hgrown).2.2, hnext⟩
        | more => exact absurd hitem (BlockRows.isLaidOut_more_iff.1 hgrown).2.1
  | settings heading lines =>
      rw [readItem, hblock]
      constructor
      · intro hread
        cases hread
      · rintro ⟨grown, hgrows, hgrown, -⟩
        cases hgrows with
        | setting => exact absurd hitem (BlockRows.isLaidOut_setting_iff.1 hgrown).2.1

theorem readIndented_eq_ok_iff_grows (hitem : ¬row.IsItem) (hleading : row.leading ≠ []) :
    state.readIndented row.number row.indent row.text = .ok next ↔
      ∃ grown, block.Grows row grown ∧ grown.IsLaidOut ∧
        next = { state with block := some grown.block } := by
  cases block with
  | category heading name items =>
      rcases items.eq_nil_or_concat' with rfl | ⟨front, ⟨first, more⟩, rfl⟩
      · constructor
        · exact fun hread => (readIndented_ne_ok_of_nil hblock _ _ _ hread).elim
        · rintro ⟨grown, hgrows, hgrown, -⟩
          generalize hitems : ([] : List ItemRows) = items at hgrows
          cases hgrows with
          | item => exact absurd (BlockRows.isLaidOut_item_iff.1 hgrown).2.1 hitem
          | more => simp at hitems
      · rw [readIndented_more_eq_ok_iff hblock hlaid]
        constructor
        · rintro ⟨hdeeper, hnext⟩
          exact ⟨_, .more, BlockRows.isLaidOut_more_iff.2 ⟨hlaid, hitem, hdeeper⟩, hnext⟩
        · rintro ⟨grown, hgrows, hgrown, hnext⟩
          generalize hitems : front ++ [ItemRows.mk first more] = items at hgrows
          cases hgrows with
          | item => exact absurd (BlockRows.isLaidOut_item_iff.1 hgrown).2.1 hitem
          | more =>
              obtain ⟨rfl, hlast⟩ := List.append_inj' hitems rfl
              cases hlast
              exact ⟨(BlockRows.isLaidOut_more_iff.1 hgrown).2.2, hnext⟩
  | settings heading lines =>
      rw [readIndented_setting_eq_ok_iff hblock hlaid]
      constructor
      · rintro ⟨haligned, setting, hwritten, hfresh, hnext⟩
        exact ⟨_, .setting, BlockRows.isLaidOut_setting_iff.2
          ⟨hlaid, hitem, hleading, haligned, hwritten, hfresh⟩, hnext⟩
      · rintro ⟨grown, hgrows, hgrown, hnext⟩
        cases hgrows with
        | @setting _ _ _ setting =>
            obtain ⟨-, -, -, haligned, hwritten, hfresh⟩ :=
              BlockRows.isLaidOut_setting_iff.1 hgrown
            exact ⟨haligned, setting, hwritten, hfresh, hnext⟩

/-- A row that is no heading is taken in exactly when the block is laid out with it. -/
theorem readRow_eq_ok_iff_grows (hrow : row.IsItem ∨ row.leading ≠ []) :
    state.readRow row = .ok next ↔
      '\t' ∉ row.leading ∧ ∃ grown, block.Grows row grown ∧ grown.IsLaidOut ∧
        next = { state with block := some grown.block } := by
  by_cases htab : '\t' ∈ row.leading
  · rw [readRow, row.line_of_tab htab]
    simp [read, htab]
  · rw [and_iff_right htab]
    by_cases hitem : row.IsItem
    · rw [readRow_of_isItem htab hitem]
      exact readItem_eq_ok_iff_grows hblock hlaid hitem
    · have hleading : row.leading ≠ [] := hrow.resolve_left hitem
      rw [readRow_of_indented htab hitem hleading]
      exact readIndented_eq_ok_iff_grows hblock hlaid hitem hleading

end

end

end State

end Phrasebook.Source
