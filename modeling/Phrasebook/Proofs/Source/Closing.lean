import Phrasebook.Proofs.Source.Blocks
import Phrasebook.Proofs.Source.Headings

/-!
# Ends of blocks

A block closes exactly when it writes a part, and a heading closes the block before it
and opens the next exactly when its key is new.
-/

namespace Phrasebook.Source

namespace BlockRows

theorem alternatives_eq_ok_iff {name : String} {items : List ItemRows}
    {alternatives : List Alternative}
    (htexts : ∀ item ∈ items, ∀ row ∈ item.more, row.text ≠ []) :
    (items.map ItemRows.item).mapM (Item.alternative name) = .ok alternatives ↔
      List.Forall₂ (fun item alternative => WritesAlternative item.text alternative) items
        alternatives := by
  rw [mapM_eq_ok_iff, List.forall₂_map_left_iff]
  simp only [alternative_eq_ok_iff]
  induction items generalizing alternatives with
  | nil => rw [List.forall₂_nil_left_iff, List.forall₂_nil_left_iff]
  | cons item items ih =>
      have hitem := ItemRows.text_item (htexts item List.mem_cons_self)
      have hitems := fun rest =>
        @ih rest fun item hitem => htexts item (List.mem_cons_of_mem _ hitem)
      simp only [List.forall₂_cons_left_iff, hitem, hitems]

end BlockRows

namespace State

/-- What is read of a source once a block that writes the part closes. -/
def finish (state : State) : Part → State
  | .category category =>
    { state with categories := category :: state.categories, block := none }
  | .preamble preamble => { state with preamble := preamble, block := none }

section
variable {state next : State}

theorem close_category_eq_ok_iff {heading : Row} {name : String} {items : List ItemRows}
    (hblock : state.block = some (BlockRows.category heading name items).block)
    (htexts : ∀ item ∈ items, ∀ row ∈ item.more, row.text ≠ []) :
    state.close = .ok next ↔ items ≠ [] ∧ ∃ alternatives,
      List.Forall₂ (fun item alternative => WritesAlternative item.text alternative) items
        alternatives ∧ next = state.finish (.category ⟨name, alternatives⟩) := by
  have halternatives (alternatives : List Alternative) :=
    @BlockRows.alternatives_eq_ok_iff name items alternatives htexts
  rw [close, hblock]
  simp only [BlockRows.block, List.reverse_reverse]
  by_cases hempty : items = []
  · simp [hempty]
  · rw [if_neg (by simpa using hempty), and_iff_right hempty]
    simp only [← halternatives]
    cases (items.map ItemRows.item).mapM (Item.alternative name) with
    | error error => simp
    | ok alternatives => simp [finish, eq_comm]

theorem close_settings_eq_ok_iff {heading : Row} {lines : List SettingRow}
    (hblock : state.block = some (BlockRows.settings heading lines).block)
    (hnodup : ((lines.map SettingRow.setting).map Setting.key).Nodup) :
    state.close = .ok next ↔ ∃ preamble,
      IsPreambleOf (lines.map SettingRow.setting) preamble ∧
        next = state.finish (.preamble preamble) := by
  rw [close, hblock]
  simp only [isPreambleOf_iff hnodup, exists_eq_left]
  exact ⟨fun h => (Except.ok.inj h).symm, fun h => congrArg _ h.symm⟩

/-- A block closes exactly when it writes a part. -/
theorem close_eq_ok_iff {block : BlockRows} (hblock : state.block = some block.block)
    (hlaid : block.IsLaidOut) (htexts : ∀ row ∈ block.rows, row.text ≠ []) :
    state.close = .ok next ↔ ∃ part, block.Writes part ∧ next = state.finish part := by
  cases block with
  | category heading name items =>
      have hmore : ∀ item ∈ items, ∀ row ∈ item.more, row.text ≠ [] := by
        intro item hitem row hrow
        refine htexts row (List.mem_cons_of_mem _ ?_)
        exact List.mem_flatMap.2 ⟨item, hitem, List.mem_cons_of_mem _ hrow⟩
      rw [close_category_eq_ok_iff hblock hmore]
      constructor
      · rintro ⟨hempty, alternatives, hwritten, hnext⟩
        exact ⟨_, .category hempty hwritten, hnext⟩
      · rintro ⟨part, hwrites, hnext⟩
        cases hwrites with
        | category hempty hwritten => exact ⟨hempty, _, hwritten, hnext⟩
  | settings heading lines =>
      rw [close_settings_eq_ok_iff hblock hlaid.nodup_keys]
      constructor
      · rintro ⟨preamble, hpreamble, hnext⟩
        exact ⟨_, .settings hpreamble, hnext⟩
      · rintro ⟨part, hwrites, hnext⟩
        cases hwrites with
        | settings hpreamble => exact ⟨_, hpreamble, hnext⟩

end

/-! ## Headings of new blocks -/

def opened (state : State) (heading : Row) (key : String) : State :=
  { state with
    headings := (key, heading.number) :: state.headings
    block := some (BlockRows.start heading key).block }

theorem block_start (heading : Row) (key : String) :
    (BlockRows.start heading key).block =
      if key = preambleKey then .settings none Settings.empty
      else .category key heading.number none [] := by
  unfold BlockRows.start
  split <;> rfl

theorem find?_headings_eq_none_iff {headings : List (String × Nat)} {key : String} :
    headings.find? (·.1 == key) = none ↔ key ∉ headings.map Prod.fst := by
  rw [List.find?_eq_none]
  constructor
  · intro h hmem
    obtain ⟨heading, hheading, hkey⟩ := List.mem_map.1 hmem
    exact h heading hheading (beq_iff_eq.2 hkey)
  · intro h heading hheading hkey
    exact h (beq_iff_eq.1 hkey ▸ List.mem_map_of_mem hheading)

/-- A heading is taken in exactly when the block before it closes and its key is new. -/
theorem readRow_eq_ok_iff_of_unindented {state next : State} {row : Row}
    (hleading : row.leading = []) (hitem : ¬row.IsItem) :
    state.readRow row = .ok next ↔
      ∃ closed key, state.close = .ok closed ∧ row.Heads key ∧ IsKey key ∧
        key ∉ closed.headings.map Prod.fst ∧ next = closed.opened row key := by
  have htab : '\t' ∉ row.leading := by simp [hleading]
  rw [readRow, row.line_of_unindented htab hitem hleading, read, openBlock]
  constructor
  · intro h
    cases hclose : state.close with
    | error error => simp [hclose] at h
    | ok closed =>
        cases hkey : headingKey row.text with
        | error fault => simp [hclose, hkey] at h
        | ok key =>
            obtain ⟨hheads, hiskey⟩ := (headingKey_eq_ok_iff hleading hitem).1 hkey
            cases hfind : closed.headings.find? (·.1 == key) with
            | some first => simp [hclose, hkey, hfind] at h
            | none =>
                simp only [hclose, hkey, hfind, Except.ok.injEq] at h
                refine ⟨closed, key, rfl, hheads, hiskey, find?_headings_eq_none_iff.1 hfind, ?_⟩
                rw [← h, opened, block_start]
  · rintro ⟨closed, key, hclose, hheads, hiskey, hfresh, rfl⟩
    simp only [hclose, (headingKey_eq_ok_iff hleading hitem).2 ⟨hheads, hiskey⟩,
      find?_headings_eq_none_iff.2 hfresh]
    rw [opened, block_start]

end State

end Phrasebook.Source
