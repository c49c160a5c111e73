import Phrasebook.Proofs.Source.Grammar
import Phrasebook.Proofs.Text.Trimming

/-!
# Reading rows

Lines that are blank or comments leave the reader as it is, so reading a source is
reading its rows. What a row does depends on whether it is an item and on whether it is
indented.
-/

namespace Phrasebook.Source

namespace Row

/-! ## Kinds of rows -/

def gap (row : Row) : Nat := ((row.body.drop 1).takeWhile Text.isIndent).length

def line (row : Row) : Line :=
  if row.leading.contains '\t' then .tabbed
  else
    match afterMarker? row.body with
    | some rest =>
      .item row.indent (rest.takeWhile Text.isIndent).length
        (Text.trimEnd (rest.dropWhile Text.isIndent))
    | none =>
      if row.leading.isEmpty then .heading row.text else .indented row.indent row.text

theorem afterMarker?_of_isItem {row : Row} (hitem : row.IsItem) :
    afterMarker? row.body = some (row.body.drop 1) := by
  rcases hitem with hbody | ⟨c, rest, hbody, hc⟩
  · rw [hbody]
    rfl
  · rw [hbody]
    exact if_pos hc

theorem afterMarker?_of_not_isItem {row : Row} (hitem : ¬row.IsItem) :
    afterMarker? row.body = none := by
  unfold afterMarker?
  split
  · next hbody => exact (hitem (.inl hbody)).elim
  · next c rest hbody => exact if_neg fun hc => hitem (.inr ⟨c, rest, hbody, hc⟩)
  · rfl

theorem line_of_tab {row : Row} (htab : '\t' ∈ row.leading) : row.line = .tabbed :=
  if_pos (List.contains_iff_mem.2 htab)

section
variable {row : Row} (htab : '\t' ∉ row.leading)
include htab

theorem line_of_isItem (hitem : row.IsItem) :
    row.line = .item row.indent row.gap row.content := by
  rw [line, if_neg (by simpa using htab), afterMarker?_of_isItem hitem]
  rfl

theorem line_of_unindented (hitem : ¬row.IsItem) (hleading : row.leading = []) :
    row.line = .heading row.text := by
  rw [line, if_neg (by simpa using htab), afterMarker?_of_not_isItem hitem]
  exact if_pos (by simp [hleading])

theorem line_of_indented (hitem : ¬row.IsItem) (hleading : row.leading ≠ []) :
    row.line = .indented row.indent row.text := by
  rw [line, if_neg (by simpa using htab), afterMarker?_of_not_isItem hitem]
  exact if_neg (by simpa using hleading)

end

theorem lineRead_eq (number : Nat) (cs : List Char) :
    Line.read cs = ((ofLine? number cs).map line).getD .blank := by
  unfold Line.read ofLine?
  dsimp only
  split <;> rfl

theorem indent_pos_iff {row : Row} : 0 < row.indent ↔ row.leading ≠ [] :=
  List.length_pos_iff

/-! ## The rows of a text -/

theorem text_ne_nil_of_ofLine? {number : Nat} {cs : List Char} {row : Row}
    (hrow : ofLine? number cs = some row) : row.text ≠ [] := by
  unfold ofLine? at hrow
  dsimp only at hrow
  split at hrow
  · cases hrow
  · next hsome =>
    cases hrow
    intro hnil
    exact hsome (by simp [Text.trimEnd_eq_nil_iff.1 hnil])

end Row

def rowsFrom (number : Nat) (lines : List (List Char)) : List Row :=
  (lines.zipIdx number).filterMap fun (line, number) =>
    Row.ofLine? number (Text.withoutReturn line)

theorem rowsFrom_append (number : Nat) (front back : List (List Char)) :
    rowsFrom number (front ++ back) =
      rowsFrom number front ++ rowsFrom (number + front.length) back := by
  rw [rowsFrom, List.zipIdx_append, List.filterMap_append]
  rfl

theorem rowsFrom_cons (number : Nat) (line : List Char) (lines : List (List Char)) :
    rowsFrom number (line :: lines) =
      (Row.ofLine? number (Text.withoutReturn line)).toList ++ rowsFrom (number + 1) lines := by
  rw [rowsFrom, List.zipIdx_cons, List.filterMap_cons]
  dsimp only
  cases Row.ofLine? number (Text.withoutReturn line) <;> rfl

theorem rows_eq_rowsFrom (text : String) : rows text = rowsFrom 1 (Text.lines text.toList) := rfl

theorem text_ne_nil_of_mem_rows {text : String} {row : Row} (hrow : row ∈ rows text) :
    row.text ≠ [] := by
  obtain ⟨⟨line, number⟩, -, heq⟩ := List.mem_filterMap.1 hrow
  exact Row.text_ne_nil_of_ofLine? heq

namespace State

/-! ## Reading row by row -/

def readRow (state : State) (row : Row) : Except Error State := state.read row.number row.line

def readRows (state : State) : List Row → Except Error State
  | [] => .ok state
  | row :: rows => (state.readRow row).bind fun state => state.readRows rows

theorem readRows_append (state : State) (front back : List Row) :
    state.readRows (front ++ back) =
      (state.readRows front).bind fun state => state.readRows back := by
  induction front generalizing state with
  | nil => rfl
  | cons row front ih =>
      simp only [List.cons_append, readRows]
      cases state.readRow row with
      | error error => rfl
      | ok next => exact ih next

theorem readRows_cons_of_ok {state next : State} {row : Row} (hrow : state.readRow row = .ok next)
    (rows : List Row) : state.readRows (row :: rows) = next.readRows rows := by
  rw [readRows, hrow]
  rfl

theorem readRow_of_readRows_ok {state last : State} {row : Row} {rows : List Row}
    (hrows : state.readRows (row :: rows) = .ok last) :
    ∃ next, state.readRow row = .ok next ∧ next.readRows rows = .ok last := by
  rw [readRows] at hrows
  cases hrow : state.readRow row with
  | error error =>
      rw [hrow] at hrows
      cases hrows
  | ok next =>
      rw [hrow] at hrows
      exact ⟨next, rfl, hrows⟩

theorem readAll_eq_readRows (state : State) (number : Nat) (lines : List (List Char)) :
    state.readAll number (lines.map fun line => Line.read (Text.withoutReturn line)) =
      state.readRows ((lines.zipIdx number).filterMap fun (line, number) =>
        Row.ofLine? number (Text.withoutReturn line)) := by
  induction lines generalizing state number with
  | nil => rfl
  | cons line lines ih =>
      rw [List.map_cons, readAll, Row.lineRead_eq number, List.zipIdx_cons, List.filterMap_cons]
      dsimp only
      cases hrow : Row.ofLine? number (Text.withoutReturn line) with
      | none => exact ih state (number + 1)
      | some row =>
          have hnumber : row.number = number := by
            unfold Row.ofLine? at hrow
            dsimp only at hrow
            split at hrow
            · cases hrow
            · cases hrow
              rfl
          simp only [Option.map_some, Option.getD_some, readRows, readRow, hnumber]
          cases state.read number row.line with
          | error error => rfl
          | ok next => exact ih next (number + 1)

end State

/-- Reading a source is reading its rows and closing the last block. -/
theorem parse_eq_readRows (text : String) :
    parse text = (State.start.readRows (rows text)).bind fun state =>
      state.close.map State.book := by
  unfold parse lines
  rw [State.readAll_eq_readRows]
  unfold rows
  cases State.start.readRows _ with
  | error error => rfl
  | ok state =>
      simp only [Except.bind]
      cases state.close <;> rfl

end Phrasebook.Source
