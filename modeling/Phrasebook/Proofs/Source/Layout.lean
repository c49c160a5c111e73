import Phrasebook.Proofs.Source.Renumbering
import Phrasebook.Proofs.Text.Splitting

/-!
# Layout

What a source says does not depend on its layout: on lines that are blank or comments, on
spaces and tabs at the ends of lines, and on whether lines end in a line feed alone or in a
carriage return and a line feed. Faults are found where the line that they were on has
gone.
-/

namespace Phrasebook.Source

/-! ## Edits -/

/-- Whether a line is blank, or a comment after its leading spaces and tabs. -/
def IsVoid (line : List Char) : Prop :=
  Text.isBlankText line = true ∨ (line.dropWhile Text.isIndent).head? = some '#'

instance (line : List Char) : Decidable (IsVoid line) := inferInstanceAs (Decidable (_ ∨ _))

/-- What is done to a line of a text, or a line that is put in between. -/
inductive Edit where
  /-- The line stays, with more characters at its end; a line feed after it may get a carriage
  return before it. -/
  | keep (line blanks : List Char) (returned : Bool)
  | remove (line : List Char)
  | insert (line : List Char)

namespace Edit

def before? : Edit → Option (List Char)
  | keep line _ _ => some line
  | remove line => some line
  | insert _ => none

def after? : Edit → Option (List Char)
  | keep line blanks returned => some (line ++ blanks ++ if returned then ['\r'] else [])
  | remove _ => none
  | insert line => some line

def edited (edits : List Edit) : String :=
  String.ofList (['\n'].intercalate (edits.filterMap after?))

/-- Whether an edit concerns the layout only: spaces and tabs are put at the end of a line,
and only blank lines and comments come and go. -/
def IsLayout : Edit → Prop
  | keep _ blanks _ => blanks.all Text.isIndent = true
  | remove line => IsVoid line
  | insert line => IsVoid line ∧ '\n' ∉ line

instance : DecidablePred IsLayout
  | keep _ blanks _ => inferInstanceAs (Decidable (blanks.all Text.isIndent = true))
  | remove line => inferInstanceAs (Decidable (IsVoid line))
  | insert line => inferInstanceAs (Decidable (IsVoid line ∧ '\n' ∉ line))

/-- Where a line of the text stands after the edits, counted from zero; none when it is
removed. -/
def place? : List Edit → Nat → Option Nat
  | [], _ => none
  | keep _ _ _ :: _, 0 => some 0
  | keep _ _ _ :: edits, n + 1 => (place? edits n).map (· + 1)
  | remove _ :: _, 0 => none
  | remove _ :: edits, n + 1 => place? edits n
  | insert _ :: edits, n => (place? edits n).map (· + 1)

/-- A line of the text becomes a line of the edited text, where the first lines have the given
numbers. -/
def MovesFrom (number other : Nat) (edits : List Edit) (line otherLine : Nat) : Prop :=
  ∃ n m, place? edits n = some m ∧ line = number + n ∧ otherLine = other + m

def Moves (edits : List Edit) : Nat → Nat → Prop := MovesFrom 1 1 edits

section
variable {edits : List Edit} {number other line otherLine : Nat}

theorem movesFrom_first (cs blanks : List Char) (returned : Bool) :
    MovesFrom number other (keep cs blanks returned :: edits) number other :=
  ⟨0, 0, rfl, rfl, rfl⟩

theorem MovesFrom.keep (hmoves : MovesFrom (number + 1) (other + 1) edits line otherLine)
    (cs blanks : List Char) (returned : Bool) :
    MovesFrom number other (.keep cs blanks returned :: edits) line otherLine := by
  obtain ⟨n, m, hplace, rfl, rfl⟩ := hmoves
  exact ⟨n + 1, m + 1, by rw [place?, hplace]; rfl, by omega, by omega⟩

theorem MovesFrom.remove (hmoves : MovesFrom (number + 1) other edits line otherLine)
    (cs : List Char) : MovesFrom number other (.remove cs :: edits) line otherLine := by
  obtain ⟨n, m, hplace, rfl, rfl⟩ := hmoves
  exact ⟨n + 1, m, hplace, by omega, rfl⟩

theorem MovesFrom.insert (hmoves : MovesFrom number (other + 1) edits line otherLine)
    (cs : List Char) : MovesFrom number other (.insert cs :: edits) line otherLine := by
  obtain ⟨n, m, hplace, rfl, rfl⟩ := hmoves
  exact ⟨n, m + 1, by rw [place?, hplace]; rfl, rfl, by omega⟩

end

end Edit

/-! ## Void lines -/

theorem IsVoid.ofLine? {line : List Char} (hvoid : IsVoid line) (number : Nat) :
    Row.ofLine? number line = none := by
  unfold Row.ofLine?
  refine if_pos ?_
  rcases hvoid with hblank | hcomment
  · have hbody : Text.isBlankText (line.dropWhile Text.isIndent) = true :=
      List.all_eq_true.2 fun c hc =>
        List.all_eq_true.1 hblank c ((List.dropWhile_sublist _).subset hc)
    rw [hbody, Bool.true_or]
  · rw [hcomment]
    simp

theorem IsVoid.of_append_return {line : List Char} (hvoid : IsVoid (line ++ ['\r'])) :
    IsVoid line := by
  rcases hvoid with hblank | hcomment
  · refine .inl ?_
    rw [Text.isBlankText, List.all_append, Bool.and_eq_true] at hblank
    exact hblank.1
  · refine .inr ?_
    rw [List.dropWhile_append] at hcomment
    split at hcomment
    · cases hcomment
    · next hbody =>
      rwa [List.head?_append_of_ne_nil _ (by simpa using hbody)] at hcomment

theorem IsVoid.withoutReturn {line : List Char} (hvoid : IsVoid line) :
    IsVoid (Text.withoutReturn line) := by
  rcases Text.eq_withoutReturn_or line with heq | heq
  · rwa [← heq]
  · rw [heq] at hvoid
    exact hvoid.of_append_return

/-! ## Lines with blanks at their end -/

section
variable {blanks : List Char} (hblanks : ∀ c ∈ blanks, Text.isIndent c = true)
include hblanks

/-- Blanks after a line end in its indentation or after what follows that. -/
theorem parts_append_blanks (line : List Char) :
    line.dropWhile Text.isIndent = [] ∧ (line ++ blanks).dropWhile Text.isIndent = [] ∨
      line.dropWhile Text.isIndent ≠ [] ∧
        (line ++ blanks).takeWhile Text.isIndent = line.takeWhile Text.isIndent ∧
        (line ++ blanks).dropWhile Text.isIndent = line.dropWhile Text.isIndent ++ blanks := by
  rw [List.dropWhile_append, List.takeWhile_append]
  by_cases hbody : line.dropWhile Text.isIndent = []
  · refine .inl ⟨hbody, ?_⟩
    rw [hbody]
    exact List.dropWhile_eq_nil_iff.2 hblanks
  · refine .inr ⟨hbody, if_neg fun hlength => hbody ?_, if_neg (by simpa using hbody)⟩
    have hparts := congrArg List.length
      (List.takeWhile_append_dropWhile (p := Text.isIndent) (l := line))
    rw [List.length_append] at hparts
    exact List.length_eq_zero_iff.1 (by omega)

theorem afterMarker?_append_blanks {body : List Char} (hbody : body ≠ []) :
    afterMarker? (body ++ blanks) = (afterMarker? body).map (· ++ blanks) := by
  match body with
  | [] => exact absurd rfl hbody
  | [c] =>
      by_cases hc : c = '-'
      · subst hc
        cases blanks with
        | nil => rfl
        | cons d blanks => exact if_pos (hblanks d List.mem_cons_self)
      · simp [afterMarker?, hc]
  | c :: d :: rest =>
      by_cases hc : c = '-'
      · subst hc
        simp only [List.cons_append, afterMarker?]
        split <;> rfl
      · simp [afterMarker?, hc]

theorem trimEnd_append_blanks (cs : List Char) :
    Text.trimEnd (cs ++ blanks) = Text.trimEnd cs :=
  Text.trimEnd_append_of_blank cs (Text.isBlankText_of_isIndent hblanks)

/-- Blanks at the end of a line change nothing but the gap of an item that holds nothing. -/
theorem Row.line_append_blanks (number other : Nat) (leading : List Char) {body : List Char}
    (hbody : body ≠ []) :
    (Row.line ⟨number, leading, body⟩).Alike (Row.line ⟨other, leading, body ++ blanks⟩) := by
  unfold Row.line
  dsimp only
  rw [afterMarker?_append_blanks hblanks hbody]
  split
  · exact .same _
  · cases afterMarker? body with
    | none =>
        simp only [Option.map_none, Row.text, Row.indent, trimEnd_append_blanks hblanks]
        exact .same _
    | some rest =>
        simp only [Option.map_some, Row.indent]
        rcases parts_append_blanks hblanks rest with ⟨hrest, hlonger⟩ | ⟨-, hgap, hlonger⟩
        · rw [hrest, hlonger]
          exact .unfilled _ _ _
        · rw [hgap, hlonger, trimEnd_append_blanks hblanks]
          exact .same _

theorem ofLine?_append_blanks {R : Nat → Nat → Prop} {number other : Nat}
    (hnumber : R number other) (line : List Char) :
    Option.Rel (Row.Alike R) (Row.ofLine? number line) (Row.ofLine? other (line ++ blanks)) := by
  unfold Row.ofLine?
  dsimp only
  rcases parts_append_blanks hblanks line with ⟨hbody, hlonger⟩ | ⟨hbody, hleading, hlonger⟩
  · rw [hbody, hlonger]
    exact .none
  · have hblank : Text.isBlankText blanks = true := Text.isBlankText_of_isIndent hblanks
    have hvoid : Text.isBlankText (line.dropWhile Text.isIndent ++ blanks) =
        Text.isBlankText (line.dropWhile Text.isIndent) := by
      rw [Text.isBlankText, List.all_append, ← Text.isBlankText, ← Text.isBlankText, hblank,
        Bool.and_true]
    rw [hleading, hlonger, hvoid, List.head?_append_of_ne_nil _ hbody]
    split
    · exact .none
    · exact .some ⟨hnumber, Row.line_append_blanks hblanks number other _ hbody⟩

end

/-! ## Texts line by line -/

def joinedRows (number : Nat) (lines : List (List Char)) : List Row :=
  rowsFrom number (Text.lines (['\n'].intercalate lines))

section
variable {line : List Char} (hline : '\n' ∉ line)
include hline

/-- Before a line feed two carriage returns are taken off a line, at the end of the text one. -/
theorem joinedRows_cons {number : Nat}
    (hreturn : Row.ofLine? number (Text.withoutReturn (Text.withoutReturn line)) =
      Row.ofLine? number (Text.withoutReturn line)) (lines : List (List Char)) :
    joinedRows number (line :: lines) =
      (Row.ofLine? number (Text.withoutReturn line)).toList ++ joinedRows (number + 1) lines := by
  unfold joinedRows
  cases lines with
  | nil =>
      rw [List.intercalate_singleton]
      by_cases hempty : line = []
      · rw [hempty]
        rfl
      · rw [Text.lines_of_unbroken hline hempty, rowsFrom_cons]
        rfl
  | cons next lines =>
      rw [List.intercalate_cons_cons, List.append_assoc, List.singleton_append,
        Text.lines_append_newline hline, rowsFrom_cons, hreturn]

theorem joinedRows_cons_of_isVoid (hvoid : IsVoid line) (number : Nat)
    (lines : List (List Char)) :
    joinedRows number (line :: lines) = joinedRows (number + 1) lines := by
  have hnone := hvoid.withoutReturn.ofLine? number
  have hreturn := hvoid.withoutReturn.withoutReturn.ofLine? number
  rw [joinedRows_cons hline (hreturn.trans hnone.symm), hnone]
  rfl

theorem joinedRows_cons_of_unreturned (hreturn : '\r' ∉ line) (number : Nat)
    (lines : List (List Char)) :
    joinedRows number (line :: lines) =
      (Row.ofLine? number line).toList ++ joinedRows (number + 1) lines := by
  have hwhole := Text.withoutReturn_of_not_mem hreturn
  rw [joinedRows_cons hline (by rw [hwhole, hwhole]), hwhole]

/-- One carriage return at the end of a line is no part of it. -/
theorem joinedRows_cons_append_return (hreturn : '\r' ∉ line) (number : Nat)
    (lines : List (List Char)) :
    joinedRows number ((line ++ ['\r']) :: lines) =
      (Row.ofLine? number line).toList ++ joinedRows (number + 1) lines := by
  have hended := Text.withoutReturn_append_return line
  have hwhole := Text.withoutReturn_of_not_mem hreturn
  have hfeed : '\n' ∉ line ++ ['\r'] := by simp [hline]
  rw [joinedRows_cons hfeed (by rw [hended, hwhole]), hended]

end

/-! ## Texts under edits -/

theorem joinedRows_after_keep {line blanks : List Char}
    (hblanks : ∀ c ∈ blanks, Text.isIndent c = true) (hfeed : '\n' ∉ line) (hreturn : '\r' ∉ line)
    (returned : Bool) (number : Nat) (lines : List (List Char)) :
    joinedRows number ((line ++ blanks ++ if returned then ['\r'] else []) :: lines) =
      (Row.ofLine? number (line ++ blanks)).toList ++ joinedRows (number + 1) lines := by
  have hlonger (c : Char) (hc : Text.isIndent c = false) (hline : c ∉ line) :
      c ∉ line ++ blanks := by
    rw [List.mem_append, not_or]
    exact ⟨hline, fun hmem => absurd (hblanks c hmem) (by simp [hc])⟩
  have hfeed := hlonger '\n' (by decide) hfeed
  have hreturn := hlonger '\r' (by decide) hreturn
  cases returned with
  | true => exact joinedRows_cons_append_return hfeed hreturn number lines
  | false =>
      rw [if_neg Bool.false_ne_true, List.append_nil]
      exact joinedRows_cons_of_unreturned hfeed hreturn number lines

theorem forall₂_toList_append {R : α → β → Prop} {x : Option α} {y : Option β} {xs : List α}
    {ys : List β} (hhead : Option.Rel R x y) (hall : List.Forall₂ R xs ys) :
    List.Forall₂ R (x.toList ++ xs) (y.toList ++ ys) := by
  cases hhead with
  | none => exact hall
  | some hhead => exact .cons hhead hall

namespace Edit

/-- The rows of a text stay, at the lines that they have after the edits. -/
theorem forall₂_joinedRows {edits : List Edit} (hedits : ∀ edit ∈ edits, edit.IsLayout)
    (hlines : ∀ line ∈ edits.filterMap before?, '\n' ∉ line ∧ '\r' ∉ line) (number other : Nat) :
    List.Forall₂ (Row.Alike (MovesFrom number other edits))
      (joinedRows number (edits.filterMap before?)) (joinedRows other (edits.filterMap after?)) := by
  induction edits generalizing number other with
  | nil => exact .nil
  | cons edit edits ih =>
      obtain ⟨hedit, hrest⟩ := List.forall_mem_cons.1 hedits
      rw [List.filterMap_cons] at hlines ⊢
      rw [List.filterMap_cons]
      cases edit with
      | keep line blanks returned =>
          obtain ⟨⟨hfeed, hreturn⟩, hlines⟩ := List.forall_mem_cons.1 hlines
          have hblanks := List.all_eq_true.1 hedit
          simp only [before?, after?]
          rw [joinedRows_cons_of_unreturned hfeed hreturn,
            joinedRows_after_keep hblanks hfeed hreturn]
          have hfirst : MovesFrom number other (keep line blanks returned :: edits) number other :=
            movesFrom_first line blanks returned
          refine forall₂_toList_append (ofLine?_append_blanks hblanks hfirst line) ?_
          exact (ih hrest hlines (number + 1) (other + 1)).imp fun _ _ =>
            Row.Alike.mono fun _ _ hmoves => hmoves.keep line blanks returned
      | remove line =>
          obtain ⟨⟨hfeed, -⟩, hlines⟩ := List.forall_mem_cons.1 hlines
          simp only [before?, after?]
          rw [joinedRows_cons_of_isVoid hfeed hedit]
          exact (ih hrest hlines (number + 1) other).imp fun _ _ =>
            Row.Alike.mono fun _ _ hmoves => hmoves.remove line
      | insert line =>
          simp only [before?, after?]
          rw [joinedRows_cons_of_isVoid hedit.2 hedit.1]
          exact (ih hrest hlines number (other + 1)).imp fun _ _ =>
            Row.Alike.mono fun _ _ hmoves => hmoves.insert line

end Edit

/-- A source is read as the same book or with the same fault, at the line where it now is,
whatever is done to its layout. -/
theorem parse_agree_edited {text : String} {edits : List Edit} (hreturn : '\r' ∉ text.toList)
    (hlines : text.toList.splitOn '\n' = edits.filterMap Edit.before?)
    (hedits : ∀ edit ∈ edits, edit.IsLayout) :
    Agree (Edit.Moves edits) (· = ·) (parse text) (parse (Edit.edited edits)) := by
  have hunbroken : ∀ line ∈ edits.filterMap Edit.before?, '\n' ∉ line ∧ '\r' ∉ line := by
    intro line hline
    rw [← hlines] at hline
    exact (Text.subset_of_mem_splitOn hline).imp_right fun hsubset hmem => hreturn (hsubset hmem)
  have hrows := Edit.forall₂_joinedRows hedits hunbroken 1 1
  rw [← hlines, joinedRows, joinedRows, List.intercalate_splitOn] at hrows
  refine parse_agree ?_
  rw [rows_eq_rowsFrom, rows_eq_rowsFrom, Edit.edited, String.toList_ofList]
  exact hrows

def fault? : Except ε α → Option ε
  | .ok _ => none
  | .error fault => some fault

theorem eq_error_of_fault? {result : Except ε α} {fault : ε} (hfault : fault? result = some fault) :
    result = .error fault := by
  cases result with
  | ok value => cases hfault
  | error other => exact congrArg _ (Option.some.inj hfault)

/-- A faulty placeholder after a weight, below an item that a blank line runs through. -/
theorem parse_agree_edited_column :
    ∃ edits : List Edit,
      Edit.edited edits = "\t# b:\na: \r\n-\t \r\n  x\r\n\r\n\n- 2x y {{1}} " ∧
      parse "a:\n-\n\n  x\n- 2x y {{1}}" =
        .error ⟨5, .placeholder "a" (some 8) (.invalidName "1")⟩ ∧
      parse (Edit.edited edits) = .error ⟨7, .placeholder "a" (some 8) (.invalidName "1")⟩ ∧
      Agree (Edit.Moves edits) (· = ·) (parse "a:\n-\n\n  x\n- 2x y {{1}}")
        (parse (Edit.edited edits)) := by
  refine ⟨[.insert "\t# b:".toList, .keep "a:".toList [' '] true, .keep ['-'] ['\t', ' '] true,
    .remove [], .keep "  x".toList [] true, .insert ['\r'], .insert [],
    .keep "- 2x y {{1}}".toList [' '] false], by decide +kernel, ?_, ?_, ?_⟩
  · exact eq_error_of_fault? (by decide +kernel)
  · exact eq_error_of_fault? (by decide +kernel)
  · exact parse_agree_edited (by decide +kernel) (by decide +kernel) (by decide +kernel)

end Phrasebook.Source
