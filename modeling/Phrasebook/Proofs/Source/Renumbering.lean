import Mathlib.Data.List.Forall2
import Phrasebook.Proofs.Source.Rows

/-!
# Reading up to line numbers

A source is read alike wherever its rows stand. Given which line numbers of one source
belong to which of another, two sources with the same lines at such numbers take the reader
through states that differ in line numbers only, to the same book or to the same fault.

The gap after the dash of an item is kept as long as something follows it, for it counts
only where a column is told.
-/

namespace Phrasebook.Source

variable {R : Nat → Nat → Prop}

/-! ## Faults and results -/

/-- The same cause, but for the line of a category that was given before. -/
def Cause.Alike (R : Nat → Nat → Prop) : Cause → Cause → Prop
  | .duplicateCategory name line, .duplicateCategory other otherLine =>
    other = name ∧ R line otherLine
  | cause, other => other = cause

structure Error.Alike (R : Nat → Nat → Prop) (error other : Error) : Prop where
  line : R error.line other.line
  cause : error.cause.Alike R other.cause

/-- Values that are related by `V`, or else the same fault at lines that belong together. -/
inductive Agree (R : Nat → Nat → Prop) (V : α → β → Prop) :
    Except Error α → Except Error β → Prop
  | ok {value : α} {other : β} : V value other → Agree R V (.ok value) (.ok other)
  | error {error other : Error} : error.Alike R other → Agree R V (.error error) (.error other)

namespace Agree

theorem mono {V W : α → β → Prop} {result : Except Error α} {other : Except Error β}
    (hresults : Agree R V result other) (hVW : ∀ a b, V a b → W a b) :
    Agree R W result other := by
  cases hresults with
  | ok hvalues => exact .ok (hVW _ _ hvalues)
  | error herrors => exact .error herrors

theorem bind {V : α → β → Prop} {W : γ → δ → Prop} {result : Except Error α}
    {other : Except Error β} {f : α → Except Error γ} {g : β → Except Error δ}
    (hresults : Agree R V result other) (hnext : ∀ a b, V a b → Agree R W (f a) (g b)) :
    Agree R W (result.bind f) (other.bind g) := by
  cases hresults with
  | ok hvalues => exact hnext _ _ hvalues
  | error herrors => exact .error herrors

theorem mapM {V : α → β → Prop} {W : γ → δ → Prop} {xs : List α} {ys : List β}
    {f : α → Except Error γ} {g : β → Except Error δ} (hall : List.Forall₂ V xs ys)
    (hstep : ∀ a b, V a b → Agree R W (f a) (g b)) :
    Agree R (List.Forall₂ W) (xs.mapM f) (ys.mapM g) := by
  induction hall with
  | nil => exact .ok .nil
  | cons hhead _ ih =>
      rw [List.mapM_cons, List.mapM_cons]
      exact (hstep _ _ hhead).bind fun _ _ hvalue => ih.bind fun _ _ hvalues =>
        .ok (.cons hvalue hvalues)

end Agree

/-! ## Items -/

/-- The same item at lines that belong together. Where its first line is empty its column
may be another one. -/
structure Item.Alike (R : Nat → Nat → Prop) (item other : Item) : Prop where
  line : R item.line other.line
  pieces : other.pieces = item.pieces
  column : item.pieces.getLast? ≠ some [] → other.column = item.column

namespace Item

variable {item other : Item}

/-- One more line leaves the first one as it is. -/
theorem Alike.push (halike : item.Alike R other) (body : List Char) :
    Item.Alike R { item with pieces := body :: item.pieces }
      { other with pieces := body :: other.pieces } where
  line := halike.line
  pieces := congrArg (body :: ·) halike.pieces
  column := by
    intro hfirst
    refine halike.column fun hempty => hfirst ?_
    rw [List.getLast?_cons, hempty]
    rfl

/-- What the column is told of starts on the item's first line. -/
theorem getLast?_pieces_ne {item : Item} (hfolded : item.isFolded = false)
    (htext : item.text ≠ []) : item.pieces.getLast? ≠ some [] := by
  obtain ⟨line, column, pieces⟩ := item
  match pieces with
  | [] => simp
  | [piece] =>
      rintro hpiece
      obtain rfl : piece = [] := by simpa using hpiece
      exact htext rfl
  | first :: second :: rest => simp [isFolded] at hfolded

/-- An empty text is an alternative. -/
theorem text_ne_nil_of_placeholder {weighted : Weighted} {unquoted : Unquoted}
    {error : Template.Error} (hweighted : splitWeight item.text = .ok weighted)
    (hunquoted : unquote weighted.rest = .ok unquoted)
    (hparse : Template.parse unquoted.text = .error error) : item.text ≠ [] := by
  intro hnil
  rw [hnil] at hweighted
  cases hweighted
  cases hunquoted
  simp [Template.parse, Template.tokensFrom] at hparse

theorem Alike.alternative (halike : item.Alike R other) (category : String) :
    Agree R (· = ·) (item.alternative category) (other.alternative category) := by
  have htext : other.text = item.text := by rw [text, text, halike.pieces]
  have hfolded : other.isFolded = item.isFolded := by rw [isFolded, isFolded, halike.pieces]
  unfold Item.alternative
  rw [htext, hfolded]
  cases hweighted : splitWeight item.text with
  | error fault => exact .error ⟨halike.line, rfl⟩
  | ok weighted =>
      dsimp only
      cases hunquoted : unquote weighted.rest with
      | error fault => exact .error ⟨halike.line, rfl⟩
      | ok unquoted =>
          dsimp only
          cases hparse : Template.parse unquoted.text with
          | ok template => exact .ok rfl
          | error error =>
              refine .error ⟨halike.line, ?_⟩
              cases hitem : item.isFolded with
              | true => rfl
              | false =>
                  have hfilled := text_ne_nil_of_placeholder hweighted hunquoted hparse
                  rw [halike.column (getLast?_pieces_ne hitem hfilled)]
                  rfl

end Item

/-! ## States -/

inductive Block.Alike (R : Nat → Nat → Prop) : Block → Block → Prop
  | category {name : String} {line otherLine : Nat} {indent : Option Nat}
      {items others : List Item} : R line otherLine → List.Forall₂ (Item.Alike R) items others →
      Alike R (.category name line indent items) (.category name otherLine indent others)
  | settings {indent : Option Nat} {given : Settings} :
      Alike R (.settings indent given) (.settings indent given)

namespace State

structure Alike (R : Nat → Nat → Prop) (state other : State) : Prop where
  categories : other.categories = state.categories
  headings : List.Forall₂ (fun heading other => other.1 = heading.1 ∧ R heading.2 other.2)
    state.headings other.headings
  preamble : other.preamble = state.preamble
  block : Option.Rel (Block.Alike R) state.block other.block

theorem alike_start : start.Alike R start := ⟨rfl, .nil, rfl, .none⟩

variable {state other : State}

theorem Alike.book (halike : state.Alike R other) : state.book = other.book := by
  rw [State.book, State.book, halike.categories, halike.preamble]

theorem Alike.withBlock (halike : state.Alike R other) {block otherBlock : Block}
    (hblock : block.Alike R otherBlock) :
    Alike R { state with block := some block } { other with block := some otherBlock } :=
  ⟨halike.categories, halike.headings, halike.preamble, .some hblock⟩

/-- The heading of a key was met in both or in neither. -/
theorem Alike.find? (halike : state.Alike R other) (key : String) :
    Option.Rel (fun heading other => R heading.2 other.2)
      (state.headings.find? (·.1 == key)) (other.headings.find? (·.1 == key)) := by
  have hheadings := halike.headings
  generalize state.headings = headings, other.headings = others at hheadings
  induction hheadings with
  | nil => exact .none
  | @cons heading other _ _ hhead _ ih =>
      rw [List.find?_cons, List.find?_cons, hhead.1]
      cases heading.1 == key with
      | true => exact .some hhead.2
      | false => exact ih

theorem alternatives_agree {items others : List Item}
    (hitems : List.Forall₂ (Item.Alike R) items others) (category : String) :
    Agree R (· = ·) (items.reverse.mapM (Item.alternative category))
      (others.reverse.mapM (Item.alternative category)) :=
  (Agree.mapM (List.rel_reverse hitems) fun _ _ hitem => hitem.alternative category).mono
    fun _ _ => List.forall₂_eq_eq_eq.le _ _

/-! ## Steps -/

theorem Alike.close (halike : state.Alike R other) :
    Agree R (State.Alike R) state.close other.close := by
  have hblock := halike.block
  unfold State.close
  generalize state.block = block, other.block = otherBlock at hblock
  cases hblock with
  | none => exact .ok halike
  | some hblock =>
      cases hblock with
      | settings => exact .ok ⟨halike.categories, halike.headings, rfl, .none⟩
      | @category name line otherLine indent items others hline hitems =>
          have hempty : others.isEmpty = items.isEmpty := by cases hitems <;> rfl
          dsimp only
          rw [hempty]
          split
          · exact .error ⟨hline, rfl⟩
          · have hresults := alternatives_agree hitems name
            generalize items.reverse.mapM (Item.alternative name) = result,
              others.reverse.mapM (Item.alternative name) = otherResult at hresults
            cases hresults with
            | error herrors => exact .error herrors
            | @ok alternatives _ heq =>
                obtain rfl := heq
                exact .ok ⟨congrArg (_ :: ·) halike.categories, halike.headings,
                  halike.preamble, .none⟩

section
variable (halike : state.Alike R other) {line otherLine : Nat} (hline : R line otherLine)
include halike hline

theorem Alike.openBlock (body : List Char) :
    Agree R (State.Alike R) (state.openBlock line body) (other.openBlock otherLine body) := by
  have hclosed := halike.close
  unfold State.openBlock
  generalize state.close = closed, other.close = otherClosed at hclosed
  cases hclosed with
  | error herrors => exact .error herrors
  | @ok state other halike =>
      dsimp only
      cases headingKey body with
      | error fault => exact .error ⟨hline, rfl⟩
      | ok key =>
          have hfound := halike.find? key
          dsimp only
          generalize state.headings.find? (·.1 == key) = found,
            other.headings.find? (·.1 == key) = otherFound at hfound
          cases hfound with
          | some hfirst => exact .error ⟨hline, rfl, hfirst⟩
          | none =>
              refine .ok ⟨halike.categories, .cons ⟨rfl, hline⟩ halike.headings,
                halike.preamble, .some ?_⟩
              split
              · exact .settings
              · exact .category hline .nil

omit halike in
theorem checkIndent_agree (expected : Option Nat) (indent : Nat) :
    Agree R (· = ·) (checkIndent expected line indent) (checkIndent expected otherLine indent) := by
  unfold checkIndent
  cases expected with
  | none => exact .ok rfl
  | some e =>
      dsimp only
      split
      · exact .ok rfl
      · exact .error ⟨hline, rfl⟩

theorem Alike.readItem (indent : Nat) {gap otherGap : Nat} {content : List Char}
    (hgap : content ≠ [] → otherGap = gap) :
    Agree R (State.Alike R) (state.readItem line indent gap content)
      (other.readItem otherLine indent otherGap content) := by
  have hblock := halike.block
  unfold State.readItem
  generalize state.block = block, other.block = otherBlock at hblock
  cases hblock with
  | none => exact .error ⟨hline, rfl⟩
  | some hblock =>
      cases hblock with
      | settings => exact .error ⟨hline, rfl⟩
      | @category name heading otherHeading expected items others hheading hitems =>
          have hchecked := checkIndent_agree hline expected indent
          dsimp only
          generalize checkIndent expected line indent = checked,
            checkIndent expected otherLine indent = otherChecked at hchecked
          cases hchecked with
          | error herrors => exact .error herrors
          | ok heq =>
              obtain rfl := heq
              refine .ok (halike.withBlock (.category hheading (.cons ⟨hline, rfl, ?_⟩ hitems)))
              intro hcontent
              have hcontent : content ≠ [] := by simpa using hcontent
              dsimp only
              rw [hgap hcontent]

theorem Alike.readIndented (indent : Nat) (body : List Char) :
    Agree R (State.Alike R) (state.readIndented line indent body)
      (other.readIndented otherLine indent body) := by
  have hblock := halike.block
  unfold State.readIndented
  generalize state.block = block, other.block = otherBlock at hblock
  cases hblock with
  | none => exact .error ⟨hline, rfl⟩
  | some hblock =>
      cases hblock with
      | @settings expected given =>
          have hchecked := checkIndent_agree hline expected indent
          dsimp only
          generalize checkIndent expected line indent = checked,
            checkIndent expected otherLine indent = otherChecked at hchecked
          cases hchecked with
          | error herrors => exact .error herrors
          | ok heq =>
              obtain rfl := heq
              dsimp only
              cases given.read body with
              | error fault => exact .error ⟨hline, rfl⟩
              | ok given => exact .ok (halike.withBlock .settings)
      | @category name heading otherHeading expected items others hheading hitems =>
          cases hitems with
          | nil => exact .error ⟨hline, rfl⟩
          | cons hitem hitems =>
              dsimp only
              split
              · exact .ok (halike.withBlock (.category hheading (.cons (hitem.push body) hitems)))
              · exact .error ⟨hline, rfl⟩

end

end State

/-! ## Lines and rows -/

/-- The same line, but for the gap after the dash of an item that holds nothing. -/
inductive Line.Alike : Line → Line → Prop
  | same (line : Line) : Alike line line
  | unfilled (indent gap otherGap : Nat) : Alike (.item indent gap []) (.item indent otherGap [])

structure Row.Alike (R : Nat → Nat → Prop) (row other : Row) : Prop where
  number : R row.number other.number
  line : row.line.Alike other.line

theorem Row.Alike.mono {R S : Nat → Nat → Prop} (hRS : ∀ n m, R n m → S n m) {row other : Row}
    (halike : row.Alike R other) : row.Alike S other :=
  ⟨hRS _ _ halike.number, halike.line⟩

namespace State

variable {state other : State}

theorem Alike.read (halike : state.Alike R other) {number otherNumber : Nat}
    (hnumber : R number otherNumber) {line otherLine : Line} (hline : line.Alike otherLine) :
    Agree R (State.Alike R) (state.read number line) (other.read otherNumber otherLine) := by
  cases hline with
  | unfilled indent gap otherGap =>
      exact halike.readItem hnumber indent fun hne => absurd rfl hne
  | same =>
      cases line with
      | blank => exact .ok halike
      | tabbed => exact .error ⟨hnumber, rfl⟩
      | item indent gap content => exact halike.readItem hnumber indent fun _ => rfl
      | heading body => exact halike.openBlock hnumber body
      | indented indent body => exact halike.readIndented hnumber indent body

theorem Alike.readRows (halike : state.Alike R other) {rows others : List Row}
    (hrows : List.Forall₂ (Row.Alike R) rows others) :
    Agree R (State.Alike R) (state.readRows rows) (other.readRows others) := by
  induction hrows generalizing state other with
  | nil => exact .ok halike
  | cons hrow _ ih => exact (halike.read hrow.number hrow.line).bind fun _ _ hnext => ih hnext

end State

/-- Sources with the same lines at numbers that belong together are read alike. -/
theorem parse_agree {text other : String}
    (hrows : List.Forall₂ (Row.Alike R) (rows text) (rows other)) :
    Agree R (· = ·) (parse text) (parse other) := by
  rw [parse_eq_readRows, parse_eq_readRows]
  refine (State.alike_start.readRows hrows).bind fun state other halike => ?_
  have hclosed := halike.close
  generalize state.close = closed, other.close = otherClosed at hclosed
  cases hclosed with
  | ok halike => exact .ok halike.book
  | error herrors => exact .error herrors

end Phrasebook.Source
