import Phrasebook.Source.Item
import Phrasebook.Source.Line
import Phrasebook.Source.Setting
import Phrasebook.Text.Lines

/-! # Reading a source

A source is read line by line. A heading closes the block before it and opens one;
the lines up to the next heading belong to that block. The items of a category are
made into alternatives when its block closes, so the first fault of a source is the
first one met in this order.
-/

namespace Phrasebook.Source

def preambleKey : String := "%preamble"

/-- A block being read; `indent` is the indentation of its first line. -/
inductive Block where
  /-- A category, with the line of its heading and its items, the last one first. -/
  | category (name : String) (line : Nat) (indent : Option Nat) (items : List Item)
  /-- The settings. -/
  | settings (indent : Option Nat) (given : Settings)

structure State where
  /-- The categories whose blocks are closed, the last one first. -/
  categories : List Category
  /-- The keys of all headings and their lines, the last one first. -/
  headings : List (String × Nat)
  preamble : Preamble
  block : Option Block

namespace State

def start : State := ⟨[], [], Preamble.default, none⟩

def close (state : State) : Except Error State :=
  match state.block with
  | none => .ok state
  | some (.settings _ given) => .ok { state with preamble := given.preamble, block := none }
  | some (.category name line _ items) =>
    if items.isEmpty then .error ⟨line, .emptyCategory name⟩
    else
      match items.reverse.mapM (Item.alternative name) with
      | .error error => .error error
      | .ok alternatives =>
        .ok { state with categories := ⟨name, alternatives⟩ :: state.categories, block := none }

def headingKey (body : List Char) : Except FormFault String :=
  match body.reverse with
  | ':' :: rest =>
    let key := Text.trimEnd rest.reverse
    if String.ofList key = preambleKey ∨ Name.isValid key then .ok (String.ofList key)
    else .error (.invalidName (String.ofList key))
  | _ => .error (.headingExpected (body.contains ':'))

def openBlock (state : State) (line : Nat) (body : List Char) : Except Error State :=
  match state.close with
  | .error error => .error error
  | .ok state =>
    match headingKey body with
    | .error fault => .error ⟨line, .form fault⟩
    | .ok key =>
      match state.headings.find? (·.1 == key) with
      | some (_, firstLine) => .error ⟨line, .duplicateCategory key firstLine⟩
      | none =>
        let block :=
          if key = preambleKey then Block.settings none Settings.empty
          else Block.category key line none []
        .ok { state with headings := (key, line) :: state.headings, block := some block }

def checkIndent (expected : Option Nat) (line indent : Nat) : Except Error Nat :=
  match expected with
  | none => .ok indent
  | some e =>
    if e = indent then .ok indent else .error ⟨line, .indentation (.inconsistent e indent)⟩

def readItem (state : State) (line indent gap : Nat) (content : List Char) : Except Error State :=
  match state.block with
  | none => .error ⟨line, .form .itemOutside⟩
  | some (.settings _ _) => .error ⟨line, .setting .itemFound⟩
  | some (.category name heading expected items) =>
    match checkIndent expected line indent with
    | .error error => .error error
    | .ok indent =>
      let item : Item := ⟨line, indent + 1 + gap + 1, [content]⟩
      .ok { state with block := some (.category name heading (some indent) (item :: items)) }

def readIndented (state : State) (line indent : Nat) (body : List Char) : Except Error State :=
  match state.block with
  | none => .error ⟨line, .indentation .outside⟩
  | some (.settings expected given) =>
    match checkIndent expected line indent with
    | .error error => .error error
    | .ok indent =>
      match given.read body with
      | .error fault => .error ⟨line, .setting fault⟩
      | .ok given => .ok { state with block := some (.settings (some indent) given) }
  | some (.category name heading expected items) =>
    match items with
    | item :: items =>
      if expected.getD 0 < indent then
        let item := { item with pieces := body :: item.pieces }
        .ok { state with block := some (.category name heading expected (item :: items)) }
      else .error ⟨line, .indentation (.itemExpected name)⟩
    | [] => .error ⟨line, .indentation (.itemExpected name)⟩

def read (state : State) (number : Nat) : Line → Except Error State
  | .blank => .ok state
  | .tabbed => .error ⟨number, .indentation .tab⟩
  | .item indent gap content => state.readItem number indent gap content
  | .heading body => state.openBlock number body
  | .indented indent body => state.readIndented number indent body

def readAll (state : State) (number : Nat) : List Line → Except Error State
  | [] => .ok state
  | line :: lines =>
    match state.read number line with
    | .error error => .error error
    | .ok state => state.readAll (number + 1) lines

def book (state : State) : Book := Book.ofCategories state.categories.reverse state.preamble

end State

def lines (text : List Char) : List Line :=
  (Text.lines text).map fun line => Line.read (Text.withoutReturn line)

def parse (text : String) : Except Error Book :=
  match State.start.readAll 1 (lines text.toList) with
  | .error error => .error error
  | .ok state =>
    match state.close with
    | .error error => .error error
    | .ok state => .ok state.book

end Phrasebook.Source
