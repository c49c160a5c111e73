import Mathlib.Data.List.Forall2
import Phrasebook.Source.Reader

/-!
# The grammar of sources

What a source has to look like to be a phrase book, and which book it then is. Nothing
here follows the reader: the significant lines are parted into blocks, a block into its
heading and its items or settings, an item's text into a weight and a text that may be
quoted, and each part says what it writes.
-/

namespace Phrasebook.Source

/-! ## Rows -/

/-- A significant line: its number, the spaces and tabs it starts with, and the rest. -/
structure Row where
  number : Nat
  leading : List Char
  body : List Char

/-- The row of a line, none when the line is blank or a comment after its leading spaces
and tabs. -/
def Row.ofLine? (number : Nat) (line : List Char) : Option Row :=
  let body := line.dropWhile Text.isIndent
  if Text.isBlankText body || body.head? == some '#' then none
  else some ⟨number, line.takeWhile Text.isIndent, body⟩

/-- The significant lines of a text, which is read without the carriage returns that end
its lines. -/
def rows (text : String) : List Row :=
  ((Text.lines text.toList).zipIdx 1).filterMap fun (line, number) =>
    Row.ofLine? number (Text.withoutReturn line)

namespace Row

def indent (row : Row) : Nat := row.leading.length

def text (row : Row) : List Char := Text.trimEnd row.body

/-- A dash that ends the line or stands before a space or a tab. -/
def IsItem (row : Row) : Prop :=
  row.body = ['-'] ∨ ∃ c rest, row.body = '-' :: c :: rest ∧ Text.isIndent c = true

def content (row : Row) : List Char := Text.trimEnd ((row.body.drop 1).dropWhile Text.isIndent)

/-- A key that is not indented, then a colon and nothing else; there may be blanks around
the colon. -/
structure Heads (row : Row) (key : String) : Prop where
  unindented : row.leading = []
  unmarked : ¬row.IsItem
  form : ∃ before after, row.body = key.toList ++ before ++ ':' :: after ∧
    Text.isBlankText before = true ∧ Text.isBlankText after = true

end Row

/-! ## Items -/

structure ItemRows where
  first : Row
  more : List Row

namespace ItemRows

def rows (item : ItemRows) : List Row := item.first :: item.more

/-- The item's texts with single spaces between them, and none before the first that is
not empty. -/
def text (item : ItemRows) : List Char :=
  item.more.foldl
    (fun text row => if text.isEmpty then row.text else text ++ ' ' :: row.text)
    item.first.content

/-- The item stands at an indentation, and all that goes on with it stands deeper. -/
structure StandsAt (item : ItemRows) (indent : Nat) : Prop where
  marked : item.first.IsItem
  aligned : item.first.indent = indent
  deeper : ∀ row ∈ item.more, ¬row.IsItem ∧ indent < row.indent

end ItemRows

/-- Decimal digits with at most one point, an `x`, and a space or a tab. -/
def HasWeight (text : List Char) : Prop :=
  ∃ digits c rest, text = digits ++ 'x' :: c :: rest ∧ isPlainDecimal digits = true ∧
    Text.isIndent c = true

/-- A text parted into its weight and the rest; the weight is one when none is given. -/
inductive Weighs : List Char → Binary64 → List Char → Prop
  | given {digits gap rest : List Char} {weight : Binary64} :
      isPlainDecimal digits = true → gap ≠ [] → (∀ c ∈ gap, Text.isIndent c = true) →
      (∀ c ∈ rest.head?, Text.isIndent c = false) →
      Binary64.read? digits = some weight → weight.isFinite = true →
      Weighs (digits ++ 'x' :: (gap ++ rest)) weight rest
  | absent {text : List Char} : ¬HasWeight text → Weighs text .one text

inductive EscapeOf : Char → Char → Prop
  | quote : EscapeOf '"' '"'
  | backslash : EscapeOf '\\' '\\'
  | newline : EscapeOf 'n' '\n'
  | tab : EscapeOf 't' '\t'

/-- The inside of double quotes and the text that it stands for. -/
inductive Escapes : List Char → List Char → Prop
  | nil : Escapes [] []
  | char {c : Char} {cs out : List Char} : c ≠ '\\' → Escapes cs out → Escapes (c :: cs) (c :: out)
  | escape {e c : Char} {cs out : List Char} :
      EscapeOf e c → Escapes cs out → Escapes ('\\' :: e :: cs) (c :: out)

/-- The inside of single quotes and the text that it stands for: from the left, two quotes
stand for one. -/
inductive Doubles : List Char → List Char → Prop
  | nil : Doubles [] []
  | pair {cs out : List Char} : Doubles cs out → Doubles ('\'' :: '\'' :: cs) ('\'' :: out)
  | char {c : Char} {cs out : List Char} :
      (c = '\'' → cs.head? ≠ some '\'') → Doubles cs out → Doubles (c :: cs) (c :: out)

/-- A text and what it says: the inside of its quotes, or the text itself when it starts
with none. -/
inductive Quotes : List Char → List Char → Prop
  | double {inner out : List Char} : Escapes inner out → Quotes ('"' :: (inner ++ ['"'])) out
  | single {inner out : List Char} : Doubles inner out → Quotes ('\'' :: (inner ++ ['\''])) out
  | bare {text : List Char} :
      text.head? ≠ some '"' → text.head? ≠ some '\'' → Quotes text text

def WritesAlternative (text : List Char) (alternative : Alternative) : Prop :=
  ∃ rest out, Weighs text alternative.weight rest ∧ Quotes rest out ∧
    Template.parse out = .ok alternative.template

/-! ## Settings -/

inductive Setting where
  | duration (seconds : Binary64)
  | animation (animation : Animation)

def Setting.key : Setting → String
  | .duration _ => "duration"
  | .animation _ => "animation"

/-- A value and what stands within the pair of equal quotes around it, or the value itself
when there is none. -/
inductive Unwraps : List Char → List Char → Prop
  | quoted {q : Char} {inner : List Char} :
      q = '"' ∨ q = '\'' → Unwraps (q :: (inner ++ [q])) inner
  | bare {value : List Char} :
      (∀ q inner, q = '"' ∨ q = '\'' → value ≠ q :: (inner ++ [q])) → Unwraps value value

inductive Gives : List Char → Setting → Prop
  | duration {value : List Char} {seconds : Binary64} :
      Binary64.read? value = some seconds → Preamble.isDuration seconds = true →
      Gives value (.duration seconds)
  | animation {animation : Animation} : Gives animation.name.toList (.animation animation)

/-- A text and the setting that it writes: a key and a value with a colon between them. -/
def WritesSetting (text : List Char) (setting : Setting) : Prop :=
  ∃ key value inner, text = key ++ ':' :: value ∧ ':' ∉ key ∧
    Text.trim key = setting.key.toList ∧ Unwraps (Text.trim value) inner ∧ Gives inner setting

structure SettingRow where
  row : Row
  setting : Setting

structure SettingRow.StandsAt (line : SettingRow) (indent : Nat) : Prop where
  unmarked : ¬line.row.IsItem
  aligned : line.row.indent = indent
  written : WritesSetting line.row.text line.setting

structure IsPreambleOf (settings : List Setting) (preamble : Preamble) : Prop where
  duration : ∀ seconds, .duration seconds ∈ settings → preamble.duration = seconds
  animation : ∀ animation, .animation animation ∈ settings → preamble.animation = animation
  defaultDuration : (∀ seconds, .duration seconds ∉ settings) →
    preamble.duration = Preamble.default.duration
  defaultAnimation : (∀ animation, .animation animation ∉ settings) →
    preamble.animation = Preamble.default.animation

/-! ## Blocks -/

/-- A block, as far as rows make it: a heading with its key, then items or settings. -/
inductive BlockRows where
  | category (heading : Row) (name : String) (items : List ItemRows)
  | settings (heading : Row) (lines : List SettingRow)

namespace BlockRows

def heading : BlockRows → Row
  | .category heading _ _ => heading
  | .settings heading _ => heading

def key : BlockRows → String
  | .category _ name _ => name
  | .settings _ _ => preambleKey

def body : BlockRows → List Row
  | .category _ _ items => items.flatMap ItemRows.rows
  | .settings _ lines => lines.map SettingRow.row

def rows (block : BlockRows) : List Row := block.heading :: block.body

/-- The block is laid out as one: the heading is that of its key, and the rest of it
stands at one indentation. -/
inductive IsLaidOut : BlockRows → Prop
  | category {heading : Row} {name : String} {items : List ItemRows} (indent : Nat) :
      heading.Heads name → Name.isValid name.toList = true →
      (∀ item ∈ items, item.StandsAt indent) → IsLaidOut (.category heading name items)
  | settings {heading : Row} {lines : List SettingRow} (indent : Nat) :
      heading.Heads preambleKey → 0 < indent → (∀ line ∈ lines, line.StandsAt indent) →
      ((lines.map SettingRow.setting).map Setting.key).Nodup → IsLaidOut (.settings heading lines)

end BlockRows

inductive Part where
  | category (category : Category)
  | preamble (preamble : Preamble)

/-- A block and what it writes. Each item of a category, of which there is at least one,
writes an alternative. -/
inductive BlockRows.Writes : BlockRows → Part → Prop
  | category {heading : Row} {name : String} {items : List ItemRows}
      {alternatives : List Alternative} :
      items ≠ [] →
      List.Forall₂ (fun item alternative => WritesAlternative item.text alternative) items
        alternatives →
      Writes (.category heading name items) (.category ⟨name, alternatives⟩)
  | settings {heading : Row} {lines : List SettingRow} {preamble : Preamble} :
      IsPreambleOf (lines.map SettingRow.setting) preamble →
      Writes (.settings heading lines) (.preamble preamble)

/-! ## Sources -/

structure IsSource (text : String) (blocks : List BlockRows) (parts : List Part) : Prop where
  untabbed : ∀ row ∈ rows text, '\t' ∉ row.leading
  parted : rows text = blocks.flatMap BlockRows.rows
  laidOut : ∀ block ∈ blocks, block.IsLaidOut
  distinct : (blocks.map BlockRows.key).Nodup
  written : List.Forall₂ BlockRows.Writes blocks parts

/-- The book of the parts written: their categories, and their preamble or the default. -/
structure IsBookOf (parts : List Part) (book : Book) : Prop where
  categories : ∀ category, category ∈ book.categories ↔ .category category ∈ parts
  preamble : ∀ preamble, .preamble preamble ∈ parts → book.preamble = preamble
  defaultPreamble : (∀ preamble, .preamble preamble ∉ parts) → book.preamble = Preamble.default

end Phrasebook.Source
