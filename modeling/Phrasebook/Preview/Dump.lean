import Phrasebook.Book.Basic
import Phrasebook.Ron.Printer

/-! # Dumps of books

A dump shows the whole of a book as one RON value.
-/

namespace Phrasebook.Preview

def segmentValue : Segment → Ron.Value
  | .literal text => .tuple (some "Literal") [.text text]
  | .placeholder name => .tuple (some "Placeholder") [.text name]

def alternativeValue (alternative : Alternative) : Ron.Value :=
  .record none [("weight", .float alternative.weight),
    ("template", .record none [("segments", .list (alternative.template.map segmentValue))])]

def categoryValue (category : Category) : Ron.Value :=
  .record none [("name", .text category.name),
    ("alternatives", .list (category.alternatives.map alternativeValue))]

def preambleValue (preamble : Preamble) : Ron.Value :=
  .record none [("duration", .float preamble.duration),
    ("animation", .name preamble.animation.name)]

/-- The categories stand in the order of their names. A table that is hashed has them in the order
of its hashes, which says nothing of the book: two dumps are the same up to that order. -/
def bookValue (book : Book) : Ron.Value :=
  .record none [
    ("categories", .map (book.categories.map fun c => (.text c.name, categoryValue c))),
    ("preamble", preambleValue book.preamble)]

def dump (book : Book) : String := (bookValue book).indented 0

end Phrasebook.Preview
