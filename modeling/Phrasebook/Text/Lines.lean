/-! # Lines

A line ends at a line feed or at the end of the text, and a carriage return right
before the line feed belongs to the end of the line. A text that ends in a line
feed has no further line after it.
-/

namespace Phrasebook.Text

/-- A line, given in reverse, without one carriage return at its end. -/
def dropReturn : List Char → List Char
  | '\r' :: cs => cs
  | cs => cs

/-- Reads lines; `line` is the one being read and `done` the ones before it, both reversed. -/
def linesFrom (line : List Char) (done : List (List Char)) : List Char → List (List Char)
  | [] => if line.isEmpty then done.reverse else (line.reverse :: done).reverse
  | '\n' :: cs => linesFrom [] ((dropReturn line).reverse :: done) cs
  | c :: cs => linesFrom (c :: line) done cs

def lines (text : List Char) : List (List Char) := linesFrom [] [] text

/-- Reads pieces that end in a line feed; arguments as for `linesFrom`. -/
def piecesFrom (piece : List Char) (done : List (List Char)) : List Char → List (List Char)
  | [] => if piece.isEmpty then done.reverse else (piece.reverse :: done).reverse
  | '\n' :: cs => piecesFrom [] (('\n' :: piece).reverse :: done) cs
  | c :: cs => piecesFrom (c :: piece) done cs

/-- The lines of a text with their ends, so that joining them gives the text back. -/
def pieces (text : List Char) : List (List Char) := piecesFrom [] [] text

theorem flatten_piecesFrom (piece : List Char) (done : List (List Char)) (cs : List Char) :
    (piecesFrom piece done cs).flatten = done.reverse.flatten ++ piece.reverse ++ cs := by
  fun_induction piecesFrom piece done cs with
  | case1 piece done empty =>
    have : piece = [] := List.isEmpty_iff.1 empty
    simp [this]
  | case2 piece done _ => simp
  | case3 piece done cs ih =>
    rw [ih]
    simp
  | case4 piece done c cs _ ih =>
    rw [ih]
    simp

/-- Nothing is lost. -/
theorem flatten_pieces (text : List Char) : (pieces text).flatten = text := by
  simpa [pieces] using flatten_piecesFrom [] [] text

def withoutReturn (line : List Char) : List Char := (dropReturn line.reverse).reverse

end Phrasebook.Text
