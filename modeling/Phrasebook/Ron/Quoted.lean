import Phrasebook.Text.Visible

/-! # Quoted texts in RON

A text stands between double quotes, and characters that do not show by themselves are
escaped. Reading knows more escapes than writing uses, and raw texts, which stand
between quotes with equally many hash marks around them and hold no escapes.
-/

namespace Phrasebook.Ron

/-! ## Writing -/

def hexDigits (n : Nat) : String := String.ofList (Nat.toDigits 16 n)

def escapeChar (c : Char) : String :=
  if c = '\x00' then "\\0"
  else if c = '\t' then "\\t"
  else if c = '\r' then "\\r"
  else if c = '\n' then "\\n"
  else if c = '\\' || c = '"' || c = '\'' then "\\" ++ c.toString
  else if Text.isVisible c then c.toString
  else "\\u\x7b" ++ hexDigits c.toNat ++ "\x7d"

def quote (s : String) : String := "\"" ++ String.join (s.toList.map escapeChar) ++ "\""

/-! ## Reading -/

def hexValue? (c : Char) : Option Nat :=
  if c.isDigit then some (c.toNat - '0'.toNat)
  else if 'a' ≤ c ∧ c ≤ 'f' then some (c.toNat - 'a'.toNat + 10)
  else if 'A' ≤ c ∧ c ≤ 'F' then some (c.toNat - 'A'.toNat + 10)
  else none

/-- Reads hexadecimal digits up to a closing brace, at most `room` of them. -/
def readCodePoint? (value : Nat) : (room : Nat) → List Char → Option (Nat × List Char)
  | _, '}' :: cs => some (value, cs)
  | 0, _ => none
  | _, [] => none
  | room + 1, c :: cs =>
    match hexValue? c with
    | some digit => readCodePoint? (16 * value + digit) room cs
    | none => none

def readEscape? : List Char → Option (Char × List Char)
  | '\'' :: cs => some ('\'', cs)
  | '"' :: cs => some ('"', cs)
  | '\\' :: cs => some ('\\', cs)
  | 'n' :: cs => some ('\n', cs)
  | 'r' :: cs => some ('\r', cs)
  | 't' :: cs => some ('\t', cs)
  | '0' :: cs => some ('\x00', cs)
  | 'x' :: a :: b :: cs =>
    match hexValue? a, hexValue? b with
    | some high, some low => some (Char.ofNat (16 * high + low), cs)
    | _, _ => none
  | 'u' :: '{' :: '}' :: _ => none
  | 'u' :: '{' :: cs =>
    match readCodePoint? 0 6 cs with
    | some (n, rest) => if n.isValidChar then some (Char.ofNat n, rest) else none
    | none => none
  | _ => none

theorem length_lt_of_readCodePoint? {value room : Nat} {cs rest : List Char} {n : Nat}
    (h : readCodePoint? value room cs = some (n, rest)) : rest.length < cs.length := by
  fun_induction readCodePoint? value room cs with
  | case1 value room cs =>
    cases h
    exact Nat.lt_succ_self _
  | case2 => cases h
  | case3 => cases h
  | case4 value room c cs _ digit _ ih => exact Nat.lt_succ_of_lt (ih h)
  | case5 => cases h

theorem length_lt_of_readEscape? {cs rest : List Char} {c : Char}
    (h : readEscape? cs = some (c, rest)) : rest.length < cs.length := by
  unfold readEscape? at h
  split at h
  case h_8 =>
    split at h
    · cases h
      simp only [List.length_cons]
      omega
    · cases h
  case h_10 =>
    split at h
    · next read =>
      split at h
      · cases h
        have := length_lt_of_readCodePoint? read
        simp only [List.length_cons]
        omega
      · cases h
    · cases h
  case h_9 => cases h
  case h_11 => cases h
  all_goals
    cases h
    exact Nat.lt_succ_self _

/-- Reads a text up to its closing quote; `done` is what has been read, reversed. -/
def readQuoted? (done : List Char) : List Char → Option (String × List Char)
  | [] => none
  | '"' :: cs => some (String.ofList done.reverse, cs)
  | '\\' :: cs =>
    match h : readEscape? cs with
    | some (c, rest) =>
      have _shorter := length_lt_of_readEscape? h
      readQuoted? (c :: done) rest
    | none => none
  | c :: cs => readQuoted? (c :: done) cs
termination_by cs => cs.length
decreasing_by
  · simp only [List.length_cons]
    omega
  · simp

def beginsWithMarks (marks : Nat) (cs : List Char) : Bool :=
  (cs.take marks).length == marks && (cs.take marks).all (· == '#')

/-- Reads a raw text up to a quote with the given number of hash marks after it. -/
def readRaw? (marks : Nat) (done : List Char) : List Char → Option (String × List Char)
  | [] => none
  | '"' :: cs =>
    if beginsWithMarks marks cs then some (String.ofList done.reverse, cs.drop marks)
    else readRaw? marks ('"' :: done) cs
  | c :: cs => readRaw? marks (c :: done) cs

def readRawText? (cs : List Char) : Option (String × List Char) :=
  let marks := (cs.takeWhile (· == '#')).length
  match cs.drop marks with
  | '"' :: rest => readRaw? marks [] rest
  | _ => none

end Phrasebook.Ron
