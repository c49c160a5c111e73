import Phrasebook.Name
import Phrasebook.Template.Basic
import Phrasebook.Text.Blank

/-! # Reading templates

`{{` opens a placeholder and the next `}}` closes it; what stands between, trimmed,
is the name. Every other character is literal, single braces and a `}}` that closes
nothing among them. Reading stops at the first placeholder that is at fault and
says where it opens.
-/

namespace Phrasebook.Template

inductive Fault where
  | unterminated
  | emptyName
  | invalidName (name : String)
deriving DecidableEq

def Fault.message : Fault → String
  | .unterminated => "unterminated placeholder: expected '\x7d\x7d'"
  | .emptyName => "empty placeholder"
  | .invalidName name => "invalid placeholder name '" ++ name ++ "'"

/-- A fault, with the number of characters before the placeholder. -/
structure Error where
  offset : Nat
  fault : Fault
deriving DecidableEq

def Error.message (error : Error) : String := error.fault.message

/-! ## Tokens -/

inductive Token where
  | char (c : Char)
  | name (name : String)
deriving DecidableEq

/-- What stands before the first `}}` and what follows it; `seen` is the text passed
over so far, reversed. -/
def splitClosing (seen : List Char) : List Char → Option (List Char × List Char)
  | [] => none
  | '}' :: '}' :: rest => some (seen.reverse, rest)
  | c :: rest => splitClosing (c :: seen) rest

theorem length_lt_of_splitClosing {seen cs content rest : List Char}
    (h : splitClosing seen cs = some (content, rest)) : rest.length < cs.length := by
  fun_induction splitClosing seen cs with
  | case1 => simp at h
  | case2 seen rest' =>
    cases h
    simp only [List.length_cons]
    omega
  | case3 seen c rest' _ ih =>
    have := ih h
    simp only [List.length_cons]
    omega

def readName (content : List Char) : Except Fault String :=
  let name := Text.trim content
  if Name.isValid name then .ok (String.ofList name)
  else if name.isEmpty then .error .emptyName
  else .error (.invalidName (String.ofList name))

/-- The tokens of a text that has `offset` characters before it; `done` holds the
tokens before it, the last one first. -/
def tokensFrom (offset : Nat) (done : List Token) (cs : List Char) : Except Error (List Token) :=
  match cs with
  | [] => .ok done.reverse
  | '{' :: '{' :: inner =>
    match h : splitClosing [] inner with
    | none => .error ⟨offset, .unterminated⟩
    | some (content, rest) =>
      have _shorter := length_lt_of_splitClosing h
      match readName content with
      | .error fault => .error ⟨offset, fault⟩
      | .ok name => tokensFrom (offset + content.length + 4) (.name name :: done) rest
  | c :: rest => tokensFrom (offset + 1) (.char c :: done) rest
termination_by cs.length
decreasing_by
  · simp only [List.length_cons]
    omega
  · simp

/-! ## Segments -/

/-- A literal of the pending characters, given in reverse, before the segments; none
when nothing is pending. -/
def flush (pending : List Char) (segments : Template) : Template :=
  if pending.isEmpty then segments
  else .literal (String.ofList pending.reverse) :: segments

/-- Joins runs of characters into literals; `pending` is the run being read, reversed. -/
def ofTokens (pending : List Char) : List Token → Template
  | [] => flush pending []
  | .char c :: tokens => ofTokens (c :: pending) tokens
  | .name name :: tokens => flush pending (.placeholder name :: ofTokens [] tokens)

def parse (text : List Char) : Except Error Template :=
  match tokensFrom 0 [] text with
  | .error error => .error error
  | .ok tokens => .ok (ofTokens [] tokens)

end Phrasebook.Template
