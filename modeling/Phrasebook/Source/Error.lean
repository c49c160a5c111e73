import Phrasebook.Template.Reader

/-! # Faults in a source text

What is wrong with a source, as causes, and the line it is found on. The wording
stands in one place, `Error.message`.
-/

namespace Phrasebook.Source

inductive IndentFault where
  | tab
  | inconsistent (expected found : Nat)
  | itemExpected (category : String)
  | outside
deriving DecidableEq

def IndentFault.message : IndentFault → String
  | .tab => "tab characters are not allowed in indentation"
  | .inconsistent expected found =>
    "inconsistent indentation: expected " ++ toString expected ++ " spaces, found " ++
      toString found
  | .itemExpected category => "expected a list item ('- ...') in category '" ++ category ++ "'"
  | .outside => "indented line outside of any category"

inductive FormFault where
  | headingExpected (hasColon : Bool)
  | invalidName (name : String)
  | itemOutside
  | weightOutOfRange (token : String)
  | unterminatedDouble
  | unterminatedSingle
  | unknownEscape (c : Char)
deriving DecidableEq

def FormFault.message : FormFault → String
  | .headingExpected hasColon =>
    if hasColon then
      "expected a category name followed by ':' with alternatives on the following lines"
    else "expected a category name followed by ':'"
  | .invalidName name => "invalid category name '" ++ name ++ "'"
  | .itemOutside => "list item outside of any category"
  | .weightOutOfRange token => "weight '" ++ token ++ "' is out of range"
  | .unterminatedDouble => "unterminated double-quoted string"
  | .unterminatedSingle => "unterminated single-quoted string"
  | .unknownEscape c => "unknown escape sequence '\\" ++ c.toString ++ "'"

inductive SettingFault where
  | itemFound
  | pairExpected (found : String)
  | repeated (key : String)
  | invalidDuration (value : String)
  | invalidAnimation (value : String)
  | unrecognized (key : String)
deriving DecidableEq

def SettingFault.message : SettingFault → String
  | .itemFound => "expected 'key: value' settings, found a list item"
  | .pairExpected found => "expected 'key: value', found '" ++ found ++ "'"
  | .repeated key => "setting '" ++ key ++ "' given more than once"
  | .invalidDuration value =>
    "duration must be a positive number of seconds, got '" ++ value ++ "'"
  | .invalidAnimation value => "animation must be 'bounce' or 'once', got '" ++ value ++ "'"
  | .unrecognized key => "unrecognized setting '" ++ key ++ "'"

inductive Cause where
  | indentation (fault : IndentFault)
  | form (fault : FormFault)
  | duplicateCategory (name : String) (firstLine : Nat)
  | emptyCategory (name : String)
  | placeholder (category : String) (column : Option Nat) (fault : Template.Fault)
  | setting (fault : SettingFault)
deriving DecidableEq

/-- A fault and the line it is found on, counted from one. -/
structure Error where
  line : Nat
  cause : Cause
deriving DecidableEq

namespace Error

/-- The column of a faulty placeholder, counted from one, when the line shows it. -/
def column (error : Error) : Option Nat :=
  match error.cause with
  | .placeholder _ column _ => column
  | _ => none

def message (error : Error) : String :=
  let place := "line " ++ toString error.line
  match error.cause with
  | .indentation fault => place ++ ": " ++ fault.message
  | .form fault => place ++ ": " ++ fault.message
  | .duplicateCategory name firstLine =>
    place ++ ": duplicate category '" ++ name ++ "' (first defined on line " ++
      toString firstLine ++ ")"
  | .emptyCategory name => place ++ ": category '" ++ name ++ "' has no alternatives"
  | .placeholder category column fault =>
    let column := match column with
      | some c => ", column " ++ toString c
      | none => ""
    place ++ column ++ ": " ++ fault.message ++ " in category '" ++ category ++ "'"
  | .setting fault => place ++ ": %preamble: " ++ fault.message

end Error

end Phrasebook.Source
