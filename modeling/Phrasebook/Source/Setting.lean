import Phrasebook.Book.Basic
import Phrasebook.Decimal.Reader
import Phrasebook.Source.Error

/-! # Settings

A line of the settings block is a key and a value with a colon between them. The
value may be quoted, and each setting is given at most once.
-/

namespace Phrasebook.Source

structure Settings where
  duration : Option Binary64
  animation : Option Animation
deriving Inhabited

namespace Settings

def empty : Settings := ⟨none, none⟩

def preamble (settings : Settings) : Preamble :=
  ⟨settings.duration.getD Preamble.default.duration,
    settings.animation.getD Preamble.default.animation⟩

end Settings

def unquoteWith? (quote : Char) : List Char → Option (List Char)
  | [] => none
  | c :: rest =>
    if c == quote && rest.getLast? == some quote then some rest.dropLast else none

def unquoteSetting (value : List Char) : List Char :=
  match unquoteWith? '"' value with
  | some inner => inner
  | none => (unquoteWith? '\'' value).getD value

def readDuration? (value : List Char) : Option Binary64 :=
  (Binary64.read? value).filter Preamble.isDuration

def Settings.read (settings : Settings) (body : List Char) : Except SettingFault Settings :=
  match body.dropWhile (· != ':') with
  | [] => .error (.pairExpected (String.ofList body))
  | _ :: rest =>
    let key := String.ofList (Text.trim (body.takeWhile (· != ':')))
    let value := unquoteSetting (Text.trim rest)
    if key = "duration" then
      if settings.duration.isSome then .error (.repeated key)
      else
        match readDuration? value with
        | none => .error (.invalidDuration (String.ofList value))
        | some duration => .ok { settings with duration := some duration }
    else if key = "animation" then
      if settings.animation.isSome then .error (.repeated key)
      else
        match Animation.ofName? (String.ofList value) with
        | none => .error (.invalidAnimation (String.ofList value))
        | some animation => .ok { settings with animation := some animation }
    else .error (.unrecognized key)

end Phrasebook.Source
