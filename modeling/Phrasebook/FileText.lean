/-! # Texts read from files

The result of reading a file as text. Reading fails in the system, which then says why, or on
bytes that are no text.
-/

namespace Phrasebook

inductive FileFault where
  /-- The file could not be read, for the reason that the system gives in the message. -/
  | system (message : String)
  | notUtf8
deriving DecidableEq

def FileFault.missing : FileFault := .system "No such file or directory (os error 2)"

def FileFault.message : FileFault → String
  | .system message => message
  | .notUtf8 => "stream did not contain valid UTF-8"

abbrev FileText := Except FileFault String

def FileText.ofBytes (bytes : ByteArray) : FileText :=
  match String.fromUTF8? bytes with
  | some text => .ok text
  | none => .error .notUtf8

end Phrasebook
