import Phrasebook.Config.Basic
import Phrasebook.FileText
import Phrasebook.Ron.Printer
import Phrasebook.Ron.Reader

/-! # Configuration files

A configuration file holds one RON record. Fields it does not give take their defaults,
fields that no configuration has are passed over, and no field is given twice.
-/

namespace Phrasebook.Config

inductive Error where
  | file (fault : FileFault)
  | malformed
  | invalid (fault : Fault)
deriving DecidableEq

def Error.message : Error → String
  | .file fault => "IO error: " ++ fault.message
  | .malformed => "RON deserialization error"
  | .invalid fault => "invalid config: " ++ fault.message

def recordName : String := "EngineConfig"

/-- The only value that fields give to a name: `some none` when they give none, and `none`
when they give several. -/
def uniqueField? (fields : List (String × Ron.Value)) (name : String) :
    Option (Option Ron.Value) :=
  match fields.filter (·.1 == name) with
  | [] => some none
  | [field] => some (some field.2)
  | _ => none

def limit? (default : Nat) : Option Ron.Value → Option Nat
  | none => some default
  | some (.natural n) => some n
  | some _ => none

def name? (default : String) : Option Ron.Value → Option String
  | none => some default
  | some (.text s) => some s
  | some _ => none

def ofFields? (fields : List (String × Ron.Value)) : Option Config := do
  let maxDepth ← limit? default.maxDepth (← uniqueField? fields "max_depth")
  let maxExpansions ← limit? default.maxExpansions (← uniqueField? fields "max_expansions")
  let start ← name? default.start (← uniqueField? fields "start_category")
  return ⟨maxDepth, maxExpansions, start⟩

def toRon (config : Config) : Ron.Value :=
  .record none [("max_depth", .natural config.maxDepth),
    ("max_expansions", .natural config.maxExpansions), ("start_category", .text config.start)]

def check (config : Config) : Except Error Config :=
  match config.fault? with
  | some fault => .error (.invalid fault)
  | none => .ok config

def parse (text : String) : Except Error Config :=
  match (Ron.readRecord? recordName text.toList).bind ofFields? with
  | some config => config.check
  | none => .error .malformed

def load : FileText → Except Error Config
  | .ok text => parse text
  | .error fault => .error (.file fault)

/-- The configuration given directly, else that of a file, else the default one. -/
def choose (given : Option Config) (file : Option FileText) : Except Error Config :=
  match given, file with
  | some config, _ => config.check
  | none, some file => load file
  | none, none => .ok default

end Phrasebook.Config
