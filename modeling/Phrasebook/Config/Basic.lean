/-! # Engine configuration

The limits of an expansion and the category it starts from when none is named. A
configuration is usable when no limit is zero and the start is not empty.
-/

namespace Phrasebook

structure Config where
  /-- The deepest nesting of category expansions. -/
  maxDepth : Nat
  /-- How many category expansions one run may make. -/
  maxExpansions : Nat
  /-- The category that is expanded when none is named. -/
  start : String
deriving DecidableEq, Inhabited

namespace Config

def default : Config := ⟨64, 1000000, "root"⟩

inductive Fault where
  | zeroDepth
  | zeroExpansions
  | emptyStart
deriving DecidableEq

def Fault.message : Fault → String
  | .zeroDepth => "max_depth must be at least 1"
  | .zeroExpansions => "max_expansions must be at least 1"
  | .emptyStart => "start_category must not be empty"

def fault? (config : Config) : Option Fault :=
  if config.maxDepth = 0 then some .zeroDepth
  else if config.maxExpansions = 0 then some .zeroExpansions
  else if config.start.isEmpty then some .emptyStart
  else none

end Config

end Phrasebook
