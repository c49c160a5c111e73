import Phrasebook.Lint.Report
import Phrasebook.Text.Digits

/-! # The command line

There are two commands. `lint` checks a file or a directory and `preview` opens a shell
on a sketch. Options are written with two dashes, their values after an equals sign or
as the next argument.
-/

namespace Phrasebook

inductive Invocation where
  | lint (path : String) (options : Lint.Options)
  | preview (sketch : String) (seed config : Option String) (print : Bool)

namespace Invocation

structure Arguments where
  plain : List String
  options : List (String × String)

/-- The name of an option and the value written after its equals sign. -/
def splitOption? (argument : String) : Option (String × Option String) :=
  match argument.toList with
  | '-' :: '-' :: rest =>
    let name := String.ofList (rest.takeWhile (· != '='))
    match rest.dropWhile (· != '=') with
    | _ :: value => some (name, some (String.ofList value))
    | [] => some (name, none)
  | _ => none

/-- Parts arguments; the options among `flags` take no value. -/
def Arguments.read? (flags : List String) : List String → Option Arguments
  | [] => some ⟨[], []⟩
  | argument :: rest =>
    match splitOption? argument with
    | none => (read? flags rest).map fun a => { a with plain := argument :: a.plain }
    | some (name, some value) =>
      (read? flags rest).map fun a => { a with options := (name, value) :: a.options }
    | some (name, none) =>
      if name ∈ flags then
        (read? flags rest).map fun a => { a with options := (name, "") :: a.options }
      else
        match rest with
        | [] => none
        | value :: rest =>
          (read? flags rest).map fun a => { a with options := (name, value) :: a.options }

namespace Arguments

def get? (arguments : Arguments) (name : String) : Option String :=
  (arguments.options.find? (·.1 == name)).map (·.2)

def hasOnly (arguments : Arguments) (names : List String) : Bool :=
  arguments.options.all fun option => names.contains option.1

end Arguments

def readLint? (arguments : Arguments) : Option Invocation :=
  match arguments.plain, arguments.hasOnly ["start", "min-alternatives"] with
  | [path], true =>
    let start := (arguments.get? "start").getD Lint.Options.default.start
    match arguments.get? "min-alternatives" with
    | none => some (.lint path ⟨start, Lint.Options.default.minAlternatives⟩)
    | some written =>
      if Text.isDigits written.toList then
        some (.lint path ⟨start, Text.digitsValue written.toList⟩)
      else none
  | _, _ => none

def readPreview? (arguments : Arguments) : Option Invocation :=
  match arguments.plain, arguments.hasOnly ["seed", "config", "print"] with
  | [sketch], true =>
    some (.preview sketch (arguments.get? "seed") (arguments.get? "config")
      (arguments.get? "print").isSome)
  | _, _ => none

def read? : List String → Option Invocation
  | "lint" :: rest => (Arguments.read? [] rest).bind readLint?
  | "preview" :: rest => (Arguments.read? ["print"] rest).bind readPreview?
  | _ => none

def usage : String :=
  "Usage: phrasebook lint <path> [--start=<category>] [--min-alternatives=<n>]\n" ++
  "       phrasebook preview <sketch> [--seed=<seed>] [--config=<file>] [--print]\n"

end Invocation

end Phrasebook
