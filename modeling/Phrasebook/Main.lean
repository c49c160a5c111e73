import Phrasebook.Invocation
import Phrasebook.Lint.Files
import Phrasebook.Preview.Run
import Phrasebook.Seed.Random

/-! # The program

Reads files and lines, hands them to the library and prints what it answers.
-/

namespace Phrasebook

/-- The reason of the system, followed by its number. -/
def FileFault.ofError : IO.Error → FileFault
  | .alreadyExists _ code reason | .interrupted _ code reason | .noFileOrDirectory _ code reason
  | .invalidArgument _ code reason | .permissionDenied _ code reason
  | .resourceExhausted _ code reason | .inappropriateType _ code reason
  | .noSuchThing _ code reason | .otherError code reason | .resourceBusy code reason
  | .resourceVanished code reason | .unsupportedOperation code reason
  | .hardwareFault code reason | .unsatisfiedConstraints code reason
  | .illegalOperation code reason | .protocolError code reason | .timeExpired code reason =>
    .system (reason ++ " (os error " ++ toString code ++ ")")
  | .unexpectedEof => .system "unexpected end of file"
  | .userError reason => .system reason

def readText (path : String) : IO FileText :=
  try
    return FileText.ofBytes (← IO.FS.withFile path .read (·.readBinToEnd))
  catch error =>
    return .error (.ofError error)

partial def readTree (path : String) : IO (Option FileTree) := do
  try
    let place ← IO.FS.realPath path
    if ← place.isDir then
      let mut entries := #[]
      for entry in ← place.readDir do
        if let some tree ← readTree entry.path.toString then
          entries := entries.push (entry.fileName, tree)
      return some (.directory entries.toList)
    else
      return some (.file (← readText path))
  catch _ =>
    return none

def randomSeed : IO Seed := do
  let word := Draw.Hash.ofBytes (← IO.getRandomBytes 32)
  return Seed.ofState (Seed.drawState (Draw.Keystream.Key.ofSeed word) 0).state

/-- Reads lines and prints their answers until the shell ends or no line is left. -/
partial def serve (run : Preview.Run) : IO Unit := do
  let out ← IO.getStdout
  out.flush
  let line ← (← IO.getStdin).getLine
  if !line.isEmpty then
    let sketch ← readText run.sketchPath
    let (answer, run) := { run with sketch := sketch }.step (.typed line)
    out.putStr answer
    if run.session.isSome then
      serve run

def Invocation.execute : Invocation → IO UInt32
  | .lint path options => do
    let run := Lint.run path (← readTree path) options
    IO.print run.out
    IO.eprint run.err
    return run.status.toUInt32
  | .preview sketch seed config print => do
    let seed ← match seed with
      | some text => pure (Seed.ofText text)
      | none => randomSeed
    let config ← config.mapM fun path => return (path, ← readText path)
    let start := Preview.start ⟨sketch, ← readText sketch, seed, config, print⟩
    match start with
    | .failed err => IO.eprint err
    | .printed out => IO.print out
    | .waiting out run =>
      IO.print out
      serve run
    return start.status.toUInt32

end Phrasebook

def main (args : List String) : IO UInt32 :=
  match Phrasebook.Invocation.read? args with
  | some invocation => invocation.execute
  | none => do
    IO.eprint Phrasebook.Invocation.usage
    return 2
