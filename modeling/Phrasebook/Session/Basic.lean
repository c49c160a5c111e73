import Phrasebook.Config.File
import Phrasebook.Expansion.Generate
import Phrasebook.Playback
import Phrasebook.Source.Reader

/-! # Editing sessions

A session holds a source and a seed and renders them. It keeps the book of the last
source that could be read, so that seed changes and animation frames read nothing
anew, and it keeps the last text rendered when a later source or rendering fails.
-/

namespace Phrasebook

inductive Fault where
  | source (error : Source.Error)
  | expansion (error : Expansion.Error)
deriving DecidableEq

def Fault.message : Fault → String
  | .source error => error.message
  | .expansion error => error.message

namespace Session

inductive Error where
  | fault (fault : Fault)
  | config (error : Config.Error)
  | noBook
deriving DecidableEq

def Error.message : Error → String
  | .fault (.source error) => "parse error: " ++ error.message
  | .fault (.expansion error) => "generation error: " ++ error.message
  | .config error => "config error: " ++ error.message
  | .noBook => "the source has not parsed successfully yet"

end Session

structure Session where
  config : Config
  source : String
  seed : Seed
  book : Option Book
  /-- The source that the book was read from. -/
  readSource : Option String
  /-- The last text rendered. -/
  output : String
  /-- The last fault, until a rendering succeeds. -/
  lastFault : Option Fault
  /-- How often a source has been read. -/
  readCount : Nat

namespace Session

def start (config : Config) (seed : Seed) : Session :=
  ⟨config, "", seed, none, none, "", none, 0⟩

/-- How the session's sketch is played; as by default while there is no book. -/
def playback (session : Session) : Playback :=
  match session.book with
  | some book => Playback.ofPreamble book.preamble
  | none => Playback.ofPreamble Preamble.default

abbrev Reply (α : Type) := Except Error α × Session

def render (session : Session) (t : Binary64) : Reply String :=
  match session.book with
  | none => (.error .noBook, session)
  | some book =>
    match book.generateDefault session.config session.seed t with
    | .ok text => (.ok text, { session with output := text, lastFault := none })
    | .error error =>
      (.error (.fault (.expansion error)),
        { session with lastFault := some (.expansion error) })

/-- Replaces the source and renders it; a source that the book was read from is not
read again, and one that cannot be read leaves book and output as they are. -/
def setSource (session : Session) (source : String) : Reply String :=
  let session := { session with source := source }
  if session.readSource = some source then session.render .zero
  else
    let session := { session with readCount := session.readCount + 1 }
    match Source.parse source with
    | .error error =>
      (.error (.fault (.source error)), { session with lastFault := some (.source error) })
    | .ok book =>
      render { session with book := some book, readSource := some source } .zero

def setSeed (session : Session) (seed : Seed) : Reply String :=
  render { session with seed := seed } .zero

def nextSeed (session : Session) : Reply String := session.setSeed session.seed.next

def prevSeed (session : Session) : Reply String := session.setSeed session.seed.prev

def renderFrame (session : Session) (t : Binary64) : Reply String := session.render t

def playFrame (session : Session) (elapsed : Binary64) : Reply (Option String) :=
  match session.playback.timeAt elapsed with
  | none => (.ok none, session)
  | some t =>
    match session.render t with
    | (.ok text, session) => (.ok (some text), session)
    | (.error error, session) => (.error error, session)

structure Variant where
  seed : Seed
  text : String

/-- The texts of `count` seeds one after another; `done` holds those before, reversed. -/
def variantsFrom (book : Book) (config : Config) (done : List Variant) :
    (count : Nat) → (seed : Seed) → Except Expansion.Error (List Variant)
  | 0, _ => .ok done.reverse
  | count + 1, seed =>
    match book.generateDefault config seed .zero with
    | .error error => .error error
    | .ok text => variantsFrom book config (⟨seed, text⟩ :: done) count seed.next

def variants (session : Session) (count : Nat) : Except Error (List Variant) :=
  match session.book with
  | none => .error .noBook
  | some book =>
    match variantsFrom book session.config [] count session.seed with
    | .ok variants => .ok variants
    | .error error => .error (.fault (.expansion error))

def ofSource (config : Config) (seed : Seed) (source : Option String) : Session :=
  match source with
  | none => start config seed
  | some source => ((start config seed).setSource source).2

def build (given : Option Config) (file : Option FileText) (seed : Seed)
    (source : Option String) : Except Error Session :=
  match Config.choose given file with
  | .error error => .error (.config error)
  | .ok config => .ok (ofSource config seed source)

end Session

end Phrasebook
