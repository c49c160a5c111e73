import Phrasebook.Preview.Command
import Phrasebook.Preview.Dump
import Phrasebook.Preview.Statistics

/-! # The interactive shell

The shell carries out commands on a session. What it prints and the session after a
command are functions of the session, the line typed and the sketch file as it stands
then.
-/

namespace Phrasebook.Preview

/-! ## Pieces of output -/

def prompt : String := "preview> "

def shown (text : String) : String := "\n--- Output ---\n" ++ text ++ "\n--- End ---\n\n"

def showResult : Except Session.Error String → String
  | .ok text => shown text
  | .error error => "ERROR: " ++ error.message ++ "\n"

def helpText : String :=
  "Commands:\n" ++
  "  next | prev       Step the seed forward or back\n" ++
  "  seed [<seed>]     Show or set the seed\n" ++
  "  frame <t>         Render at time t in [0, 1)\n" ++
  "  play [<fps>]      Print one playback cycle (default 10 fps)\n" ++
  "  bulk <n>          Render n successive seeds with variety statistics\n" ++
  "  reload            Re-read the sketch file\n" ++
  "  dump              Print the parsed phrase book as RON\n" ++
  "  help              Show this help\n" ++
  "  quit              Exit\n"

/-! ## Playing -/

def mostFrames : Nat := 4294967295

def frameCount (playback : Playback) (rate : Nat) : Nat :=
  let frames := playback.duration.mul (Binary64.ofNat rate)
  if frames.isFinite then min frames.ceiling mostFrames else mostFrames

/-- Plays `count` frames from frame number `frame` on, until the animation is over or a
rendering fails; `out` is what has been printed. -/
def playFrom (rate : Nat) (out : String) :
    (count frame : Nat) → Session → String × Session
  | 0, _, session => (out, session)
  | count + 1, frame, session =>
    let elapsed := (Binary64.ofNat frame).div (Binary64.ofNat rate)
    match session.playFrame elapsed with
    | (.ok (some text), session) =>
      let line := "[" ++ padLeft 6 (Decimal.fixed 2 elapsed) ++ "s] " ++ text ++ "\n"
      playFrom rate (out ++ line) count (frame + 1) session
    | (.ok none, session) => (out, session)
    | (.error error, session) => (out ++ "ERROR: " ++ error.message ++ "\n", session)

def play (session : Session) (rate : Nat) : String × Session :=
  let playback := session.playback
  let heading := "Playing " ++ Decimal.fixed 2 playback.duration ++ "s (" ++
    playback.animation.name ++ ") at " ++ toString rate ++ " fps\n"
  playFrom rate heading (frameCount playback rate) 0 session

/-! ## Commands -/

/-- What a command prints, and the session to go on with, none when the shell ends. -/
structure Response where
  out : String
  session : Option Session

def seedChanged (label : String) (reply : Session.Reply String) : Response :=
  ⟨label ++ reply.2.seed.text ++ "\n" ++ showResult reply.1, some reply.2⟩

def reload (session : Session) (path : String) (file : FileText) : Response :=
  match file with
  | .error fault => ⟨"ERROR reading " ++ path ++ ": " ++ fault.message ++ "\n", some session⟩
  | .ok source =>
    let reply := session.setSource source
    let unchanged :=
      if reply.2.readCount = session.readCount then "Source unchanged.\n" else ""
    ⟨unchanged ++ showResult reply.1, some reply.2⟩

/-- Carries out a command; `file` is the sketch file as it stands. -/
def execute (session : Session) (path : String) (file : FileText) : Command → Response
  | .nothing => ⟨"", some session⟩
  | .quit => ⟨"Goodbye.\n", none⟩
  | .help => ⟨helpText, some session⟩
  | .next => seedChanged "Seed: " session.nextSeed
  | .prev => seedChanged "Seed: " session.prevSeed
  | .showSeed =>
    ⟨"Current seed: " ++ session.seed.text ++ " (state " ++ toString session.seed.state.toNat ++
      ")\n", some session⟩
  | .setSeed text => seedChanged "Seed set to " (session.setSeed (Seed.ofText text))
  | .frame none => ⟨"Usage: frame <t>\n", some session⟩
  | .frame (some t) =>
    match session.renderFrame t with
    | (.ok text, session) => ⟨"[t=" ++ Decimal.fixed 3 t ++ "] " ++ text ++ "\n", some session⟩
    | (.error error, session) => ⟨"ERROR: " ++ error.message ++ "\n", some session⟩
  | .play none => ⟨"Usage: play [<fps>]\n", some session⟩
  | .play (some rate) =>
    let (out, session) := play session rate
    ⟨out, some session⟩
  | .bulk none => ⟨"Usage: bulk <n>\n", some session⟩
  | .bulk (some count) =>
    match session.variants count with
    | .ok variants => ⟨statistics variants, some session⟩
    | .error error => ⟨"ERROR: " ++ error.message ++ "\n", some session⟩
  | .reload => reload session path file
  | .dump =>
    match session.book with
    | some book => ⟨dump book ++ "\n", some session⟩
    | none => ⟨"No phrase book parsed yet.\n", some session⟩
  | .unknown word =>
    ⟨"Unknown command: '" ++ word ++ "'. Type 'help' for available commands.\n", some session⟩

def respond (session : Session) (path : String) (file : FileText) (line : String) : Response :=
  execute session path file (Command.read line)

end Phrasebook.Preview
