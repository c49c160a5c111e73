import Phrasebook.Preview.Shell

/-! # Runs of the shell

A run starts from a sketch and a configuration. It prints one rendering and is over, or
waits for lines, while the sketch file may change at any time; once the shell has ended,
lines are no longer answered. The prompt follows every answer but the last.
-/

namespace Phrasebook.Preview

/-! ## Events -/

inductive Event where
  | typed (line : String)
  /-- The sketch file is written anew, or removed. -/
  | changed (sketch : FileText)

structure Run where
  sketchPath : String
  /-- The sketch file as it stands. -/
  sketch : FileText
  /-- The session, none when the shell has ended. -/
  session : Option Session

namespace Run

def step (run : Run) : Event → String × Run
  | .changed sketch => ("", { run with sketch := sketch })
  | .typed line =>
    match run.session with
    | none => ("", run)
    | some session =>
      let response := respond session run.sketchPath run.sketch line
      let next := if response.session.isSome then prompt else ""
      (response.out ++ next, { run with session := response.session })

def answers (run : Run) : List Event → List String
  | [] => []
  | event :: events => (run.step event).1 :: (run.step event).2.answers events

def after (run : Run) (events : List Event) : Run :=
  events.foldl (fun run event => (run.step event).2) run

theorem answers_append (run : Run) (first second : List Event) :
    run.answers (first ++ second) = run.answers first ++ (run.after first).answers second := by
  induction first generalizing run with
  | nil => rfl
  | cons event events ih => exact congrArg ((run.step event).1 :: ·) (ih (run.step event).2)

end Run

/-! ## Starting -/

def greeting (session : Session) : String :=
  let loaded := match session.book with
    | some book => "Loaded " ++ toString book.size ++ " categories\n"
    | none => ""
  let fault := match session.lastFault with
    | some fault => "ERROR: " ++ fault.message ++ "\n"
    | none => ""
  loaded ++ "Seed: " ++ session.seed.text ++ "\n" ++ fault ++ shown session.output ++
    "Type 'help' for commands.\n\n"

def failureText (error : String) (causes : List String) : String :=
  let listed := match causes with
    | [] => ""
    | [cause] => "\nCaused by:\n    " ++ cause ++ "\n"
    | causes =>
      let numbered := causes.zipIdx.map fun (cause, i) =>
        "    " ++ toString i ++ ": " ++ cause ++ "\n"
      "\nCaused by:\n" ++ String.join numbered
  "Error: " ++ error ++ "\n" ++ listed

/-- The causes of a configuration that cannot be had, each followed by its own. -/
def configCauses (error : Config.Error) : List String :=
  match error with
  | .file fault => [error.message, fault.message]
  | _ => [error.message]

structure Arguments where
  sketchPath : String
  sketch : FileText
  seed : Seed
  /-- The path and the text of a configuration file. -/
  config : Option (String × FileText)
  /-- Whether to print one rendering and end. -/
  print : Bool

inductive Start where
  /-- The run fails with this text on the error output. -/
  | failed (err : String)
  /-- The run is over after printing this. -/
  | printed (out : String)
  /-- The shell prints this and waits for lines. -/
  | waiting (out : String) (run : Run)

/-- The status of the program in the end; a shell ends well however it is left. -/
def Start.status : Start → Nat
  | .failed _ => 1
  | .printed _ | .waiting _ _ => 0

def startSession (arguments : Arguments) (config : Config) (source : String) : Start :=
  match Session.build (some config) none arguments.seed (some source) with
  | .error error => .failed (failureText error.message [])
  | .ok session =>
    if arguments.print then
      match session.lastFault with
      | some fault => .failed (failureText fault.message [])
      | none => .printed (session.output ++ "\n")
    else
      .waiting (greeting session ++ prompt)
        ⟨arguments.sketchPath, arguments.sketch, some session⟩

/-- Starts a run: the configuration is read first, then the sketch. -/
def start (arguments : Arguments) : Start :=
  match Config.choose none (arguments.config.map (·.2)) with
  | .error error =>
    let path := (arguments.config.map (·.1)).getD ""
    .failed (failureText ("loading config " ++ path) (configCauses error))
  | .ok config =>
    match arguments.sketch with
    | .error fault => .failed (failureText ("reading " ++ arguments.sketchPath) [fault.message])
    | .ok source => startSession arguments config source

end Phrasebook.Preview
