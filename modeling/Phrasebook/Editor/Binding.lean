import Phrasebook.Docs.Markdown
import Phrasebook.Editor.Samples
import Phrasebook.Json.Text

/-! # What an editor calls

The operations that an editor in a browser uses. They take and answer texts, and
structured answers are JSON.
-/

namespace Phrasebook.Editor

def generate (source seed : String) (t : Binary64) : Except Fault String :=
  match Source.parse source with
  | .error error => .error (.source error)
  | .ok book =>
    match book.generate Config.default Config.default.start Bindings.empty (Seed.ofText seed) t with
    | .error error => .error (.expansion error)
    | .ok text => .ok text

def nextSeed (seed : String) : String := (Seed.ofText seed).next.text

def prevSeed (seed : String) : String := (Seed.ofText seed).prev.text

def preamble (source : String) : Except Fault String :=
  match Source.parse source with
  | .error error => .error (.source error)
  | .ok book => .ok (Json.object [("duration", Json.number book.preamble.duration),
      ("animation", Json.quote book.preamble.animation.name)])

def renderDocs (markdown seed : String) : String :=
  Docs.render (Docs.engineRenderer Config.default (Seed.ofText seed)) markdown

def sampleNames : String := Json.array (samples.map fun sample => Json.quote sample.1)

def sampleSource? (name : String) : Option String :=
  (samples.find? (·.1 == name)).map (·.2)

def openSession (source : String) (seed : Seed) : Session :=
  Session.ofSource Config.default seed (some source)

def variantsText (variants : List Session.Variant) : String :=
  Json.array (variants.map fun variant =>
    Json.object [("seed", Json.quote variant.seed.text), ("text", Json.quote variant.text)])

end Phrasebook.Editor
