import Phrasebook.Docs.Fence
import Phrasebook.Docs.Html
import Phrasebook.Session.Basic
import Phrasebook.Text.Lines

/-! # Sketches in documents

A markdown document shows sketches in fenced blocks whose info string begins with
`seed`. Rendering puts the source and its output in place of each such block and leaves
everything else as it is.
-/

namespace Phrasebook.Docs

/-! ## Blocks of a document -/

/-- A line outside fences, or a whole fenced block with its lines. A block without a
closing line reaches to the end of the document. -/
inductive Block where
  | plain (line : List Char)
  | fenced (fence : Fence) (info : List Char) (opening : List Char) (body : List (List Char))
    (closing : Option (List Char))

def Block.source : Block → List Char
  | .plain line => line
  | .fenced _ _ opening body closing => opening ++ body.flatten ++ closing.getD []

def takeFenced (fence : Fence) (info opening : List Char) (lines : List (List Char)) :
    Block × List (List Char) :=
  let body := lines.takeWhile (!fence.isClosedBy ·)
  match lines.dropWhile (!fence.isClosedBy ·) with
  | [] => (.fenced fence info opening body none, [])
  | closing :: rest => (.fenced fence info opening body (some closing), rest)

theorem length_takeFenced_le (fence : Fence) (info opening : List Char)
    (lines : List (List Char)) : (takeFenced fence info opening lines).2.length ≤ lines.length := by
  have shorter := (List.dropWhile_sublist (!fence.isClosedBy ·) (l := lines)).length_le
  unfold takeFenced
  split
  · exact Nat.zero_le _
  · next rest found =>
    rw [found] at shorter
    exact Nat.le_of_succ_le shorter

/-- The blocks that lines make; `done` holds the blocks before them, the last one first. -/
def blocksFrom (done : List Block) (lines : List (List Char)) : List Block :=
  match lines with
  | [] => done.reverse
  | line :: rest =>
    match openingFence? line with
    | none => blocksFrom (.plain line :: done) rest
    | some (fence, info) =>
      have _shorter := length_takeFenced_le fence info line rest
      let taken := takeFenced fence info line rest
      blocksFrom (taken.1 :: done) taken.2
termination_by lines.length
decreasing_by
  · exact Nat.lt_succ_self _
  · exact Nat.lt_succ_of_le _shorter

def blocks (markdown : List Char) : List Block := blocksFrom [] (Text.pieces markdown)

/-! ## Rendering -/

abbrev Renderer := String → Except Session.Error String

def engineRenderer (config : Config) (seed : Seed) : Renderer := fun source =>
  match Source.parse source with
  | .error error => .error (.fault (.source error))
  | .ok book =>
    match book.generateDefault config seed .zero with
    | .error error => .error (.fault (.expansion error))
    | .ok text => .ok text

def sketchLanguage : List Char := "seed".toList

def isSketch (info : List Char) : Bool := (Text.words info).head? == some sketchLanguage

/-- The source that the body of a block holds; the last line feed is not part of it. -/
def code (fence : Fence) (body : List (List Char)) : List Char :=
  let lines := (body.map fence.dedent).flatten
  if lines.getLast? == some '\n' then lines.dropLast else lines

def resultHtml : Except Session.Error String → String
  | .ok text => "<div class=\"code-result\">" ++ text ++ "</div>"
  | .error error =>
    "<div class=\"code-result error\">" ++ String.ofList (escape error.message.toList) ++ "</div>"

def blockHtml (source : List Char) (result : Except Session.Error String) : String :=
  "<div class=\"code-wrap\"><pre><code>" ++ String.ofList (escapeOneLine source) ++
    "</code></pre>" ++ resultHtml result ++ "</div>"

/-- Renders a block; the renderer may have effects. -/
def Block.renderWith [Monad m] (renderer : String → m (Except Session.Error String))
    (block : Block) : m String :=
  match block with
  | .plain line => pure (String.ofList line)
  | .fenced fence info _ body _ =>
    if isSketch info then do
      let source := code fence body
      let result ← renderer (String.ofList source)
      pure (blockHtml source result ++ "\n")
    else pure (String.ofList block.source)

def renderWith [Monad m] (renderer : String → m (Except Session.Error String))
    (markdown : String) : m String := do
  let texts ← (blocks markdown.toList).mapM (Block.renderWith renderer)
  pure (String.join texts)

def render (renderer : Renderer) (markdown : String) : String :=
  Id.run (renderWith (fun source => pure (renderer source)) markdown)

end Phrasebook.Docs
