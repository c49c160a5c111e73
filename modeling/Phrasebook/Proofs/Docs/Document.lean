import Phrasebook.Docs.Markdown
import Phrasebook.Proofs.Docs.Fence
import Phrasebook.Proofs.Text.Pieces

/-!
# Documents

A document is parted into plain lines and fenced blocks in one way only. Rendering it calls the
renderer for its sketches in order, puts the HTML of each in place of its block, and keeps all
else.
-/

namespace Phrasebook.Docs

/-! ## Blocks -/

/-- Lines parted into blocks: from a line that opens a fence on, all lines are of its block up to
the first one that closes the fence, or up to the end. -/
inductive Parts : List (List Char) → List Block → Prop
  | nil : Parts [] []
  | plain {line : List Char} {lines : List (List Char)} {blocks : List Block} :
      (∀ (fence : Fence) info, ¬fence.Opens info line) → Parts lines blocks →
      Parts (line :: lines) (.plain line :: blocks)
  | closed {fence : Fence} {info opening closing : List Char} {body lines : List (List Char)}
      {blocks : List Block} :
      fence.Opens info opening → (∀ line ∈ body, ¬fence.Closes line) → fence.Closes closing →
      Parts lines blocks →
      Parts (opening :: (body ++ closing :: lines))
        (.fenced fence info opening body (some closing) :: blocks)
  | unclosed {fence : Fence} {info opening : List Char} {body : List (List Char)} :
      fence.Opens info opening → (∀ line ∈ body, ¬fence.Closes line) →
      Parts (opening :: body) [.fenced fence info opening body none]

def IsDocument (markdown : String) (document : List Block) : Prop :=
  ∃ lines, lines.flatten = markdown.toList ∧ Text.AreLines lines ∧ Parts lines document

theorem openingFence?_eq_none_iff {line : List Char} :
    openingFence? line = none ↔ ∀ (fence : Fence) info, ¬fence.Opens info line := by
  rw [Option.eq_none_iff_forall_ne_some, Prod.forall]
  exact forall₂_congr fun fence info => not_congr openingFence?_eq_some_iff

section
variable {fence : Fence} {info opening : List Char}

theorem takeFenced_of_closes {body : List (List Char)} {closing : List Char}
    (hopens : fence.Opens info opening) (hbody : ∀ line ∈ body, ¬fence.Closes line)
    (hcloses : fence.Closes closing) (lines : List (List Char)) :
    takeFenced fence info opening (body ++ closing :: lines) =
      (.fenced fence info opening body (some closing), lines) := by
  have hopen : ∀ line ∈ body, (!fence.isClosedBy line) = true := by
    intro line hline
    simpa using mt (isClosedBy_iff hopens).1 (hbody line hline)
  have hclosed : ¬(!fence.isClosedBy closing) = true := by
    simpa using (isClosedBy_iff hopens).2 hcloses
  rw [takeFenced, List.takeWhile_append_of_pos hopen, List.dropWhile_append_of_pos hopen]
  simp only [List.takeWhile_cons, List.dropWhile_cons, if_neg hclosed, List.append_nil]

theorem takeFenced_of_not_closes {body : List (List Char)} (hopens : fence.Opens info opening)
    (hbody : ∀ line ∈ body, ¬fence.Closes line) :
    takeFenced fence info opening body = (.fenced fence info opening body none, []) := by
  have hopen : ∀ line ∈ body, (!fence.isClosedBy line) = true := by
    intro line hline
    simpa using mt (isClosedBy_iff hopens).1 (hbody line hline)
  rw [takeFenced, List.takeWhile_eq_self_iff.2 hopen, List.dropWhile_eq_nil_iff.2 hopen]

end

/-- Lines are parted into blocks in one way at most. -/
theorem Parts.blocksFrom_eq {lines : List (List Char)} {blocks : List Block}
    (hparts : Parts lines blocks) (done : List Block) :
    blocksFrom done lines = done.reverse ++ blocks := by
  induction hparts generalizing done with
  | nil => rw [blocksFrom, List.append_nil]
  | @plain line lines blocks hplain hparts ih =>
      rw [blocksFrom, openingFence?_eq_none_iff.2 hplain]
      dsimp only
      rw [ih, List.reverse_cons, List.append_assoc]
      rfl
  | closed hopens hbody hcloses hparts ih =>
      rw [blocksFrom, openingFence?_eq_some_iff.2 hopens]
      dsimp only
      rw [takeFenced_of_closes hopens hbody hcloses, ih, List.reverse_cons, List.append_assoc]
      rfl
  | unclosed hopens hbody =>
      rw [blocksFrom, openingFence?_eq_some_iff.2 hopens]
      dsimp only
      rw [takeFenced_of_not_closes hopens hbody, blocksFrom, List.reverse_cons]

/-- Below the opening line of a fence the lines go on to the end, or to the first that closes it. -/
theorem exists_body {fence : Fence} {info opening : List Char} (hopens : fence.Opens info opening)
    (lines : List (List Char)) : ∃ body, (∀ line ∈ body, ¬fence.Closes line) ∧
      (lines = body ∨ ∃ closing rest, lines = body ++ closing :: rest ∧ fence.Closes closing) := by
  have hparts := List.takeWhile_append_dropWhile (p := (!fence.isClosedBy ·)) (l := lines)
  refine ⟨lines.takeWhile (!fence.isClosedBy ·), ?_, ?_⟩
  · intro line hline hcloses
    have hopen := List.mem_takeWhile_imp hline
    simp [(isClosedBy_iff hopens).2 hcloses] at hopen
  · cases hrest : lines.dropWhile (!fence.isClosedBy ·) with
    | nil =>
        rw [hrest, List.append_nil] at hparts
        exact .inl hparts.symm
    | cons closing rest =>
        have hclosed := List.head?_dropWhile_not (!fence.isClosedBy ·) lines
        rw [hrest] at hclosed hparts
        exact .inr ⟨closing, rest, hparts.symm, (isClosedBy_iff hopens).1 (by simpa using hclosed)⟩

/-- Lines can be parted into blocks. -/
theorem exists_parts (lines : List (List Char)) : ∃ blocks, Parts lines blocks := by
  -- What follows a fenced block is shorter than the lines, but by more than one of them.
  induction hlength : lines.length using Nat.strong_induction_on generalizing lines with
  | h n ih =>
    cases lines with
    | nil => exact ⟨[], .nil⟩
    | cons line lines =>
        rw [List.length_cons] at hlength
        cases hopening : openingFence? line with
        | none =>
            obtain ⟨blocks, hblocks⟩ := ih lines.length (by omega) lines rfl
            exact ⟨_, .plain (openingFence?_eq_none_iff.1 hopening) hblocks⟩
        | some opened =>
            have hopens := openingFence?_eq_some_iff.1 hopening
            obtain ⟨body, hbody, rfl | ⟨closing, rest, rfl, hcloses⟩⟩ := exists_body hopens lines
            · exact ⟨_, .unclosed hopens hbody⟩
            · have hshorter : rest.length < n := by
                rw [List.length_append, List.length_cons] at hlength
                omega
              obtain ⟨blocks, hblocks⟩ := ih rest.length hshorter rest rfl
              exact ⟨_, .closed hopens hbody hcloses hblocks⟩

theorem parts_blocks (markdown : List Char) :
    Parts (Text.pieces markdown) (blocks markdown) := by
  obtain ⟨document, hparts⟩ := exists_parts (Text.pieces markdown)
  rwa [blocks, hparts.blocksFrom_eq, List.reverse_nil, List.nil_append]

/-- A document has its blocks and no others. -/
theorem isDocument_iff {markdown : String} {document : List Block} :
    IsDocument markdown document ↔ document = blocks markdown.toList := by
  constructor
  · intro hdocument
    obtain ⟨lines, hlines, hends, hparts⟩ := hdocument
    rw [blocks, ← hlines, Text.pieces_flatten hends, hparts.blocksFrom_eq, List.reverse_nil,
      List.nil_append]
  · rintro rfl
    exact ⟨_, Text.flatten_pieces _, Text.areLines_pieces _, parts_blocks _⟩

/-! ## Sources -/

theorem Parts.flatMap_source {lines : List (List Char)} {document : List Block}
    (hparts : Parts lines document) : document.flatMap Block.source = lines.flatten := by
  induction hparts with
  | nil => rfl
  | plain hplain hparts ih => rw [List.flatMap_cons, ih, List.flatten_cons, Block.source]
  | closed hopens hbody hcloses hparts ih => simp [List.flatMap_cons, ih, Block.source]
  | unclosed hopens hbody => simp [Block.source]

/-- No byte of a document is outside its blocks. -/
theorem flatMap_source_blocks (markdown : List Char) :
    (blocks markdown).flatMap Block.source = markdown := by
  rw [(parts_blocks markdown).flatMap_source, Text.flatten_pieces]

/-! ## Rendering -/

def Block.sketch? : Block → Option (List Char)
  | .plain _ => none
  | .fenced fence info _ body _ => if isSketch info then some (code fence body) else none

def sketches (document : List Block) : List String :=
  (document.filterMap Block.sketch?).map String.ofList

/-- The text of a document with the HTML of each sketch and a line feed in place of its block,
given what the sketches render to, in order. -/
def layOut : List Block → List (Except Session.Error String) → List Char
  | [], _ => []
  | block :: document, results =>
    match block.sketch?, results with
    | none, results => block.source ++ layOut document results
    | some _, [] => layOut document []
    | some source, result :: results =>
      (blockHtml source result).toList ++ '\n' :: layOut document results

/-- What stands for a block in the rendered document: the HTML of its sketch and a line feed, or
the block as it is. -/
def Block.replacement (renderer : Renderer) (block : Block) : List Char :=
  match block.sketch? with
  | none => block.source
  | some source => (blockHtml source (renderer (String.ofList source))).toList ++ ['\n']

section
variable {m : Type → Type} [Monad m] (renderer : String → m (Except Session.Error String))

theorem Block.renderWith_of_none {block : Block} (hsketch : block.sketch? = none) :
    block.renderWith renderer = pure (String.ofList block.source) := by
  cases block with
  | plain line => rfl
  | fenced fence info opening body closing =>
      have hplain : ¬isSketch info = true := fun hinfo => by simp [sketch?, hinfo] at hsketch
      exact if_neg hplain

theorem Block.renderWith_of_some {block : Block} {source : List Char}
    (hsketch : block.sketch? = some source) :
    block.renderWith renderer =
      renderer (String.ofList source) >>= fun result => pure (blockHtml source result ++ "\n") := by
  cases block with
  | plain line => cases hsketch
  | fenced fence info opening body closing =>
      rw [sketch?] at hsketch
      split at hsketch
      · next hinfo =>
        cases hsketch
        exact if_pos hinfo
      · cases hsketch

variable [LawfulMonad m]

theorem join_mapM_cons (f : Block → m String) (block : Block) (document : List Block) :
    String.join <$> (block :: document).mapM f =
      f block >>= fun text => (text ++ ·) <$> String.join <$> document.mapM f := by
  simp [List.mapM_cons]

/-- Rendering blocks is rendering their sketches and laying out what these render to. -/
theorem join_mapM_renderWith (document : List Block) :
    String.join <$> document.mapM (Block.renderWith renderer) =
      (fun results => String.ofList (layOut document results)) <$>
        (sketches document).mapM renderer := by
  induction document with
  | nil => simp [sketches, layOut]
  | cons block document ih =>
      rw [join_mapM_cons, ih]
      cases hsketch : block.sketch? with
      | none =>
          have hsketches : sketches (block :: document) = sketches document := by
            simp [sketches, hsketch]
          rw [Block.renderWith_of_none renderer hsketch, pure_bind, hsketches, Functor.map_map]
          simp [layOut, hsketch]
      | some source =>
          have hsketches : sketches (block :: document) =
              String.ofList source :: sketches document := by
            simp [sketches, hsketch]
          rw [Block.renderWith_of_some renderer hsketch, hsketches, List.mapM_cons]
          simp [layOut, hsketch, String.append_assoc]

end

/-! ## Whole documents -/

theorem layOut_map (renderer : Renderer) (document : List Block) :
    layOut document ((sketches document).map renderer) =
      document.flatMap (Block.replacement renderer) := by
  induction document with
  | nil => rfl
  | cons block document ih =>
      rw [List.flatMap_cons, ← ih]
      cases hsketch : block.sketch? with
      | none => simp [sketches, layOut, Block.replacement, hsketch]
      | some source => simp [sketches, layOut, Block.replacement, hsketch]

theorem layOut_of_sketches_eq_nil {document : List Block} (hnone : sketches document = [])
    (results : List (Except Session.Error String)) :
    layOut document results = document.flatMap Block.source := by
  induction document with
  | nil => rfl
  | cons block document ih =>
      cases hsketch : block.sketch? with
      | none =>
          have hrest : sketches document = [] := by simpa [sketches, hsketch] using hnone
          simp only [layOut, hsketch]
          rw [ih hrest, List.flatMap_cons]
      | some source => simp [sketches, hsketch] at hnone

theorem renderWith_eq_map {m : Type → Type} [Monad m] [LawfulMonad m]
    (renderer : String → m (Except Session.Error String)) (markdown : String) :
    renderWith renderer markdown =
      (fun results => String.ofList (layOut (blocks markdown.toList) results)) <$>
        (sketches (blocks markdown.toList)).mapM renderer := by
  rw [← join_mapM_renderWith, renderWith, map_eq_pure_bind]

theorem render_eq_layOut (renderer : Renderer) (markdown : String) : render renderer markdown =
    String.ofList (layOut (blocks markdown.toList)
      ((sketches (blocks markdown.toList)).map renderer)) := by
  rw [render, renderWith_eq_map, List.mapM_pure]
  rfl

theorem render_eq_flatMap_replacement (renderer : Renderer) (markdown : String) :
    render renderer markdown =
      String.ofList ((blocks markdown.toList).flatMap (Block.replacement renderer)) := by
  rw [render_eq_layOut, layOut_map]

/-- A document is parted into lines and fenced blocks in exactly one way, which loses nothing.
Rendering it has the effects of rendering its sketches, once each and in order, and puts the HTML
of what each renders to and a line feed in place of its block. Without sketches it stays as it
is. -/
theorem renderWith_eq_layOut (markdown : String) :
    ∃ document, IsDocument markdown document ∧
      (∀ other, IsDocument markdown other → other = document) ∧
      document.flatMap Block.source = markdown.toList ∧
      (∀ {m : Type → Type} [Monad m] [LawfulMonad m]
        (renderer : String → m (Except Session.Error String)), renderWith renderer markdown =
          (fun results => String.ofList (layOut document results)) <$>
            (sketches document).mapM renderer) ∧
      (∀ renderer : Renderer, render renderer markdown =
        String.ofList (document.flatMap (Block.replacement renderer))) ∧
      (sketches document = [] → ∀ renderer : Renderer, render renderer markdown = markdown) := by
  refine ⟨blocks markdown.toList, isDocument_iff.2 rfl, fun other => isDocument_iff.1,
    flatMap_source_blocks markdown.toList, fun renderer => renderWith_eq_map renderer markdown,
    fun renderer => render_eq_flatMap_replacement renderer markdown, ?_⟩
  intro hnone renderer
  rw [render_eq_layOut, layOut_of_sketches_eq_nil hnone, flatMap_source_blocks,
    String.ofList_toList]

/-- A fence within a fence, a closing line that is too short, a block that is not closed, and a
document of which nothing is a sketch. -/
theorem renderWith_eq_layOut_nested :
    (∃ document,
      IsDocument "~~~~ seed\r\n\x60\x60\x60seed\n~~~\n ~~~~~\n  ~~~ seed x\n   a" document ∧
      sketches document = ["\x60\x60\x60seed\n~~~", " a"] ∧
      ∀ renderer : Renderer,
        render renderer "~~~~ seed\r\n\x60\x60\x60seed\n~~~\n ~~~~~\n  ~~~ seed x\n   a" =
          String.ofList (document.flatMap (Block.replacement renderer))) ∧
    ∀ renderer : Renderer, render renderer "~~~ seeds\r\n    ~~~\n~~ seed\n" =
      "~~~ seeds\r\n    ~~~\n~~ seed\n" := by
  constructor
  · obtain ⟨document, hdocument, -, -, -, hrender, -⟩ := renderWith_eq_layOut
      "~~~~ seed\r\n\x60\x60\x60seed\n~~~\n ~~~~~\n  ~~~ seed x\n   a"
    refine ⟨document, hdocument, ?_, hrender⟩
    rw [isDocument_iff.1 hdocument]
    decide +kernel
  · obtain ⟨document, hdocument, -, -, -, -, hsame⟩ :=
      renderWith_eq_layOut "~~~ seeds\r\n    ~~~\n~~ seed\n"
    refine hsame ?_
    rw [isDocument_iff.1 hdocument]
    decide +kernel

end Phrasebook.Docs
