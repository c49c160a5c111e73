import Phrasebook.Proofs.Docs.OneLine

/-!
# Rendered documents

Rendering puts the HTML of a sketch, which is one line when what it shows of the result is, in
place of a fenced block. No such line opens a fence, and the blocks that are kept stay blocks, so
what is rendered holds no sketch and is not changed by rendering it again.
-/

namespace Phrasebook

/-! ## Lines -/

namespace Text

theorem AreLines.tail {line : List Char} {lines : List (List Char)}
    (hlines : AreLines (line :: lines)) : AreLines lines := by
  cases hlines with
  | last => exact .nil
  | cons _ hlines => exact hlines

/-- The lines after one may be replaced by others, and by none if there were none. -/
theorem AreLines.replace {line : List Char} {lines other : List (List Char)}
    (hlines : AreLines (line :: lines)) (hother : AreLines other)
    (hnone : lines = [] → other = []) : AreLines (line :: other) := by
  cases hlines with
  | last hne hline =>
      rw [hnone rfl]
      exact .last hne hline
  | cons hline => exact .cons hline hother

theorem AreLines.of_append {front lines : List (List Char)} (hlines : AreLines (front ++ lines)) :
    AreLines lines := by
  induction front with
  | nil => exact hlines
  | cons line front ih => exact ih hlines.tail

theorem AreLines.append {front lines other : List (List Char)}
    (hlines : AreLines (front ++ lines)) (hother : AreLines other)
    (hnone : lines = [] → other = []) : AreLines (front ++ other) := by
  induction front with
  | nil => exact hother
  | cons line front ih =>
      refine AreLines.replace hlines (ih hlines.tail) fun hnil => ?_
      obtain ⟨rfl, rfl⟩ := List.append_eq_nil_iff.1 hnil
      exact hnone rfl

end Text

namespace Docs

/-! ## The HTML of a sketch -/

/-- A line that opens a fence starts with a space or a mark. -/
theorem Fence.Opens.head?_eq {fence : Fence} {info line : List Char}
    (hopens : fence.Opens info line) :
    line.head? = some ' ' ∨ line.head? = some '\x60' ∨ line.head? = some '~' := by
  obtain ⟨rest, hline, -, -⟩ := hopens.form
  obtain ⟨tail, hmarks⟩ := exists_marks_eq_cons (Nat.zero_lt_of_lt hopens.length) fence.mark rest
  obtain ⟨ending, hwhole⟩ : withoutEnd line <+: line := List.rdropWhile_prefix _ _
  rw [hmarks] at hline
  rw [← hwhole, hline]
  cases fence.indent with
  | zero => exact .inr (hopens.mark.imp (congrArg some) (congrArg some))
  | succ indent => exact .inl rfl

theorem not_opens_blockHtml (source : List Char) (result : Except Session.Error String)
    (fence : Fence) (info : List Char) :
    ¬fence.Opens info ((blockHtml source result).toList ++ ['\n']) := by
  intro hopens
  have hhead : ((blockHtml source result).toList ++ ['\n']).head? = some '<' := by
    unfold blockHtml
    simp
  have hstart := hopens.head?_eq
  rw [hhead] at hstart
  exact absurd hstart (by decide)

/-! ## Laying out -/

def IsSettled (lines : List (List Char)) : Prop :=
  ∃ document, Parts lines document ∧ sketches document = []

theorem isSettled_nil : IsSettled [] := ⟨[], .nil, rfl⟩

theorem sketches_cons_of_none {block : Block} (hsketch : block.sketch? = none)
    (document : List Block) : sketches (block :: document) = sketches document := by
  simp [sketches, hsketch]

theorem IsSettled.plain {line : List Char} {lines : List (List Char)} (hlines : IsSettled lines)
    (hplain : ∀ (fence : Fence) info, ¬fence.Opens info line) : IsSettled (line :: lines) := by
  obtain ⟨document, hparts, hnone⟩ := hlines
  exact ⟨_, .plain hplain hparts, (sketches_cons_of_none rfl document).trans hnone⟩

/-- Lines that what is laid out is parted into, none of which belongs to a sketch. -/
structure LaidOut (document : List Block) (results : List (Except Session.Error String))
    (lines : List (List Char)) : Prop where
  flatten : lines.flatten = layOut document results
  ends : Text.AreLines lines
  settled : IsSettled lines

theorem laidOut_nil (results : List (Except Session.Error String)) : LaidOut [] results [] :=
  ⟨rfl, .nil, isSettled_nil⟩

theorem LaidOut.eq_nil {results : List (Except Session.Error String)} {lines : List (List Char)}
    (hlines : LaidOut [] results lines) : lines = [] := by
  have hflatten : lines.flatten = [] := hlines.flatten
  cases hlines.ends with
  | nil => rfl
  | last hne => exact absurd (by simpa using hflatten) hne
  | cons => simp at hflatten

section
variable {document : List Block} {results : List (Except Session.Error String)}
  {lines : List (List Char)} {block : Block}

/-- The HTML of a sketch is a plain line. -/
theorem LaidOut.html (hlines : LaidOut document results lines) {source : List Char}
    (hsketch : block.sketch? = some source) {result : Except Session.Error String}
    (hresult : '\n' ∉ shown result) :
    LaidOut (block :: document) (result :: results)
      (((blockHtml source result).toList ++ ['\n']) :: lines) where
  flatten := by simp [layOut, hsketch, hlines.flatten]
  ends := .cons (mt newline_mem_blockHtml_iff.1 hresult) hlines.ends
  settled := hlines.settled.plain (not_opens_blockHtml source result)

/-- A sketch for which there is no result leaves nothing. -/
theorem LaidOut.skip (hlines : LaidOut document [] lines) {source : List Char}
    (hsketch : block.sketch? = some source) : LaidOut (block :: document) [] lines where
  flatten := by simp [layOut, hsketch, hlines.flatten]
  ends := hlines.ends
  settled := hlines.settled

theorem exists_laidOut_of_sketch {source : List Char} (hsketch : block.sketch? = some source)
    (hdocument : ∀ results : List (Except Session.Error String),
      (∀ result ∈ results, '\n' ∉ shown result) → ∃ lines, LaidOut document results lines)
    (hresults : ∀ result ∈ results, '\n' ∉ shown result) :
    ∃ lines, LaidOut (block :: document) results lines := by
  cases results with
  | nil =>
      obtain ⟨lines, hlines⟩ := hdocument [] hresults
      exact ⟨lines, hlines.skip hsketch⟩
  | cons result results =>
      obtain ⟨hresult, hresults⟩ := List.forall_mem_cons.1 hresults
      obtain ⟨lines, hlines⟩ := hdocument results hresults
      exact ⟨_, hlines.html hsketch hresult⟩

end

theorem Parts.eq_nil_of_laidOut {lines rendered : List (List Char)} {document : List Block}
    {results : List (Except Session.Error String)} (hparts : Parts lines document)
    (hlaid : LaidOut document results rendered) (hlines : lines = []) : rendered = [] := by
  subst hlines
  cases hparts
  exact hlaid.eq_nil

/-- What is laid out is parted into lines again. -/
theorem Parts.exists_laidOut {lines : List (List Char)} {document : List Block}
    (hparts : Parts lines document) (hends : Text.AreLines lines)
    {results : List (Except Session.Error String)}
    (hresults : ∀ result ∈ results, '\n' ∉ shown result) :
    ∃ rendered, LaidOut document results rendered := by
  induction hparts generalizing results with
  | nil => exact ⟨[], laidOut_nil results⟩
  | @plain line lines document hplain hparts ih =>
      obtain ⟨rendered, hlaid⟩ := ih hends.tail hresults
      refine ⟨line :: rendered, ?_, hends.replace hlaid.ends (hparts.eq_nil_of_laidOut hlaid),
        hlaid.settled.plain hplain⟩
      simp [layOut, Block.sketch?, Block.source, hlaid.flatten]
  | @closed fence info opening closing body lines document hopens hbody hcloses hparts ih =>
      let front := opening :: (body ++ [closing])
      have hwhole : ∀ lines, opening :: (body ++ closing :: lines) = front ++ lines := by
        simp [front]
      rw [hwhole] at hends
      cases hsketch : (Block.fenced fence info opening body (some closing)).sketch? with
      | some source =>
          exact exists_laidOut_of_sketch hsketch (fun _ => ih hends.of_append) hresults
      | none =>
          obtain ⟨rendered, hlaid⟩ := ih hends.of_append hresults
          obtain ⟨blocks, hblocks, hsketches⟩ := hlaid.settled
          refine ⟨front ++ rendered, ?_,
            hends.append hlaid.ends (hparts.eq_nil_of_laidOut hlaid), ?_⟩
          · simp [layOut, hsketch, Block.source, front, hlaid.flatten]
          · rw [← hwhole]
            exact ⟨_, .closed hopens hbody hcloses hblocks,
              (sketches_cons_of_none hsketch blocks).trans hsketches⟩
  | @unclosed fence info opening body hopens hbody =>
      cases hsketch : (Block.fenced fence info opening body none).sketch? with
      | some source =>
          exact exists_laidOut_of_sketch hsketch (fun results _ => ⟨[], laidOut_nil results⟩)
            hresults
      | none =>
          refine ⟨opening :: body, ?_, hends, ?_⟩
          · simp [layOut, hsketch, Block.source]
          · exact ⟨_, .unclosed hopens hbody, sketches_cons_of_none hsketch []⟩

/-- A document that is rendered holds no sketch any more. -/
theorem sketches_blocks_layOut {results : List (Except Session.Error String)}
    (hresults : ∀ result ∈ results, '\n' ∉ shown result) (markdown : String) :
    sketches (blocks (layOut (blocks markdown.toList) results)) = [] := by
  obtain ⟨lines, hlaid⟩ :=
    (parts_blocks markdown.toList).exists_laidOut (Text.areLines_pieces _) hresults
  obtain ⟨document, hparts, hnone⟩ := hlaid.settled
  rw [← hlaid.flatten, blocks, Text.pieces_flatten hlaid.ends, hparts.blocksFrom_eq,
    List.reverse_nil, List.nil_append, hnone]

/-! ## Rendering again -/

section
variable {m : Type → Type} [Monad m] [LawfulMonad m]

/-- A document without sketches is rendered to itself, and no renderer is called. -/
theorem renderWith_of_sketches_eq_nil {markdown : String}
    (hnone : sketches (blocks markdown.toList) = [])
    (renderer : String → m (Except Session.Error String)) :
    renderWith renderer markdown = pure markdown := by
  rw [renderWith_eq_map, hnone, List.mapM_nil, map_pure, layOut_of_sketches_eq_nil hnone,
    flatMap_source_blocks, String.ofList_toList]

theorem renderWith_layOut {results : List (Except Session.Error String)}
    (hresults : ∀ result ∈ results, '\n' ∉ shown result) (markdown : String)
    (renderer : String → m (Except Session.Error String)) :
    renderWith renderer (String.ofList (layOut (blocks markdown.toList) results)) =
      pure (String.ofList (layOut (blocks markdown.toList) results)) := by
  refine renderWith_of_sketches_eq_nil ?_ renderer
  rw [String.toList_ofList]
  exact sketches_blocks_layOut hresults markdown

/-- Whether what a renderer answers, with whatever effects, shows no line feed. -/
def IsUnbroken (renderer : String → m (Except Session.Error String)) : Prop :=
  ∃ answer : String → m {result : Except Session.Error String // '\n' ∉ shown result},
    ∀ source, renderer source = Subtype.val <$> answer source

theorem mapM_eq_map_val {p : Except Session.Error String → Prop}
    {renderer : String → m (Except Session.Error String)}
    {answer : String → m {result // p result}}
    (hanswer : ∀ source, renderer source = Subtype.val <$> answer source) (sources : List String) :
    sources.mapM renderer = List.map Subtype.val <$> sources.mapM answer := by
  induction sources with
  | nil => simp
  | cons source sources ih => simp [List.mapM_cons, hanswer, ih]

theorem IsUnbroken.bind_renderWith {renderer : String → m (Except Session.Error String)}
    (hrenderer : IsUnbroken renderer) (again : String → m (Except Session.Error String))
    (markdown : String) :
    renderWith renderer markdown >>= renderWith again = renderWith renderer markdown := by
  obtain ⟨answer, hanswer⟩ := hrenderer
  let html := fun results : List {result : Except Session.Error String // '\n' ∉ shown result} =>
    String.ofList (layOut (blocks markdown.toList) (results.map Subtype.val))
  have hrender : renderWith renderer markdown =
      html <$> (sketches (blocks markdown.toList)).mapM answer := by
    rw [renderWith_eq_map, mapM_eq_map_val hanswer, Functor.map_map]
  have hagain : ∀ results, renderWith again (html results) = pure (html results) := by
    intro results
    refine renderWith_layOut ?_ markdown again
    intro result hresult
    obtain ⟨unbroken, -, rfl⟩ := List.mem_map.1 hresult
    exact unbroken.property
  rw [hrender, bind_map_left]
  simp only [hagain, bind_pure_comp]

end

/-- Rendering a rendered document changes nothing and calls no renderer, provided that what was
rendered shows no line feed. This holds as well of renderers that have effects: all effects are
those of the first rendering. -/
theorem render_render (markdown : String) :
    (∀ renderer : Renderer, (∀ source, '\n' ∉ shown (renderer source)) →
      render renderer (render renderer markdown) = render renderer markdown ∧
        ∀ {m : Type → Type} [Monad m] [LawfulMonad m]
          (again : String → m (Except Session.Error String)),
          renderWith again (render renderer markdown) = pure (render renderer markdown)) ∧
    ∀ {m : Type → Type} [Monad m] [LawfulMonad m]
      (renderer again : String → m (Except Session.Error String)), IsUnbroken renderer →
      renderWith renderer markdown >>= renderWith again = renderWith renderer markdown := by
  constructor
  · intro renderer hrenderer
    have hresults : ∀ result ∈ (sketches (blocks markdown.toList)).map renderer,
        '\n' ∉ shown result := by
      intro result hresult
      obtain ⟨source, -, rfl⟩ := List.mem_map.1 hresult
      exact hrenderer source
    rw [render_eq_layOut renderer markdown]
    refine ⟨?_, renderWith_layOut hresults markdown⟩
    exact congrArg Id.run (renderWith_layOut hresults markdown fun source => pure (renderer source))
  · intro m _ _ renderer again hrenderer
    exact hrenderer.bind_renderWith again markdown

/-- Sketches before and after a block that shows a fence, the last of them unclosed. -/
theorem render_render_unclosed :
    let renderer : Renderer := fun source => .ok (toString source.utf8ByteSize)
    let markdown := "~~~seed\na\n~~~\n\x60\x60\x60\n~~~seed\n\x60\x60\x60\n ~~~~ seed\n b"
    (∀ source, '\n' ∉ shown (renderer source)) ∧
      sketches (blocks markdown.toList) = ["a", "b"] ∧
      render renderer (render renderer markdown) = render renderer markdown := by
  intro renderer markdown
  have hrenderer : ∀ source, '\n' ∉ shown (renderer source) := by
    intro source
    simpa [shown, renderer, Nat.toString_eq_repr, Nat.repr] using
      Text.unbroken_toDigits source.utf8ByteSize
  refine ⟨hrenderer, by decide +kernel, ?_⟩
  exact ((render_render markdown).1 renderer hrenderer).1

end Docs

end Phrasebook
