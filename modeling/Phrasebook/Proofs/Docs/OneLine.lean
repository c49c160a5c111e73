import Phrasebook.Proofs.Docs.Document
import Phrasebook.Proofs.Expansion.Naming
import Phrasebook.Proofs.Source.LineFeeds
import Phrasebook.Proofs.Source.WellFormed

/-!
# Sketches on one line

The HTML of a sketch is meant to stand on one line, and the source in it does. The result is shown
as it is, or with the characters that mark up escaped, so it brings its line feeds along: those
that the sketch escapes within double quotes, and those of the name of the start, which the
messages of an expansion may quote.
-/

namespace Phrasebook

/-! ## Messages -/

theorem Session.Error.newline_mem_message_iff {fault : Fault} :
    '\n' ∈ (Error.fault fault).message.toList ↔ '\n' ∈ fault.message.toList := by
  unfold message Fault.message
  cases fault <;> simp

/-! ## References -/

/-- A book that is read refers to nothing but names, so these and any start are closed under
reference. -/
theorem Source.isReferenceClosed_of_parse {text : String} {book : Book}
    (hparse : parse text = .ok book) (start : String) :
    book.IsReferenceClosed {name | name = start ∨ Name.isValid name.toList = true} := by
  intro name _ category hfind reference hreference
  obtain ⟨block, hlaid, hwrites⟩ := exists_block_of_parse hparse (Book.mem_of_find? hfind)
  obtain ⟨alternative, halternative, hplaceholder⟩ := List.mem_flatMap.1 hreference
  obtain ⟨segment, hsegment, hname⟩ := List.mem_filterMap.1 hplaceholder
  have hnormal := (isWellFormed_of_writes hlaid hwrites).templates alternative halternative
  have hvalid := hnormal.segments segment hsegment
  cases segment with
  | literal => cases hname
  | placeholder =>
      cases hname
      exact .inr hvalid

namespace Docs

/-! ## HTML -/

theorem newline_mem_escapeChar_iff {c : Char} : '\n' ∈ escapeChar c ↔ '\n' = c := by
  constructor
  · intro hmem
    unfold escapeChar at hmem
    split_ifs at hmem
    case neg => exact List.mem_singleton.1 hmem
    all_goals exact absurd hmem (by decide)
  · rintro rfl
    decide

theorem newline_mem_escape_iff {text : List Char} : '\n' ∈ escape text ↔ '\n' ∈ text := by
  simp [escape, newline_mem_escapeChar_iff]

theorem newline_not_mem_escapeOneLine (text : List Char) : '\n' ∉ escapeOneLine text := by
  intro hmem
  obtain ⟨c, -, hc⟩ := List.mem_flatMap.1 hmem
  split at hc
  · exact absurd hc (by decide)
  · next hne => exact hne (List.mem_singleton.1 hc).symm

def shown : Except Session.Error String → List Char
  | .ok text => text.toList
  | .error error => error.message.toList

theorem newline_mem_blockHtml_iff {source : List Char} {result : Except Session.Error String} :
    '\n' ∈ (blockHtml source result).toList ↔ '\n' ∈ shown result := by
  unfold blockHtml resultHtml shown
  cases result with
  | ok text => simp [newline_not_mem_escapeOneLine]
  | error error => simp [newline_not_mem_escapeOneLine, newline_mem_escape_iff]

/-! ## Results -/

theorem escapesNewline_of_newline_mem_shown {config : Config} {seed : Seed} {source : String}
    (hshown : '\n' ∈ shown (engineRenderer config seed source)) :
    '\n' ∈ config.start.toList ∨ Source.EscapesNewline (Source.rows source) := by
  unfold engineRenderer at hshown
  split at hshown
  · next error hparse =>
    have hmessage := Session.Error.newline_mem_message_iff.1 hshown
    exact .inr (Source.escapesNewline_of_newline_mem_message hparse hmessage)
  · next book hparse =>
    split at hshown
    · next error hgenerate =>
      have hmessage := Session.Error.newline_mem_message_iff.1 hshown
      obtain ⟨name, hname, hfeed⟩ := Expansion.Error.newline_mem_message_iff.1 hmessage
      have hwithin := Book.namesWithin_generate
        (Source.isReferenceClosed_of_parse hparse config.start) (.inl rfl) config Bindings.empty
        seed .zero
      rcases hwithin error hgenerate name hname with rfl | hvalid
      · exact .inl hfeed
      · exact absurd hfeed (Name.unbroken_of_isValid hvalid)
    · next text hgenerate =>
      rcases Book.spells_of_generate hgenerate hshown with hspells | hspells
      · exact .inr (Source.escapesNewline_of_spells hparse hspells)
      · exact absurd hspells Bindings.not_spells_empty

/-! ## Documents -/

/-- The HTML that stands in place of a sketch holds a line feed exactly when what it shows of the
result does. It does so only when an item of the sketch escapes one within double quotes or the
name of the start has one. So a sketch in which no backslash stands before an `n` is rendered on
one line. -/
theorem newline_mem_replacement (config : Config) (seed : Seed) (markdown : String) :
    ∃ document, IsDocument markdown document ∧
      render (engineRenderer config seed) markdown =
        String.ofList (document.flatMap (Block.replacement (engineRenderer config seed))) ∧
      ∀ block ∈ document, ∀ source, block.sketch? = some source →
        ∃ html, block.replacement (engineRenderer config seed) = html ++ ['\n'] ∧
          ('\n' ∈ html ↔ '\n' ∈ shown (engineRenderer config seed (String.ofList source))) ∧
          ('\n' ∈ html → '\n' ∈ config.start.toList ∨
            Source.EscapesNewline (Source.rows (String.ofList source))) ∧
          ('\n' ∉ config.start.toList → ¬['\\', 'n'] <:+: source → '\n' ∉ html) := by
  refine ⟨blocks markdown.toList, isDocument_iff.2 rfl, render_eq_flatMap_replacement _ _, ?_⟩
  intro block _ source hsketch
  let result := engineRenderer config seed (String.ofList source)
  have hreplacement : block.replacement (engineRenderer config seed) =
      (blockHtml source result).toList ++ ['\n'] := by
    simp only [Block.replacement, hsketch, result]
  have hescapes : '\n' ∈ (blockHtml source result).toList → '\n' ∈ config.start.toList ∨
      Source.EscapesNewline (Source.rows (String.ofList source)) := fun hmem =>
    escapesNewline_of_newline_mem_shown (newline_mem_blockHtml_iff.1 hmem)
  refine ⟨(blockHtml source result).toList, hreplacement, newline_mem_blockHtml_iff, hescapes, ?_⟩
  intro hstart hpair hmem
  refine hpair ?_
  have hpaired := ((hescapes hmem).resolve_left hstart).backslash_isInfix
  rwa [String.toList_ofList] at hpaired

/-- The line feed that an item escapes parts the HTML of its sketch. -/
theorem newline_mem_replacement_escaped :
    ∃ document block source html,
      IsDocument "\x60\x60\x60seed\nroot:\n- \"a\\nb\"\n\x60\x60\x60\n" document ∧
      block ∈ document ∧ block.sketch? = some source ∧
      block.replacement (engineRenderer Config.default (Seed.ofText "#1")) = html ++ ['\n'] ∧
      '\n' ∈ html ∧
      render (engineRenderer Config.default (Seed.ofText "#1"))
          "\x60\x60\x60seed\nroot:\n- \"a\\nb\"\n\x60\x60\x60\n" =
        "<div class=\"code-wrap\"><pre><code>root:&#10;- &quot;a\\nb&quot;</code></pre>" ++
          "<div class=\"code-result\">a\nb</div></div>\n" := by
  let markdown := "\x60\x60\x60seed\nroot:\n- \"a\\nb\"\n\x60\x60\x60\n"
  let root : Category := ⟨"root", [⟨.one, [.literal "a\nb"]⟩]⟩
  obtain ⟨book, hparse, htest⟩ := Source.exists_parse_of_test "root:\n- \"a\\nb\""
    (fun book => decide (book.find? "root" = some root)) (by decide +kernel)
  have hroot : book.find? "root" = some root := of_decide_eq_true htest
  have hselected : root.selected ((Draw.Source.ofTime (Seed.ofText "#1").state .zero).at #[]) =
      some ⟨0, by decide⟩ := by
    decide +kernel
  have hgenerate : book.generateDefault Config.default (Seed.ofText "#1") .zero = .ok "a\nb" := by
    refine (Expansion.Task.expand_eq_expandRecursively _ _).trans ?_
    simp [Expansion.Task.expandRecursively, Expansion.Task.expandAt, Expansion.Task.emit,
      Config.default, hroot, hselected, root, Except.map]
  have hresult : engineRenderer Config.default (Seed.ofText "#1") "root:\n- \"a\\nb\"" =
      .ok "a\nb" := by
    simp only [engineRenderer, hparse, hgenerate]
  have hsketches : sketches (blocks markdown.toList) = ["root:\n- \"a\\nb\""] := by
    decide +kernel
  have hrender : render (engineRenderer Config.default (Seed.ofText "#1")) markdown =
      "<div class=\"code-wrap\"><pre><code>root:&#10;- &quot;a\\nb&quot;</code></pre>" ++
        "<div class=\"code-result\">a\nb</div></div>\n" := by
    rw [render_eq_layOut, hsketches, List.map_singleton, hresult]
    decide +kernel
  have hmem : "root:\n- \"a\\nb\"" ∈ sketches (blocks markdown.toList) := by
    rw [hsketches]
    exact List.mem_singleton_self _
  obtain ⟨source, hsource, heq⟩ := List.mem_map.1 hmem
  obtain ⟨block, hblock, hsketch⟩ := List.mem_filterMap.1 hsource
  refine ⟨blocks markdown.toList, block, source, (blockHtml source (.ok "a\nb")).toList,
    isDocument_iff.2 rfl, hblock, hsketch, ?_, newline_mem_blockHtml_iff.2 (by decide), hrender⟩
  simp only [Block.replacement, hsketch, heq, hresult]

end Docs

end Phrasebook
