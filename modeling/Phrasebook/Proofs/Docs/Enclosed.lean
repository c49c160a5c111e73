import Phrasebook.Proofs.Docs.Document
import Phrasebook.Proofs.Source.Alternatives
import Phrasebook.Proofs.Text.Trimming

/-!
# Sketches within fences

A sketch that is written between two fences, each of its lines behind the spaces of the fence, is
what the renderer gets: the spaces are taken off and no others, and its last line feed is left
out. This holds of any text of whole lines, as long as none of them closes the fence where it
stands.
-/

namespace Phrasebook

namespace Text

def IsEnded (line : List Char) : Prop := ∃ front, line = front ++ ['\n'] ∧ '\n' ∉ front

/-- Every line of a text that is empty or ends in a line feed does so too. -/
theorem AreLines.isEnded {lines : List (List Char)} (hlines : AreLines lines)
    (hend : lines.flatten = [] ∨ lines.flatten.getLast? = some '\n') :
    ∀ line ∈ lines, IsEnded line := by
  induction hlines with
  | nil => simp
  | @last line hne hline =>
      rw [List.flatten_singleton] at hend
      rcases hend with hnil | hlast
      · exact absurd hnil hne
      · exact absurd (List.mem_of_getLast? hlast) hline
  | @cons front lines hfront _ ih =>
      have hrest : lines.flatten = [] ∨ lines.flatten.getLast? = some '\n' := by
        by_cases hnil : lines.flatten = []
        · exact .inl hnil
        · rw [List.flatten_cons, List.getLast?_append_of_ne_nil _ hnil] at hend
          exact .inr (hend.resolve_left (by simp))
      exact List.forall_mem_cons.2 ⟨⟨front, rfl, hfront⟩, ih hrest⟩

theorem AreLines.append_of_isEnded {lines more : List (List Char)}
    (hlines : ∀ line ∈ lines, IsEnded line) (hmore : AreLines more) :
    AreLines (lines ++ more) := by
  induction lines with
  | nil => exact hmore
  | cons line lines ih =>
      obtain ⟨⟨front, rfl, hfront⟩, hrest⟩ := List.forall_mem_cons.1 hlines
      exact .cons hfront (ih hrest)

theorem IsEnded.replicate_append {line : List Char} (hline : IsEnded line) (n : Nat) :
    IsEnded (List.replicate n ' ' ++ line) := by
  obtain ⟨front, rfl, hfront⟩ := hline
  refine ⟨List.replicate n ' ' ++ front, by simp, ?_⟩
  simp [hfront]

end Text

namespace Docs

variable {fence : Fence}

/-! ## Lines behind a fence -/

def Fence.opening (fence : Fence) : List Char :=
  List.replicate fence.indent ' ' ++
    (List.replicate fence.length fence.mark ++ (sketchLanguage ++ ['\n']))

/-- A line of a sketch and how it is written behind a fence: after as many spaces as the fence has,
or fewer when the line is empty. -/
def Fence.Indents (fence : Fence) (line written : List Char) : Prop :=
  ∃ spaces ≤ fence.indent, written = List.replicate spaces ' ' ++ line ∧
    (spaces < fence.indent → withoutEnd line = [])

theorem Fence.opens_opening (hmark : fence.mark = '\x60' ∨ fence.mark = '~')
    (hlength : 3 ≤ fence.length) (hindent : fence.indent ≤ 3) :
    fence.Opens sketchLanguage fence.opening where
  mark := hmark
  length := hlength
  indent := hindent
  form := by
    refine ⟨sketchLanguage, ?_, ?_, by decide⟩
    · simp [withoutEnd, Text.dropEndWhile, opening, sketchLanguage]
    · rcases hmark with hmark | hmark <;> rw [hmark] <;> decide
  unmarked := fun _ => by decide

theorem Fence.isEnded_opening (hmark : fence.mark = '\x60' ∨ fence.mark = '~') :
    Text.IsEnded fence.opening := by
  refine ⟨List.replicate fence.indent ' ' ++ (List.replicate fence.length fence.mark ++
    sketchLanguage), by simp [opening], ?_⟩
  rcases hmark with hmark | hmark <;> simp [hmark, sketchLanguage]

/-- A line that is empty but for its end holds nothing else. -/
theorem mem_of_withoutEnd_eq_nil {line : List Char} (hline : withoutEnd line = []) {c : Char}
    (hc : c ∈ line) : c = '\n' ∨ c = '\r' := by
  simpa using List.rdropWhile_eq_nil_iff.1 hline c hc

theorem Fence.Closes.mark_mem {line : List Char} (hcloses : fence.Closes line)
    (hlength : 0 < fence.length) : fence.mark ∈ line := by
  obtain ⟨spaces, marks, rest, hline, -, hmarks, -⟩ := hcloses
  have hmem : fence.mark ∈ withoutEnd line := by
    rw [hline]
    exact List.mem_append_right _
      (List.mem_append_left _ (List.mem_replicate.2 ⟨by omega, rfl⟩))
  exact (List.rdropWhile_prefix _ _).subset hmem

theorem Fence.dedent_replicate_append {spaces : Nat} {line : List Char}
    (hspaces : spaces ≤ fence.indent)
    (hline : spaces < fence.indent → line.head? ≠ some ' ') :
    fence.dedent (List.replicate spaces ' ' ++ line) = line := by
  have hhead : (line.take (fence.indent - spaces)).head? ≠ some ' ' := by
    rw [List.head?_take]
    split
    · simp
    · exact hline (by omega)
  have htake : (List.replicate spaces ' ' ++ line).take fence.indent =
      List.replicate spaces ' ' ++ line.take (fence.indent - spaces) := by
    rw [List.take_append, List.take_of_length_le (by simpa using hspaces), List.length_replicate]
  obtain ⟨hlength, -⟩ := (Text.length_takeWhile_eq_iff ' ' _).2 ⟨htake, hhead⟩
  rw [dedent, hlength, List.drop_left' List.length_replicate]

namespace Fence.Indents

variable {line written : List Char}

theorem dedent_eq (hindents : fence.Indents line written) : fence.dedent written = line := by
  obtain ⟨spaces, hspaces, rfl, hempty⟩ := hindents
  refine dedent_replicate_append hspaces fun hless hhead => ?_
  have hspace := mem_of_withoutEnd_eq_nil (hempty hless) (List.mem_of_mem_head? hhead)
  exact absurd hspace (by decide)

theorem isEnded (hindents : fence.Indents line written) (hline : Text.IsEnded line) :
    Text.IsEnded written := by
  obtain ⟨spaces, -, rfl, -⟩ := hindents
  exact hline.replicate_append spaces

theorem not_closes {info opening : List Char} (hopens : fence.Opens info opening)
    (hindents : fence.Indents line written)
    (hline : ¬fence.Closes (List.replicate fence.indent ' ' ++ line)) :
    ¬fence.Closes written := by
  obtain ⟨spaces, hspaces, rfl, hempty⟩ := hindents
  intro hcloses
  rcases hspaces.eq_or_lt with rfl | hless
  · exact hline hcloses
  · -- nothing but spaces and the end of the line is there
    rcases List.mem_append.1 (hcloses.mark_mem (Nat.zero_lt_of_lt hopens.length)) with hmem | hmem
    · exact hopens.isBlank_mark.2 (List.eq_of_mem_replicate hmem)
    · have hblank := hopens.isBlank_mark.1
      rcases mem_of_withoutEnd_eq_nil (hempty hless) hmem with heq | heq
      all_goals
        rw [heq] at hblank
        cases hblank

end Fence.Indents

/-! ## The sketch -/

variable {text closing : List Char} {written : List (List Char)}

theorem map_dedent_of_indents {lines : List (List Char)}
    (hwritten : List.Forall₂ fence.Indents lines written) : written.map fence.dedent = lines := by
  induction hwritten with
  | nil => rfl
  | cons hline _ ih => rw [List.map_cons, hline.dedent_eq, ih]

theorem code_of_indents (htext : text = [] ∨ text.getLast? = some '\n')
    (hwritten : List.Forall₂ fence.Indents (Text.pieces text) written) :
    code fence written = text.dropLast := by
  rw [code, map_dedent_of_indents hwritten, Text.flatten_pieces]
  rcases htext with rfl | hlast
  · rfl
  · simp [hlast]

/-- The sketch and its fences are a document of one block. -/
theorem isDocument_of_indents (hmark : fence.mark = '\x60' ∨ fence.mark = '~')
    (hlength : 3 ≤ fence.length) (hindent : fence.indent ≤ 3)
    (htext : text = [] ∨ text.getLast? = some '\n')
    (hopen : ∀ line ∈ Text.pieces text,
      ¬fence.Closes (List.replicate fence.indent ' ' ++ line))
    (hwritten : List.Forall₂ fence.Indents (Text.pieces text) written)
    (hcloses : fence.Closes closing) (hclosing : Text.AreLines [closing]) :
    IsDocument (String.ofList (fence.opening ++ (written.flatten ++ closing)))
      [.fenced fence sketchLanguage fence.opening written (some closing)] := by
  have hopens := Fence.opens_opening hmark hlength hindent
  have hended : ∀ line ∈ written, Text.IsEnded line := by
    intro line hline
    obtain ⟨piece, hpiece, hindents⟩ := Source.exists_mem_of_forall₂ hwritten hline
    refine hindents.isEnded ((Text.areLines_pieces text).isEnded ?_ piece hpiece)
    rwa [Text.flatten_pieces]
  have hbody : ∀ line ∈ written, ¬fence.Closes line := by
    intro line hline
    obtain ⟨piece, hpiece, hindents⟩ := Source.exists_mem_of_forall₂ hwritten hline
    exact hindents.not_closes hopens (hopen piece hpiece)
  refine ⟨fence.opening :: (written ++ [closing]), by simp, ?_, .closed hopens hbody hcloses .nil⟩
  exact .append_of_isEnded (List.forall_mem_cons.2 ⟨Fence.isEnded_opening hmark, hended⟩) hclosing

/-- A sketch that is written between two fences, and that no line of its own closes, reaches the
renderer once and as it is, less its last line feed. The document is rendered to the HTML of the
sketch and a line feed. Its lines stand behind the spaces of the fence, and for those that are empty
it does not matter how many of the spaces are there. -/
theorem renderWith_enclosed (hmark : fence.mark = '\x60' ∨ fence.mark = '~')
    (hlength : 3 ≤ fence.length) (hindent : fence.indent ≤ 3)
    (htext : text = [] ∨ text.getLast? = some '\n')
    (hopen : ∀ line ∈ Text.pieces text,
      ¬fence.Closes (List.replicate fence.indent ' ' ++ line))
    (hwritten : List.Forall₂ fence.Indents (Text.pieces text) written)
    (hcloses : fence.Closes closing) (hclosing : Text.AreLines [closing])
    {m : Type → Type} [Monad m] [LawfulMonad m]
    (renderer : String → m (Except Session.Error String)) :
    renderWith renderer (String.ofList (fence.opening ++ (written.flatten ++ closing))) =
      (fun result => blockHtml text.dropLast result ++ "\n") <$>
        renderer (String.ofList text.dropLast) := by
  have hdocument := isDocument_iff.1
    (isDocument_of_indents hmark hlength hindent htext hopen hwritten hcloses hclosing)
  have hsketch : (Block.fenced fence sketchLanguage fence.opening written (some closing)).sketch? =
      some text.dropLast := by
    rw [Block.sketch?, if_pos (by decide), code_of_indents htext hwritten]
  rw [renderWith_eq_map, ← hdocument, sketches, List.filterMap_cons_some hsketch]
  simp [layOut, hsketch]

/-- A sketch with fences of its own, an empty line and lines that are indented, and a renderer that
notes what it is called with. -/
theorem renderWith_enclosed_fences :
    let note : String → StateM (List String) (Except Session.Error String) := fun source => do
      modify (source :: ·)
      pure (.ok "~")
    (renderWith note "  ~~~~seed\n  root:\n\n  - ~~~\n     \x60\x60\x60\n~~~~~ \r\n").run [] =
      ("<div class=\"code-wrap\"><pre><code>" ++
        "root:&#10;&#10;- ~~~&#10;   \x60\x60\x60</code></pre>" ++
        "<div class=\"code-result\">~</div></div>\n", ["root:\n\n- ~~~\n   \x60\x60\x60"]) := by
  intro note
  let fence : Fence := ⟨'~', 4, 2⟩
  let text := "root:\n\n- ~~~\n   \x60\x60\x60\n".toList
  let closing := "~~~~~ \r\n".toList
  let written := ["  root:\n".toList, ['\n'], "  - ~~~\n".toList, "     \x60\x60\x60\n".toList]
  have hopens : fence.Opens sketchLanguage fence.opening :=
    Fence.opens_opening (.inr rfl) (by decide) (by decide)
  have hopen : ∀ line ∈ Text.pieces text,
      ¬fence.Closes (List.replicate fence.indent ' ' ++ line) := by
    have hall : ∀ line ∈ Text.pieces text,
        ¬fence.isClosedBy (List.replicate fence.indent ' ' ++ line) = true := by
      decide +kernel
    exact fun line hline => mt (isClosedBy_iff hopens).2 (hall line hline)
  have hwritten : List.Forall₂ fence.Indents (Text.pieces text) written := by
    have hpieces : Text.pieces text =
        ["root:\n".toList, ['\n'], "- ~~~\n".toList, "   \x60\x60\x60\n".toList] := by
      decide +kernel
    rw [hpieces]
    exact .cons ⟨2, by decide, rfl, by decide⟩ (.cons ⟨0, by decide, rfl, fun _ => rfl⟩
      (.cons ⟨2, by decide, rfl, by decide⟩ (.cons ⟨2, by decide, rfl, by decide⟩ .nil)))
  have hcloses : fence.Closes closing := (isClosedBy_iff hopens).1 (by decide +kernel)
  have hclosing : Text.AreLines [closing] :=
    @Text.AreLines.cons "~~~~~ \r".toList [] (by decide) .nil
  have hrender := renderWith_enclosed (.inr rfl) (by decide) (by decide) (.inr rfl) hopen hwritten
    hcloses hclosing note
  exact congrArg (StateT.run · []) hrender

end Docs

end Phrasebook
