import Phrasebook.Playback
import Phrasebook.Proofs.Source.Contents
import Phrasebook.Proofs.Template.Normal

/-!
# What every book that is read satisfies

Whatever text a book is read from, its categories stand under their names, which are names and not
the key of the settings, each has alternatives with finite weights that are not below zero and
templates in normal form, and its duration is one that can be played.
-/

namespace Phrasebook

/-- What a category of a source has: a name, and alternatives that can be weighed and expanded. -/
structure Category.IsWellFormed (category : Category) : Prop where
  name : Name.isValid category.name.toList = true
  nonempty : category.alternatives ≠ []
  weights : ∀ alternative ∈ category.alternatives,
    alternative.weight.isFinite = true ∧ Binary64.zero.le alternative.weight = true
  templates : ∀ alternative ∈ category.alternatives, alternative.template.IsNormal

structure Book.IsWellFormed (book : Book) : Prop where
  named : ∀ name category, book.find? name = some category →
    category.name = name ∧ name ≠ Source.preambleKey
  categories : ∀ category ∈ book.categories, category.IsWellFormed
  duration : book.preamble.duration.isFinite = true ∧
    Binary64.zero.lt book.preamble.duration = true
  /-- Playing takes the settings as they are. -/
  playback : Playback.ofPreamble book.preamble =
    ⟨book.preamble.duration, book.preamble.animation⟩

theorem Playback.ofPreamble_of_isDuration {preamble : Preamble}
    (hduration : Preamble.isDuration preamble.duration = true) :
    ofPreamble preamble = ⟨preamble.duration, preamble.animation⟩ := by
  rw [ofPreamble, ofDuration, if_pos hduration]

namespace Source

/-! ## Categories -/

theorem isNormal_of_writesAlternative {text : List Char} {alternative : Alternative}
    (hwrites : WritesAlternative text alternative) : alternative.template.IsNormal := by
  obtain ⟨rest, out, -, -, hparse⟩ := hwrites
  exact Template.isNormal_of_parse hparse

theorem isWellFormed_of_writes {block : BlockRows} {category : Category}
    (hlaid : block.IsLaidOut) (hwrites : block.Writes (.category category)) :
    category.IsWellFormed := by
  cases hwrites with
  | @category heading name items alternatives hitems halternatives =>
      have hwritten : ∀ alternative ∈ alternatives, ∃ item : ItemRows,
          WritesAlternative item.text alternative := by
        intro alternative hmem
        obtain ⟨item, -, hitem⟩ := exists_mem_of_forall₂ halternatives hmem
        exact ⟨item, hitem⟩
      refine ⟨?_, ?_, ?_, ?_⟩
      · cases hlaid with
        | category indent hheads hvalid => exact hvalid
      · rintro rfl
        exact hitems (List.forall₂_nil_right_iff.1 halternatives)
      · intro alternative hmem
        obtain ⟨item, rest, out, hweighs, -⟩ := hwritten alternative hmem
        obtain ⟨hnonneg, hfinite⟩ := isNonneg_of_weighs hweighs
        exact ⟨hfinite, hnonneg.zero_le⟩
      · intro alternative hmem
        obtain ⟨item, hitem⟩ := hwritten alternative hmem
        exact isNormal_of_writesAlternative hitem

/-! ## Settings -/

theorem isDuration_of_writesSetting {text : List Char} {seconds : Binary64}
    (hwrites : WritesSetting text (.duration seconds)) :
    Preamble.isDuration seconds = true := by
  obtain ⟨key, value, inner, -, -, -, -, hgives⟩ := hwrites
  cases hgives with
  | duration _ hduration => exact hduration

theorem isDuration_default : Preamble.isDuration Preamble.default.duration = true := by decide

/-- A duration is given and can be one, or is the default. -/
theorem isDuration_of_writes {block : BlockRows} {preamble : Preamble}
    (hlaid : block.IsLaidOut) (hwrites : block.Writes (.preamble preamble)) :
    Preamble.isDuration preamble.duration = true := by
  cases hwrites with
  | @settings heading lines _ hpreamble =>
      by_cases hgiven : ∃ seconds, .duration seconds ∈ lines.map SettingRow.setting
      · obtain ⟨seconds, hmem⟩ := hgiven
        rw [hpreamble.duration seconds hmem]
        obtain ⟨line, hline, hsetting⟩ := List.mem_map.1 hmem
        cases hlaid with
        | settings indent hheads hpos hlines =>
            have hwritten := (hlines line hline).written
            rw [hsetting] at hwritten
            exact isDuration_of_writesSetting hwritten
      · rw [hpreamble.defaultDuration (not_exists.1 hgiven)]
        exact isDuration_default

theorem isDuration_of_parse {text : String} {book : Book} (hparse : parse text = .ok book) :
    Preamble.isDuration book.preamble.duration = true := by
  obtain ⟨blocks, parts, hsource, hbook⟩ := exists_isSource_of_parse hparse
  by_cases hgiven : ∃ preamble, .preamble preamble ∈ parts
  · obtain ⟨preamble, hmem⟩ := hgiven
    obtain ⟨block, hblock, hwrites⟩ := exists_mem_of_forall₂ hsource.written hmem
    rw [hbook.preamble preamble hmem]
    exact isDuration_of_writes (hsource.laidOut block hblock) hwrites
  · rw [hbook.defaultPreamble (not_exists.1 hgiven)]
    exact isDuration_default

/-! ## Books -/

theorem isWellFormed_of_mem_categories {text : String} {book : Book} {category : Category}
    (hparse : parse text = .ok book) (hmem : category ∈ book.categories) :
    category.IsWellFormed := by
  obtain ⟨block, hlaid, hwrites⟩ := exists_block_of_parse hparse hmem
  exact isWellFormed_of_writes hlaid hwrites

/-- Every book that is read is well formed, whatever the text. -/
theorem isWellFormed_of_parse {text : String} {book : Book} (hparse : parse text = .ok book) :
    book.IsWellFormed := by
  have hcategories : ∀ category ∈ book.categories, category.IsWellFormed :=
    fun category hmem => isWellFormed_of_mem_categories hparse hmem
  have hduration := isDuration_of_parse hparse
  refine ⟨?_, hcategories, Bool.and_eq_true_iff.1 hduration,
    Playback.ofPreamble_of_isDuration hduration⟩
  intro name category hfind
  have hname := Book.name_of_find? hfind
  refine ⟨hname, ?_⟩
  rintro rfl
  have hvalid := (hcategories category (Book.mem_of_find? hfind)).name
  rw [hname, Name.isValid_preambleKey] at hvalid
  cases hvalid

/-- A weight of zero, lone braces, an alternative of which nothing is left, and a duration. -/
theorem isWellFormed_of_parse_braces :
    ∃ book,
      parse "root:\n- 0x \x7b \x7b\x7broot\x7d\x7d\x7d\x7d\n- ''\n%preamble:\n  duration: 1e-3" =
        .ok book ∧
      book.find? "root" = some ⟨"root",
        [⟨.zero, [.literal "\x7b ", .placeholder "root", .literal "\x7d\x7d"]⟩, ⟨.one, []⟩]⟩ ∧
      book.IsWellFormed := by
  let root : Category := ⟨"root",
    [⟨.zero, [.literal "\x7b ", .placeholder "root", .literal "\x7d\x7d"]⟩, ⟨.one, []⟩]⟩
  obtain ⟨book, hparse, htest⟩ := exists_parse_of_test
    "root:\n- 0x \x7b \x7b\x7broot\x7d\x7d\x7d\x7d\n- ''\n%preamble:\n  duration: 1e-3"
    (fun book => decide (book.find? "root" = some root)) (by decide +kernel)
  exact ⟨book, hparse, of_decide_eq_true htest, isWellFormed_of_parse hparse⟩

end Source

end Phrasebook
