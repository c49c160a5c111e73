import Phrasebook.Editor.Binding
import Phrasebook.Preview.Run
import Phrasebook.Proofs.Binary64.Addition
import Phrasebook.Proofs.Expansion.Agreement
import Phrasebook.Proofs.Session.Runs
import Phrasebook.Proofs.Source.Layout

/-!
# One text at every front

An editor, a session, a document and the preview each put the reader and the expansion together
in their own way. All of them give what the source of a text expands to under a configuration: the
text, or the fault of the reader or of the expansion, which every front words alike.
-/

namespace Phrasebook

/-! ## Time zero -/

namespace Draw

theorem isNonneg_sample (state : UInt64) (path : Path) : (sample state path).IsNonneg :=
  Binary64.isNonneg_ofCode (Binary64.nearestScaled_le _ _)

theorem wrapUnit_of_isZero {t : Binary64} (ht : t.isZero = true) : wrapUnit t = t := by
  have hcode : t.code = 0 := beq_iff_eq.1 ht
  rw [← Binary64.ofCode_code t, hcode]
  cases t.isNegative <;> decide +kernel

/-- The draws at a zero of either sign are those at zero. -/
theorem at_ofTime_of_isZero (state : UInt64) {t : Binary64} (ht : t.isZero = true) :
    (Source.ofTime state t).at = (Source.ofTime state .zero).at := by
  funext path
  have hsample := isNonneg_sample state path
  have hzero : Binary64.zero.isZero = true := by decide
  unfold Source.at Source.ofTime rotate
  dsimp only
  rw [wrapUnit_of_isZero ht, wrapUnit_of_isZero hzero, Binary64.add_eq_of_isZero hsample ht,
    Binary64.add_eq_of_isZero hsample hzero]

end Draw

theorem Book.generateDefault_of_isZero (book : Book) (config : Config) (seed : Seed) {t : Binary64}
    (ht : t.isZero = true) :
    book.generateDefault config seed t = book.generateDefault config seed .zero := by
  unfold Book.generateDefault Book.generate
  dsimp only
  rw [Draw.at_ofTime_of_isZero seed.state ht]

/-! ## What a source expands to -/

def Source.expansion (config : Config) (seed : Seed) (t : Binary64) (source : String) :
    Except Fault String :=
  match parse source with
  | .error error => .error (.source error)
  | .ok book => (book.generateDefault config seed t).mapError .expansion

/-- A fault that keeps a source from being expanded, and the words that stand before it where it
is told as an error of a session. -/
inductive Source.IsFault (config : Config) (seed : Seed) (t : Binary64) (source : String) :
    Fault → String → Prop
  | unread {error : Source.Error} (hparse : parse source = .error error) :
      IsFault config seed t source (.source error) "parse error: "
  | unexpanded {book : Book} {error : Expansion.Error} (hparse : parse source = .ok book)
      (hgenerate : book.generateDefault config seed t = .error error) :
      IsFault config seed t source (.expansion error) "generation error: "

section
variable {config : Config} {seed : Seed} {t : Binary64} {source text words : String}
  {fault : Fault}

namespace Source

theorem expansion_of_isZero (ht : t.isZero = true) :
    expansion config seed t source = expansion config seed .zero source := by
  unfold expansion
  cases parse source with
  | error error => rfl
  | ok book => simp only [book.generateDefault_of_isZero config seed ht]

theorem expansion_eq_ok_iff :
    expansion config seed t source = .ok text ↔
      ∃ book, parse source = .ok book ∧ book.generateDefault config seed t = .ok text := by
  unfold expansion
  cases parse source with
  | error error => simp
  | ok book =>
      cases hgenerate : book.generateDefault config seed t <;>
        simp [hgenerate, Except.mapError]

theorem exists_isFault_of_expansion
    (hexpansion : expansion config seed t source = .error fault) :
    ∃ words, IsFault config seed t source fault words := by
  unfold expansion at hexpansion
  cases hparse : parse source with
  | error error =>
      rw [hparse] at hexpansion
      cases hexpansion
      exact ⟨_, .unread hparse⟩
  | ok book =>
      cases hgenerate : book.generateDefault config seed t with
      | ok text => simp [hparse, hgenerate, Except.mapError] at hexpansion
      | error error =>
          simp only [hparse, hgenerate] at hexpansion
          cases hexpansion
          exact ⟨_, .unexpanded hparse hgenerate⟩

theorem IsFault.message_eq (hfault : IsFault config seed t source fault words) :
    (Session.Error.fault fault).message = words ++ fault.message := by
  cases hfault <;> rfl

end Source

/-! ## Each front -/

theorem Editor.generate_eq (source seed : String) (t : Binary64) :
    generate source seed t = Source.expansion Config.default (Seed.ofText seed) t source := by
  unfold generate Source.expansion Book.generateDefault
  cases Source.parse source with
  | error error => rfl
  | ok book =>
      dsimp only
      cases book.generate Config.default Config.default.start Bindings.empty (Seed.ofText seed) t
      · rfl
      · rfl

namespace Docs

theorem engineRenderer_eq :
    engineRenderer config seed source =
      (Source.expansion config seed .zero source).mapError .fault := by
  unfold engineRenderer Source.expansion
  cases Source.parse source with
  | error error => rfl
  | ok book =>
      dsimp only
      cases book.generateDefault config seed .zero <;> rfl

theorem engineRenderer_eq_ok_iff :
    engineRenderer config seed source = .ok text ↔
      Source.expansion config seed .zero source = .ok text := by
  rw [engineRenderer_eq]
  cases Source.expansion config seed .zero source <;> simp [Except.mapError]

end Docs

namespace Session

theorem ofSource_of_parse {book : Book} (hparse : Source.parse source = .ok book) :
    ofSource config seed (some source) =
      (((start config seed).withBook source book).render .zero).2 :=
  congrArg Prod.snd (setSource_of_parse (by simp [start]) hparse)

theorem ofSource_of_parse_error {error : Source.Error}
    (hparse : Source.parse source = .error error) :
    ofSource config seed (some source) = (start config seed).withFault source error :=
  congrArg Prod.snd (setSource_of_parse_error (by simp [start]) hparse)

theorem ofSource_of_expansion (hexpansion : Source.expansion config seed .zero source = .ok text) :
    (ofSource config seed (some source)).lastFault = none ∧
      (ofSource config seed (some source)).output = text := by
  obtain ⟨book, hparse, hgenerate⟩ := Source.expansion_eq_ok_iff.1 hexpansion
  have hrender : ((start config seed).withBook source book).render .zero = (.ok text, _) :=
    render_of_ok rfl hgenerate
  rw [ofSource_of_parse hparse, hrender]
  exact ⟨rfl, rfl⟩

theorem lastFault_ofSource_of_isFault
    (hfault : Source.IsFault config seed .zero source fault words) :
    (ofSource config seed (some source)).lastFault = some fault := by
  cases hfault with
  | unread hparse =>
      rw [ofSource_of_parse_error hparse]
      rfl
  | @unexpanded book error hparse hgenerate =>
      have hrender : ((start config seed).withBook source book).render .zero =
          (.error (.fault (.expansion error)), _) := render_of_error rfl hgenerate
      rw [ofSource_of_parse hparse, hrender]

theorem view_ofSource_iff :
    (ofSource config seed (some source)).view.lastError = none ∧
        (ofSource config seed (some source)).view.output = text ↔
      Source.expansion config seed .zero source = .ok text := by
  unfold view
  cases hexpansion : Source.expansion config seed .zero source with
  | ok shown =>
      obtain ⟨hfault, houtput⟩ := ofSource_of_expansion hexpansion
      simp [hfault, houtput]
  | error fault =>
      obtain ⟨words, hfault⟩ := Source.exists_isFault_of_expansion hexpansion
      simp [lastFault_ofSource_of_isFault hfault]

theorem renderFrame_ofSource_eq_ok_iff :
    ((ofSource config seed (some source)).renderFrame t).1 = .ok text ↔
      Source.expansion config seed t source = .ok text := by
  rw [Source.expansion_eq_ok_iff]
  unfold renderFrame
  cases hparse : Source.parse source with
  | error error =>
      rw [ofSource_of_parse_error hparse, render_of_none rfl]
      simp
  | ok book =>
      obtain ⟨output, lastFault, hnext⟩ :=
        ((start config seed).withBook source book).exists_snd_render_eq .zero
      rw [ofSource_of_parse hparse, hnext]
      unfold render
      dsimp only [withBook, start]
      cases hgenerate : book.generateDefault config seed t <;> simp [hgenerate]

end Session

namespace Preview

/-- A preview that prints one rendering prints what the source expands to. -/
theorem start_print (sketchPath source : String) (seed : Seed) :
    start ⟨sketchPath, .ok source, seed, none, true⟩ =
      match Source.expansion Config.default seed .zero source with
      | .ok text => .printed (text ++ "\n")
      | .error fault => .failed ("Error: " ++ fault.message ++ "\n") := by
  have hbuild : Session.build (some Config.default) none seed (some source) =
      .ok (Session.ofSource Config.default seed (some source)) := rfl
  unfold start startSession
  dsimp only [Option.map_none, Config.choose]
  rw [hbuild]
  dsimp only
  rw [if_pos rfl]
  cases hexpansion : Source.expansion Config.default seed .zero source with
  | ok text =>
      obtain ⟨hfault, houtput⟩ := Session.ofSource_of_expansion hexpansion
      rw [hfault, houtput]
  | error fault =>
      obtain ⟨words, hfault⟩ := Source.exists_isFault_of_expansion hexpansion
      rw [Session.lastFault_ofSource_of_isFault hfault]
      exact congrArg Start.failed String.append_empty

theorem start_print_eq_printed_iff {sketchPath : String} :
    start ⟨sketchPath, .ok source, seed, none, true⟩ = .printed (text ++ "\n") ∧
        (start ⟨sketchPath, .ok source, seed, none, true⟩).status = 0 ↔
      Source.expansion Config.default seed .zero source = .ok text := by
  rw [start_print]
  cases Source.expansion Config.default seed .zero source <;> simp [Start.status]

end Preview

end

/-! ## All fronts -/

namespace Editor

/-- Whatever the source, the seed and the time, an editor is given a text exactly when a session
over the source gives it as the frame of that time. At time zero it is the text that the session
shows from the first, that a document shows, and that the preview prints before it ends well. When
there is no text at time zero, there is one fault of the reader or of the expansion that all of
them tell, and the preview ends with status one. -/
theorem fronts_agree (source seed sketchPath : String) :
    let session := openSession source (Seed.ofText seed)
    let rendered := Docs.engineRenderer Config.default (Seed.ofText seed) source
    let preview := Preview.start ⟨sketchPath, .ok source, Seed.ofText seed, none, true⟩
    Session.build none none (Seed.ofText seed) (some source) = .ok session ∧
    (∀ t text, generate source seed t = .ok text ↔ (session.renderFrame t).1 = .ok text) ∧
    ∀ t, t.isZero = true →
      (∀ text,
        (generate source seed t = .ok text ↔
          session.view.lastError = none ∧ session.view.output = text) ∧
        (generate source seed t = .ok text ↔ rendered = .ok text) ∧
        (generate source seed t = .ok text ↔
          preview = .printed (text ++ "\n") ∧ preview.status = 0)) ∧
      ((¬∃ text, generate source seed t = .ok text) →
        ∃ fault words error,
          Source.IsFault Config.default (Seed.ofText seed) .zero source fault words ∧
          session.view.lastError = some fault.message ∧
          preview = .failed ("Error: " ++ fault.message ++ "\n") ∧ preview.status = 1 ∧
          rendered = .error error ∧ error.message = words ++ fault.message) := by
  intro session rendered preview
  refine ⟨rfl, fun t text => ?_, fun t ht => ?_⟩
  · rw [generate_eq]
    exact Session.renderFrame_ofSource_eq_ok_iff.symm
  · rw [generate_eq, Source.expansion_of_isZero ht]
    refine ⟨fun text => ⟨Session.view_ofSource_iff.symm, Docs.engineRenderer_eq_ok_iff.symm,
      Preview.start_print_eq_printed_iff.symm⟩, fun hnone => ?_⟩
    cases hexpansion : Source.expansion Config.default (Seed.ofText seed) .zero source with
    | ok text => exact absurd ⟨text, hexpansion⟩ hnone
    | error fault =>
        obtain ⟨words, hfault⟩ := Source.exists_isFault_of_expansion hexpansion
        have hpreview : preview = .failed ("Error: " ++ fault.message ++ "\n") :=
          (Preview.start_print _ _ _).trans (by rw [hexpansion])
        have hrendered : rendered = .error (.fault fault) :=
          Docs.engineRenderer_eq.trans (by rw [hexpansion]; rfl)
        have hlast : session.view.lastError = some fault.message :=
          congrArg (Option.map Fault.message) (Session.lastFault_ofSource_of_isFault hfault)
        exact ⟨fault, words, _, hfault, hlast, hpreview, by rw [hpreview]; rfl, hrendered,
          hfault.message_eq⟩

/-- A source that has a text, at negative zero, and one that begins with an item. -/
theorem fronts_agree_item :
    let seed := Seed.ofText "#1"
    let preview (source : String) : Preview.Start :=
      Preview.start ⟨"sketch.seed", .ok source, seed, none, true⟩
    (⟨Binary64.signBit⟩ : Binary64).isZero = true ∧
    generate "root:\n- a\n" "#1" ⟨Binary64.signBit⟩ = .ok "a" ∧
    (openSession "root:\n- a\n" seed).view.output = "a" ∧
    Docs.engineRenderer Config.default seed "root:\n- a\n" = .ok "a" ∧
    preview "root:\n- a\n" = .printed "a\n" ∧
    (¬∃ text, generate "- a\n" "#1" .zero = .ok text) ∧
    (openSession "- a\n" seed).view.lastError =
      some "line 1: list item outside of any category" ∧
    preview "- a\n" = .failed "Error: line 1: list item outside of any category\n" ∧
    ∃ error, Docs.engineRenderer Config.default seed "- a\n" = .error error ∧
      error.message = "parse error: line 1: list item outside of any category" := by
  intro seed preview
  let root : Category := ⟨"root", [⟨.one, [.literal "a"]⟩]⟩
  obtain ⟨book, hparse, htest⟩ := Source.exists_parse_of_test "root:\n- a\n"
    (fun book => decide (book.find? "root" = some root)) (by decide +kernel)
  have hroot : book.find? "root" = some root := of_decide_eq_true htest
  have hselected : root.selected ((Draw.Source.ofTime seed.state ⟨Binary64.signBit⟩).at #[]) =
      some ⟨0, by decide⟩ := by
    decide +kernel
  have hexpand : book.generate Config.default Config.default.start Bindings.empty seed
      ⟨Binary64.signBit⟩ = .ok "a" := by
    refine (Expansion.Task.expand_eq_expandRecursively _ _).trans ?_
    simp [Expansion.Task.expandRecursively, Expansion.Task.expandAt, Expansion.Task.emit,
      Config.default, hroot, hselected, root, Except.map]
  have hgenerate : generate "root:\n- a\n" "#1" ⟨Binary64.signBit⟩ = .ok "a" := by
    simp only [generate, hparse]
    rw [hexpand]
  have hfault : Source.parse "- a\n" = .error ⟨1, .form .itemOutside⟩ :=
    Source.eq_error_of_fault? (by decide +kernel)
  have hnone : ¬∃ text, generate "- a\n" "#1" .zero = .ok text := by
    simp [generate, hfault]
  have hsign : (⟨Binary64.signBit⟩ : Binary64).isZero = true := by decide
  obtain ⟨-, -, hfronts⟩ := fronts_agree "root:\n- a\n" "#1" "sketch.seed"
  obtain ⟨hview, hrendered, hprinted⟩ := (hfronts _ hsign).1 "a"
  obtain ⟨-, -, hfronts⟩ := fronts_agree "- a\n" "#1" "sketch.seed"
  obtain ⟨fault, words, error, hisFault, hlast, hfailed, -, herror, hmessage⟩ :=
    (hfronts .zero (by decide)).2 hnone
  have hshown : words = "parse error: " ∧
      fault.message = "line 1: list item outside of any category" := by
    cases hisFault with
    | unread hparse =>
        obtain rfl := Except.error.inj (hfault.symm.trans hparse)
        exact ⟨rfl, by decide +kernel⟩
    | unexpanded hparse => cases hfault.symm.trans hparse
  rw [hshown.2] at hlast hfailed hmessage
  rw [hshown.1] at hmessage
  exact ⟨hsign, hgenerate, (hview.1 hgenerate).2, hrendered.1 hgenerate, (hprinted.1 hgenerate).1,
    hnone, hlast, hfailed, error, herror, hmessage⟩

end Editor

end Phrasebook
