import Phrasebook.Proofs.Lint.Safety
import Phrasebook.Proofs.Session.History
import Phrasebook.Proofs.Session.Seeds

/-!
# Operations that fail

When an operation fails, some of the session has been written already: the source, the seed or
the book. What was rendered and the configuration stay all the same, and the book gives way only
to one that could be read and not be rendered. Which fields do change depends on the operation
and on how it fails, and there is one case for each way to fail.
-/

namespace Phrasebook.Session

def Operation.setsSeed : Operation → Bool
  | .setSeed _ | .nextSeed | .prevSeed => true
  | _ => false

def Operation.isFrame : Operation → Bool
  | .renderFrame _ | .playFrame _ => true
  | _ => false

/-- An operation, how it fails, and the session that it leaves then. -/
inductive Fails (session : Session) : Operation → Error → Session → Prop
  | unread {source : String} {fault : Source.Error} :
      Source.parse source = .error fault →
      Fails session (.setSource source) (.fault (.source fault))
        { session with
          source := source, lastFault := some (.source fault),
          readCount := session.readCount + 1 }
  | unrendered {source : String} {book : Book} {fault : Expansion.Error} :
      Source.parse source = .ok book →
      Fails session (.setSource source) (.fault (.expansion fault))
        { session with
          source := source, lastFault := some (.expansion fault), book := some book,
          readSource := some source,
          readCount := session.readCount + if session.readSource = some source then 0 else 1 }
  | seed {operation : Operation} {fault : Expansion.Error} :
      operation.setsSeed →
      Fails session operation (.fault (.expansion fault))
        { session with
          seed := operation.seedAfter session.seed, lastFault := some (.expansion fault) }
  | frame {operation : Operation} {fault : Expansion.Error} :
      operation.isFrame →
      Fails session operation (.fault (.expansion fault))
        { session with lastFault := some (.expansion fault) }
  | seedWithoutBook {operation : Operation} :
      session.book = none → operation.setsSeed →
      Fails session operation .noBook { session with seed := operation.seedAfter session.seed }
  | frameWithoutBook {operation : Operation} :
      session.book = none → operation.isFrame → Fails session operation .noBook session
  | variants {count : Nat} {error : Error} :
      session.variants count = .error error → Fails session (.variants count) error session

/-! ## Each operation -/

theorem Answer.eq_error_of_text {result : Except Error String} {error : Error}
    (herror : (Answer.text result).error? = some error) : result = .error error := by
  cases result with
  | error other => exact congrArg Except.error (Option.some.inj herror)
  | ok text => cases herror

section
variable {session : Session} {error : Error}

/-- Rendering fails without a book, and otherwise on the fault that it keeps. -/
theorem render_eq_of_error {t : Binary64} (herror : (session.render t).1 = .error error) :
    (session.book = none ∧ error = .noBook ∧ (session.render t).2 = session) ∨
      ∃ fault, session.book ≠ none ∧ error = .fault (.expansion fault) ∧
        (session.render t).2 = { session with lastFault := some (.expansion fault) } := by
  rcases hbook : session.book with - | book
  · rw [render_of_none hbook] at herror ⊢
    exact .inl ⟨rfl, (Except.error.inj herror).symm, rfl⟩
  · cases hgenerate : book.generateDefault session.config session.seed t with
    | ok text =>
        rw [render_of_ok hbook hgenerate] at herror
        cases herror
    | error fault =>
        rw [render_of_error hbook hgenerate] at herror ⊢
        exact .inr ⟨fault, nofun, (Except.error.inj herror).symm, by rw [hbook]⟩

theorem fails_setSource (hcoherent : session.IsCoherent) {source : String}
    (herror : (session.setSource source).1 = .error error) :
    session.Fails (.setSource source) error (session.setSource source).2 := by
  by_cases hread : session.readSource = some source
  · obtain ⟨book, hparse, hbook⟩ := hcoherent.parse_of_readSource hread
    rw [setSource_of_read hread] at herror ⊢
    rcases render_eq_of_error herror with ⟨hnone, -, -⟩ | ⟨fault, -, rfl, hnext⟩
    · cases hbook.symm.trans hnone
    · have hfails := @Fails.unrendered session source book fault hparse
      rw [if_pos hread, ← hbook, ← hread] at hfails
      rw [hnext]
      exact hfails
  · cases hparse : Source.parse source with
    | error fault =>
        rw [setSource_of_parse_error hread hparse] at herror ⊢
        cases herror
        exact .unread hparse
    | ok book =>
        rw [setSource_of_parse hread hparse] at herror ⊢
        rcases render_eq_of_error herror with ⟨hnone, -, -⟩ | ⟨fault, -, rfl, hnext⟩
        · cases hnone
        · have hfails := @Fails.unrendered session source book fault hparse
          rw [if_neg hread] at hfails
          rw [hnext]
          exact hfails

theorem fails_seed {operation : Operation} (hsets : operation.setsSeed)
    (herror : (session.setSeed (operation.seedAfter session.seed)).1 = .error error) :
    session.Fails operation error (session.setSeed (operation.seedAfter session.seed)).2 := by
  rcases render_eq_of_error herror with ⟨hbook, rfl, hnext⟩ | ⟨fault, -, rfl, hnext⟩
  · rw [setSeed, hnext]
    exact .seedWithoutBook hbook hsets
  · rw [setSeed, hnext]
    exact .seed hsets

theorem fails_frame {operation : Operation} (hframe : operation.isFrame) {t : Binary64}
    (herror : (session.render t).1 = .error error) :
    session.Fails operation error (session.render t).2 := by
  rcases render_eq_of_error herror with ⟨hbook, rfl, hnext⟩ | ⟨fault, -, rfl, hnext⟩
  · rw [hnext]
    exact .frameWithoutBook hbook hframe
  · rw [hnext]
    exact .frame hframe

theorem fails_of_error (hcoherent : session.IsCoherent) {operation : Operation}
    (herror : (session.perform operation).1.error? = some error) :
    session.Fails operation error (session.perform operation).2 := by
  cases operation with
  | setSource source => exact fails_setSource hcoherent (Answer.eq_error_of_text herror)
  | setSeed seed => exact fails_seed rfl (Answer.eq_error_of_text herror)
  | nextSeed => exact fails_seed rfl (Answer.eq_error_of_text herror)
  | prevSeed => exact fails_seed rfl (Answer.eq_error_of_text herror)
  | renderFrame t => exact fails_frame rfl (Answer.eq_error_of_text herror)
  | playFrame elapsed =>
      rw [perform, playFrame_eq] at herror ⊢
      cases htime : session.playback.timeAt elapsed with
      | none => simp [htime, Answer.error?] at herror
      | some t =>
          simp only [htime] at herror ⊢
          refine fails_frame rfl ?_
          cases hrender : (session.render t).1 with
          | ok text => simp [hrender, Except.map, Answer.error?] at herror
          | error other => simpa [hrender, Except.map, Answer.error?] using herror
  | variants count =>
      refine .variants ?_
      cases hvariants : session.variants count with
      | ok variants => simp [perform, hvariants, Answer.error?] at herror
      | error other => simpa [perform, hvariants, Answer.error?] using herror

/-! ## What is kept -/

variable {operation : Operation} {next : Session} (hfails : session.Fails operation error next)
include hfails

theorem Fails.output_eq : next.output = session.output := by
  cases hfails <;> rfl

theorem Fails.config_eq : next.config = session.config := by
  cases hfails <;> rfl

theorem Fails.book_eq : next.book = session.book ∨
    ∃ source book fault, operation = .setSource source ∧ error = .fault (.expansion fault) ∧
      Source.parse source = .ok book ∧ next.book = some book := by
  cases hfails with
  | unrendered hparse => exact .inr ⟨_, _, _, rfl, rfl, hparse, rfl⟩
  | _ => exact .inl rfl

end

theorem perform_playFrame_eq_of_over {session : Session} {elapsed : Binary64}
    (hover : (session.perform (.playFrame elapsed)).1 = .frame (.ok none)) :
    (session.perform (.playFrame elapsed)).2 = session := by
  rw [perform, playFrame_eq] at hover ⊢
  cases htime : session.playback.timeAt elapsed with
  | none => rfl
  | some t =>
      cases hrender : (session.render t).1 <;> simp [htime, hrender, Except.map] at hover

/-- An operation that fails loses nothing, whatever was done with the session before. -/
theorem fails_and_keeps {given : Option Config} {file : Option FileText} {seed : Seed}
    {source : Option String} {session : Session}
    (hbuild : build given file seed source = .ok session) (operations : List Operation) :
    let reached := session.after operations
    (∀ operation error, (reached.perform operation).1.error? = some error →
      let next := (reached.perform operation).2
      reached.Fails operation error next ∧
        next.output = reached.output ∧ next.config = reached.config ∧
        (next.book = reached.book ∨
          ∃ text book fault, operation = .setSource text ∧ error = .fault (.expansion fault) ∧
            Source.parse text = .ok book ∧ next.book = some book)) ∧
    ∀ elapsed, (reached.perform (.playFrame elapsed)).1 = .frame (.ok none) →
      (reached.perform (.playFrame elapsed)).2 = reached := by
  obtain ⟨config, -, rfl⟩ := exists_choose_of_build hbuild
  have hcoherent := isCoherent_after (isCoherent_after (isCoherent_start config seed)
    (opening source)) operations
  refine ⟨fun operation error herror => ?_, fun elapsed => perform_playFrame_eq_of_over⟩
  have hfails := fails_of_error hcoherent herror
  exact ⟨hfails, hfails.output_eq, hfails.config_eq, hfails.book_eq⟩

/-- A source without the category to start from takes the place of one that is played once. -/
theorem fails_and_keeps_unrendered :
    ∃ session, build none none (.ofText "otter42")
        (some "%preamble:\n  duration: 1\n  animation: once\nroot:\n- x\n") = .ok session ∧
      let reached := session.after [.nextSeed]
      let error := .fault (.expansion (.unknownCategory "root" none))
      let next := (reached.perform (.setSource "a:\n- y\n")).2
      (reached.perform (.setSource "a:\n- y\n")).1.error? = some error ∧
        reached.Fails (.setSource "a:\n- y\n") error next ∧ next.output = "x" ∧
        (reached.perform (.playFrame .one)).1 = .frame (.ok none) ∧
        (reached.perform (.playFrame .one)).2 = reached := by
  let source := "%preamble:\n  duration: 1\n  animation: once\nroot:\n- x\n"
  let root : Category := ⟨"root", [⟨.one, [.literal "x"]⟩]⟩
  obtain ⟨book, hparse, htest⟩ := Source.exists_parse_of_test source
    (fun book => decide (book.find? "root" = some root) &&
      decide ((Playback.ofPreamble book.preamble).timeAt .one = none)) (by decide +kernel)
  obtain ⟨hroot, htime⟩ : book.find? "root" = some root ∧
      (Playback.ofPreamble book.preamble).timeAt .one = none := by
    simpa using htest
  obtain ⟨other, hother, htest⟩ := Source.exists_parse_of_test "a:\n- y\n"
    (fun book => decide (book.generateDefault .default (Seed.ofText "otter42").next .zero =
      .error (.unknownCategory "root" none))) (by decide +kernel)
  have hgenerate : ∀ seed, book.generateDefault .default seed .zero = .ok "x" := fun seed =>
    Book.generate_of_singleton hroot (by decide) (by decide) (by decide) _ seed .zero
  let session : Session :=
    { (start .default (.ofText "otter42")).withBook source book with output := "x" }
  have hbuild : build none none (.ofText "otter42") (some source) = .ok session :=
    build_of_ok rfl hparse (hgenerate _)
  let reached : Session := { session with seed := (Seed.ofText "otter42").next }
  have hreached : session.after [.nextSeed] = reached :=
    congrArg Prod.snd (@render_of_ok reached book .zero "x" rfl (hgenerate _))
  have hset : (reached.setSource "a:\n- y\n").1 =
      .error (.fault (.expansion (.unknownCategory "root" none))) := by
    have hread : reached.readSource ≠ some "a:\n- y\n" := by
      show some source ≠ _
      simp [source]
    rw [setSource_of_parse hread hother,
      @render_of_error (reached.withBook "a:\n- y\n" other) other .zero _ rfl
        (of_decide_eq_true htest)]
  have hover : (reached.perform (.playFrame .one)).1 = .frame (.ok none) := by
    have hplayback : reached.playback.timeAt .one = none := htime
    rw [perform, playFrame_eq, hplayback]
    rfl
  have herror : (reached.perform (.setSource "a:\n- y\n")).1.error? =
      some (.fault (.expansion (.unknownCategory "root" none))) := by
    rw [perform, Prod.map_fst, hset]
    rfl
  obtain ⟨hkeeps, hplayed⟩ := fails_and_keeps hbuild [.nextSeed]
  rw [hreached] at hkeeps hplayed
  obtain ⟨hfails, houtput, -, -⟩ := hkeeps _ _ herror
  refine ⟨session, hbuild, ?_⟩
  rw [hreached]
  exact ⟨herror, hfails, houtput, hover, hplayed .one hover⟩

end Phrasebook.Session
