import Phrasebook.Proofs.Session.Runs

/-!
# Sessions that keep no book

A session keeps the book of the last source that could be read. Nobody can tell: a session
that keeps only the text of that source, and reads it anew whenever a book is needed, answers
and shows the same after any operations. What is saved is reading, since a source is read
only when it differs from the one that the book was read from.
-/

namespace Phrasebook.Session

/-- A session that keeps the last readable source in place of its book. -/
structure Uncached where
  config : Config
  source : String
  seed : Seed
  /-- The last source that could be read. -/
  readable : Option String
  output : String
  lastFault : Option Fault

namespace Uncached

def start (config : Config) (seed : Seed) : Uncached := ⟨config, "", seed, none, "", none⟩

def book (session : Uncached) : Option Book :=
  session.readable.bind fun source => (Source.parse source).toOption

def playback (session : Uncached) : Playback :=
  Playback.ofPreamble ((session.book.map Book.preamble).getD Preamble.default)

def render (session : Uncached) (t : Binary64) : Except Error String × Uncached :=
  match session.book with
  | none => (.error .noBook, session)
  | some book =>
    match book.generateDefault session.config session.seed t with
    | .ok text => (.ok text, { session with output := text, lastFault := none })
    | .error error =>
      (.error (.fault (.expansion error)),
        { session with lastFault := some (.expansion error) })

def setSource (session : Uncached) (source : String) : Except Error String × Uncached :=
  match Source.parse source with
  | .ok _ => render { session with source := source, readable := some source } .zero
  | .error error =>
    (.error (.fault (.source error)),
      { session with source := source, lastFault := some (.source error) })

def setSeed (session : Uncached) (seed : Seed) : Except Error String × Uncached :=
  render { session with seed := seed } .zero

def playFrame (session : Uncached) (elapsed : Binary64) : Except Error (Option String) × Uncached :=
  match session.playback.timeAt elapsed with
  | none => (.ok none, session)
  | some t => (session.render t).map (·.map some) id

def variants (session : Uncached) (count : Nat) : Except Error (List Variant) :=
  match session.book with
  | none => .error .noBook
  | some book =>
    (variantsFrom book session.config [] count session.seed).mapError fun error =>
      .fault (.expansion error)

def perform (session : Uncached) : Operation → Answer × Uncached
  | .setSource source => (session.setSource source).map .text id
  | .setSeed seed => (session.setSeed seed).map .text id
  | .nextSeed => (session.setSeed session.seed.next).map .text id
  | .prevSeed => (session.setSeed session.seed.prev).map .text id
  | .renderFrame t => (session.render t).map .text id
  | .playFrame elapsed => (session.playFrame elapsed).map .frame id
  | .variants count => (.variants (session.variants count), session)

def view (session : Uncached) : View :=
  ⟨session.output, session.lastFault.map Fault.message, session.seed, session.source,
    session.book, session.playback⟩

def after (session : Uncached) : List Operation → Uncached
  | [] => session
  | operation :: operations => (session.perform operation).2.after operations

def trace (session : Uncached) : List Operation → List (Answer × View)
  | [] => []
  | operation :: operations =>
    let next := session.perform operation
    (next.1, next.2.view) :: next.2.trace operations

def build (given : Option Config) (file : Option FileText) (seed : Seed)
    (source : Option String) : Except Error Uncached :=
  match Config.choose given file with
  | .error error => .error (.config error)
  | .ok config => .ok ((start config seed).after (opening source))

/-- How often an operation reads a source that differs from the last readable one. -/
def reads (session : Uncached) : Operation → Nat
  | .setSource source => if session.readable = some source then 0 else 1
  | _ => 0

/-- How many operations set a source other than the last readable one. -/
def newSources (session : Uncached) : List Operation → Nat
  | [] => 0
  | operation :: operations =>
    session.reads operation + (session.perform operation).2.newSources operations

end Uncached

/-! ## Forgetting the book -/

def forget (session : Session) : Uncached :=
  ⟨session.config, session.source, session.seed, session.readSource, session.output,
    session.lastFault⟩

theorem IsCoherent.book_forget {session : Session} (hcoherent : session.IsCoherent) :
    session.forget.book = session.book := by
  unfold Uncached.book forget
  cases hread : session.readSource with
  | none =>
      rw [IsCoherent, hread, Option.map_none] at hcoherent
      exact (Option.map_eq_none_iff.1 hcoherent.symm).symm
  | some source =>
      obtain ⟨book, hparse, hbook⟩ := hcoherent.parse_of_readSource hread
      simp [hparse, hbook, Except.toOption]

theorem IsCoherent.playback_forget {session : Session} (hcoherent : session.IsCoherent) :
    session.forget.playback = session.playback := by
  unfold Uncached.playback Session.playback
  rw [hcoherent.book_forget]
  cases session.book <;> rfl

theorem IsCoherent.view_forget {session : Session} (hcoherent : session.IsCoherent) :
    session.forget.view = session.view := by
  unfold Uncached.view Session.view
  rw [hcoherent.book_forget, hcoherent.playback_forget]
  rfl

/-! ## Each operation -/

theorem render_forget {session : Session} (hcoherent : session.IsCoherent) (t : Binary64) :
    session.forget.render t = (session.render t).map id forget := by
  unfold Uncached.render render
  rw [hcoherent.book_forget]
  cases session.book with
  | none => rfl
  | some book =>
      simp only [forget]
      cases book.generateDefault session.config session.seed t <;> rfl

theorem setSource_forget {session : Session} (hcoherent : session.IsCoherent) (source : String) :
    session.forget.setSource source = (session.setSource source).map id forget := by
  unfold Uncached.setSource
  by_cases hread : session.readSource = some source
  · -- What was read before is read to the same book again.
    obtain ⟨book, hparse, -⟩ := hcoherent.parse_of_readSource hread
    have hcoherent' : IsCoherent { session with source := source } := hcoherent
    rw [setSource_of_read hread, hparse, ← render_forget hcoherent']
    simp only [forget, hread]
  · cases hparse : Source.parse source with
    | error error =>
        rw [setSource_of_parse_error hread hparse]
        rfl
    | ok book =>
        rw [setSource_of_parse hread hparse, ← render_forget (isCoherent_withBook hparse)]
        rfl

theorem playFrame_forget {session : Session} (hcoherent : session.IsCoherent)
    (elapsed : Binary64) :
    session.forget.playFrame elapsed = (session.playFrame elapsed).map id forget := by
  rw [Uncached.playFrame, playFrame_eq, hcoherent.playback_forget]
  cases session.playback.timeAt elapsed with
  | none => rfl
  | some t => simp only [render_forget hcoherent, Prod.map_map, Function.id_comp, Function.comp_id]

theorem variants_forget {session : Session} (hcoherent : session.IsCoherent) (count : Nat) :
    session.forget.variants count = session.variants count := by
  unfold Uncached.variants variants
  rw [hcoherent.book_forget]
  cases session.book with
  | none => rfl
  | some book =>
      simp only [forget]
      cases variantsFrom book session.config [] count session.seed <;> rfl

/-- Forgetting the book before an operation or after it is the same. -/
theorem perform_forget {session : Session} (hcoherent : session.IsCoherent)
    (operation : Operation) :
    session.forget.perform operation = (session.perform operation).map id forget := by
  have hseed : ∀ seed, session.forget.setSeed seed = (session.setSeed seed).map id forget :=
    fun seed => @render_forget { session with seed := seed } hcoherent .zero
  cases operation with
  | setSource source => exact congrArg (Prod.map Answer.text id) (setSource_forget hcoherent source)
  | setSeed seed => exact congrArg (Prod.map Answer.text id) (hseed seed)
  | nextSeed => exact congrArg (Prod.map Answer.text id) (hseed session.seed.next)
  | prevSeed => exact congrArg (Prod.map Answer.text id) (hseed session.seed.prev)
  | renderFrame t => exact congrArg (Prod.map Answer.text id) (render_forget hcoherent t)
  | playFrame elapsed =>
      exact congrArg (Prod.map Answer.frame id) (playFrame_forget hcoherent elapsed)
  | variants count =>
      exact congrArg (fun result => (Answer.variants result, session.forget))
        (variants_forget hcoherent count)

/-! ## Reading -/

@[simp] theorem readCount_render (session : Session) (t : Binary64) :
    (session.render t).2.readCount = session.readCount := by
  obtain ⟨output, lastFault, hrender⟩ := session.exists_snd_render_eq t
  rw [hrender]

theorem readCount_setSource (session : Session) (source : String) :
    (session.setSource source).2.readCount =
      session.readCount + session.forget.reads (.setSource source) := by
  change _ = session.readCount + if session.readSource = some source then 0 else 1
  by_cases hread : session.readSource = some source
  · simp [setSource_of_read hread, hread]
  · cases hparse : Source.parse source with
    | error error => simp [setSource_of_parse_error hread hparse, withFault, hread]
    | ok book => simp [setSource_of_parse hread hparse, withBook, hread]

theorem readCount_perform (session : Session) (operation : Operation) :
    (session.perform operation).2.readCount =
      session.readCount + session.forget.reads operation := by
  cases operation with
  | setSource source => exact readCount_setSource session source
  | setSeed seed => exact readCount_render _ .zero
  | nextSeed => exact readCount_render _ .zero
  | prevSeed => exact readCount_render _ .zero
  | renderFrame t => exact readCount_render session t
  | playFrame elapsed =>
      change (session.playFrame elapsed).2.readCount = session.readCount
      rw [playFrame_eq]
      cases session.playback.timeAt elapsed with
      | none => rfl
      | some t => exact readCount_render session t
  | variants count => rfl

/-! ## Runs -/

section
variable {session : Session} (hcoherent : session.IsCoherent) (operations : List Operation)
include hcoherent

theorem after_forget : session.forget.after operations = (session.after operations).forget := by
  induction operations generalizing session with
  | nil => rfl
  | cons operation operations ih =>
      have hnext := ih (isCoherent_perform hcoherent operation)
      simpa [Uncached.after, after, perform_forget hcoherent] using hnext

theorem trace_forget : session.forget.trace operations = session.trace operations := by
  induction operations generalizing session with
  | nil => rfl
  | cons operation operations ih =>
      have hnext := isCoherent_perform hcoherent operation
      simp [Uncached.trace, trace, perform_forget hcoherent, hnext.view_forget, ih hnext]

theorem readCount_after : (session.after operations).readCount =
    session.readCount + session.forget.newSources operations := by
  induction operations generalizing session with
  | nil => rfl
  | cons operation operations ih =>
      have hrest := ih (isCoherent_perform hcoherent operation)
      have hstep := readCount_perform session operation
      simp only [after, Uncached.newSources, perform_forget hcoherent, Prod.map_snd]
      omega

end

theorem newSources_opening (config : Config) (seed : Seed) (source : Option String) :
    (Uncached.start config seed).newSources (opening source) = (opening source).length := by
  cases source <;> rfl

/-- A session answers and shows what one does that keeps no book, and reads a source exactly
when it differs from the one that the book was read from. -/
theorem trace_eq_of_build {given : Option Config} {file : Option FileText} {seed : Seed}
    {source : Option String} {session : Session}
    (hbuild : build given file seed source = .ok session) (operations : List Operation) :
    ∃ plain, Uncached.build given file seed source = .ok plain ∧
      session.view = plain.view ∧
      session.trace operations = plain.trace operations ∧
      (session.after operations).readCount =
        (opening source).length + plain.newSources operations ∧
      ∀ text, ((session.after operations).setSource text).2.readCount =
        (session.after operations).readCount +
          if (plain.after operations).readable = some text then 0 else 1 := by
  obtain ⟨config, hchoose, hsession⟩ := exists_choose_of_build hbuild
  have hstart := isCoherent_start config seed
  have hplain : session.forget = (Uncached.start config seed).after (opening source) := by
    rw [hsession]
    exact (after_forget hstart (opening source)).symm
  have hcoherent : session.IsCoherent := hsession ▸ isCoherent_after hstart (opening source)
  have hcount : session.readCount = (opening source).length := by
    have hopening := readCount_after hstart (opening source)
    rw [← hsession] at hopening
    rw [hopening, ← newSources_opening config seed source]
    exact Nat.zero_add _
  refine ⟨session.forget, ?_, hcoherent.view_forget.symm,
    (trace_forget hcoherent operations).symm, ?_, fun text => ?_⟩
  · simp [Uncached.build, hchoose, hplain]
  · rw [readCount_after hcoherent, hcount]
  · rw [after_forget hcoherent]
    exact readCount_setSource (session.after operations) text

/-- A source that cannot be read comes between two settings of one that can. -/
theorem trace_eq_of_build_edits :
    ∃ (session : Session) (plain : Uncached),
      build none none ⟨"#7", 7⟩ (some "a:\n- x\n") = .ok session ∧
      Uncached.build none none ⟨"#7", 7⟩ (some "a:\n- x\n") = .ok plain ∧
      session.trace [.setSource "- y\n", .nextSeed, .setSource "a:\n- x\n"] =
        plain.trace [.setSource "- y\n", .nextSeed, .setSource "a:\n- x\n"] ∧
      (session.after [.setSource "- y\n", .nextSeed, .setSource "a:\n- x\n"]).readCount = 2 := by
  obtain ⟨plain, hplain, -, htrace, hcount, -⟩ := trace_eq_of_build
    (rfl : build none none ⟨"#7", 7⟩ (some "a:\n- x\n") = .ok _)
    [.setSource "- y\n", .nextSeed, .setSource "a:\n- x\n"]
  have hnew : plain.newSources [.setSource "- y\n", .nextSeed, .setSource "a:\n- x\n"] = 1 := by
    rw [← Except.ok.inj hplain]
    decide +kernel
  refine ⟨_, plain, rfl, hplain, htrace, ?_⟩
  rw [hcount, hnew]
  rfl

end Phrasebook.Session
