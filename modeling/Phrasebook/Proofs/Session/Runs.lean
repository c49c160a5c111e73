import Phrasebook.Session.Basic

/-!
# Runs of a session

A session is used by one operation after another. Each answers something, and between them
the session shows its output, its last error, its seed, its source, its book and how that is
played. Building a session with a source is starting one and setting the source.

An operation either keeps the session as it is, or renders the session at some time after a
change of source, seed or book, or refuses a source that cannot be read.
-/

namespace Phrasebook.Session

inductive Operation where
  | setSource (source : String)
  | setSeed (seed : Seed)
  | nextSeed
  | prevSeed
  | renderFrame (t : Binary64)
  | playFrame (elapsed : Binary64)
  | variants (count : Nat)

inductive Answer where
  | text (result : Except Error String)
  | frame (result : Except Error (Option String))
  | variants (result : Except Error (List Variant))

def perform (session : Session) : Operation → Answer × Session
  | .setSource source => (session.setSource source).map .text id
  | .setSeed seed => (session.setSeed seed).map .text id
  | .nextSeed => session.nextSeed.map .text id
  | .prevSeed => session.prevSeed.map .text id
  | .renderFrame t => (session.renderFrame t).map .text id
  | .playFrame elapsed => (session.playFrame elapsed).map .frame id
  | .variants count => (.variants (session.variants count), session)

structure View where
  output : String
  lastError : Option String
  seed : Seed
  source : String
  book : Option Book
  playback : Playback

def view (session : Session) : View :=
  ⟨session.output, session.lastFault.map Fault.message, session.seed, session.source,
    session.book, session.playback⟩

def after (session : Session) : List Operation → Session
  | [] => session
  | operation :: operations => (session.perform operation).2.after operations

/-- What operations answer, each with what the session shows after it. -/
def trace (session : Session) : List Operation → List (Answer × View)
  | [] => []
  | operation :: operations =>
    let next := session.perform operation
    (next.1, next.2.view) :: next.2.trace operations

theorem after_append (session : Session) (operations more : List Operation) :
    session.after (operations ++ more) = (session.after operations).after more := by
  induction operations generalizing session with
  | nil => rfl
  | cons operation operations ih => exact ih (session.perform operation).2

/-! ## Building -/

def opening (source : Option String) : List Operation := source.toList.map .setSource

theorem exists_choose_of_build {given : Option Config} {file : Option FileText} {seed : Seed}
    {source : Option String} {session : Session}
    (hbuild : build given file seed source = .ok session) :
    ∃ config, Config.choose given file = .ok config ∧
      session = (start config seed).after (opening source) := by
  unfold build at hbuild
  split at hbuild
  · cases hbuild
  · next config hchoose =>
    cases hbuild
    refine ⟨config, hchoose, ?_⟩
    cases source <;> rfl

/-! ## The book and its source -/

/-- Whether the book is what the source that it was read from is read into. -/
def IsCoherent (session : Session) : Prop :=
  session.readSource.map Source.parse = session.book.map .ok

theorem isCoherent_start (config : Config) (seed : Seed) : (start config seed).IsCoherent := rfl

theorem IsCoherent.parse_of_readSource {session : Session} (hcoherent : session.IsCoherent)
    {source : String} (hread : session.readSource = some source) :
    ∃ book, Source.parse source = .ok book ∧ session.book = some book := by
  rw [IsCoherent, hread, Option.map_some] at hcoherent
  obtain ⟨book, hbook, hparse⟩ := Option.map_eq_some_iff.1 hcoherent.symm
  exact ⟨book, hparse.symm, hbook⟩

/-- Rendering changes the output and the last fault only. -/
theorem exists_snd_render_eq (session : Session) (t : Binary64) :
    ∃ output lastFault,
      (session.render t).2 = { session with output := output, lastFault := lastFault } := by
  unfold render
  split
  · exact ⟨session.output, session.lastFault, rfl⟩
  · split <;> exact ⟨_, _, rfl⟩

theorem isCoherent_render {session : Session} (hcoherent : session.IsCoherent) (t : Binary64) :
    (session.render t).2.IsCoherent := by
  obtain ⟨output, lastFault, hrender⟩ := session.exists_snd_render_eq t
  rw [hrender]
  exact hcoherent

def withBook (session : Session) (source : String) (book : Book) : Session :=
  { session with
    source := source, readCount := session.readCount + 1, book := some book,
    readSource := some source }

def withFault (session : Session) (source : String) (error : Source.Error) : Session :=
  { session with
    source := source, readCount := session.readCount + 1, lastFault := some (.source error) }

theorem isCoherent_withBook {session : Session} {source : String} {book : Book}
    (hparse : Source.parse source = .ok book) : (session.withBook source book).IsCoherent := by
  simp [IsCoherent, withBook, hparse]

section
variable {session : Session}

theorem render_of_none (hbook : session.book = none) (t : Binary64) :
    session.render t = (.error .noBook, session) := by
  unfold render
  simp only [hbook]

theorem render_of_ok {book : Book} {t : Binary64} {text : String}
    (hbook : session.book = some book)
    (hgenerate : book.generateDefault session.config session.seed t = .ok text) :
    session.render t = (.ok text, { session with output := text, lastFault := none }) := by
  unfold render
  simp only [hbook, hgenerate]

theorem render_of_error {book : Book} {t : Binary64} {error : Expansion.Error}
    (hbook : session.book = some book)
    (hgenerate : book.generateDefault session.config session.seed t = .error error) :
    session.render t = (.error (.fault (.expansion error)),
      { session with lastFault := some (.expansion error) }) := by
  unfold render
  simp only [hbook, hgenerate]

variable {source : String}

theorem setSource_of_read (hread : session.readSource = some source) :
    session.setSource source = render { session with source := source } .zero := by
  unfold setSource
  exact if_pos hread

theorem setSource_of_parse {book : Book} (hread : session.readSource ≠ some source)
    (hparse : Source.parse source = .ok book) :
    session.setSource source = (session.withBook source book).render .zero := by
  unfold setSource
  simp only [if_neg hread, hparse]
  rfl

theorem setSource_of_parse_error {error : Source.Error} (hread : session.readSource ≠ some source)
    (hparse : Source.parse source = .error error) :
    session.setSource source =
      (.error (.fault (.source error)), session.withFault source error) := by
  unfold setSource
  simp only [if_neg hread, hparse]
  rfl

theorem build_of_ok {given : Option Config} {file : Option FileText} {config : Config}
    {seed : Seed} {book : Book} {text : String} (hchoose : Config.choose given file = .ok config)
    (hparse : Source.parse source = .ok book)
    (hgenerate : book.generateDefault config seed .zero = .ok text) :
    build given file seed (some source) =
      .ok { (start config seed).withBook source book with output := text } := by
  have hset := (@setSource_of_parse (start config seed) source book (by simp [start]) hparse).trans
    (render_of_ok rfl hgenerate)
  rw [build, hchoose]
  exact congrArg (fun reply => Except.ok (Prod.snd reply)) hset

end

theorem playFrame_eq (session : Session) (elapsed : Binary64) :
    session.playFrame elapsed =
      match session.playback.timeAt elapsed with
      | none => (.ok none, session)
      | some t => (session.render t).map (·.map some) id := by
  unfold playFrame
  cases session.playback.timeAt elapsed with
  | none => rfl
  | some t =>
      simp only
      rcases session.render t with ⟨result, next⟩
      cases result <;> rfl

/-! ## What an operation does -/

/-- What the result of a rendering leaves behind: the text, or the fault; nothing when
there was no book to render. -/
def outcomeOf : Except Error String → Option (Except Fault String)
  | .ok text => some (.ok text)
  | .error (.fault fault) => some (.error fault)
  | .error _ => none

/-- What an answer leaves behind: nothing when it is that of variants, or an animation that
is over. -/
def Answer.outcome? : Answer → Option (Except Fault String)
  | .text result => outcomeOf result
  | .frame (.ok shown) => shown.map .ok
  | .frame (.error error) => outcomeOf (.error error)
  | .variants _ => none

def renderTime? (session : Session) : Operation → Option Binary64
  | .setSource source => (Source.parse source).toOption.map fun _ => .zero
  | .setSeed _ | .nextSeed | .prevSeed => some .zero
  | .renderFrame t => some t
  | .playFrame elapsed => session.playback.timeAt elapsed
  | .variants _ => none

/-- Whether a session is made ready for rendering by a change of source, seed or book. -/
structure Prepares (session ready : Session) : Prop where
  coherent : ready.IsCoherent
  config : ready.config = session.config
  output : ready.output = session.output
  lastFault : ready.lastFault = session.lastFault
  book : ready.book = none → session.book = none

inductive Performs (session : Session) (operation : Operation) : Prop where
  | keeps (hnext : (session.perform operation).2 = session)
      (houtcome : (session.perform operation).1.outcome? = none)
      (htime : session.renderTime? operation = none)
  | renders (ready : Session) (t : Binary64) (hready : session.Prepares ready)
      (hnext : (session.perform operation).2 = (ready.render t).2)
      (houtcome : (session.perform operation).1.outcome? = outcomeOf (ready.render t).1)
      (htime : session.renderTime? operation = some t)
  | refuses (source : String) (error : Source.Error)
      (hnext : (session.perform operation).2 = session.withFault source error)
      (houtcome : (session.perform operation).1.outcome? = some (.error (.source error)))
      (htime : session.renderTime? operation = none)

theorem performs {session : Session} (hcoherent : session.IsCoherent) (operation : Operation) :
    session.Performs operation := by
  have hsame : session.Prepares session := ⟨hcoherent, rfl, rfl, rfl, id⟩
  have hseed : ∀ seed, session.Prepares { session with seed := seed } := fun seed =>
    ⟨hcoherent, rfl, rfl, rfl, id⟩
  cases operation with
  | setSource source =>
      cases hparse : Source.parse source with
      | error error =>
          have hread : session.readSource ≠ some source := by
            intro hread
            obtain ⟨book, hbook, -⟩ := hcoherent.parse_of_readSource hread
            rw [hparse] at hbook
            cases hbook
          have hset := setSource_of_parse_error hread hparse
          refine .refuses source error ?_ ?_ ?_
          · simp [perform, hset]
          · simp [perform, hset, Answer.outcome?, outcomeOf]
          · simp [renderTime?, hparse, Except.toOption]
      | ok book =>
          have htime : session.renderTime? (.setSource source) = some .zero := by
            simp [renderTime?, hparse, Except.toOption]
          by_cases hread : session.readSource = some source
          · have hready : session.Prepares { session with source := source } :=
              ⟨hcoherent, rfl, rfl, rfl, id⟩
            have hset := setSource_of_read hread
            refine .renders _ .zero hready ?_ ?_ htime
            · simp [perform, hset]
            · simp [perform, hset, Answer.outcome?]
          · have hready : session.Prepares (session.withBook source book) :=
              ⟨isCoherent_withBook hparse, rfl, rfl, rfl, by simp [withBook]⟩
            have hset := setSource_of_parse hread hparse
            refine .renders _ .zero hready ?_ ?_ htime
            · simp [perform, hset]
            · simp [perform, hset, Answer.outcome?]
  | setSeed seed => exact .renders _ .zero (hseed seed) rfl rfl rfl
  | nextSeed => exact .renders _ .zero (hseed session.seed.next) rfl rfl rfl
  | prevSeed => exact .renders _ .zero (hseed session.seed.prev) rfl rfl rfl
  | renderFrame t => exact .renders _ t hsame rfl rfl rfl
  | playFrame elapsed =>
      cases htime : session.playback.timeAt elapsed with
      | none =>
          refine .keeps ?_ ?_ htime
          · simp [perform, playFrame_eq, htime]
          · simp [perform, playFrame_eq, htime, Answer.outcome?]
      | some t =>
          refine .renders session t hsame ?_ ?_ htime
          · simp [perform, playFrame_eq, htime]
          · simp only [perform, playFrame_eq, htime, Prod.map_fst]
            cases (session.render t).1 <;> rfl
  | variants count => exact .keeps rfl rfl rfl

theorem isCoherent_perform {session : Session} (hcoherent : session.IsCoherent)
    (operation : Operation) : (session.perform operation).2.IsCoherent := by
  cases performs hcoherent operation with
  | keeps hnext =>
      rw [hnext]
      exact hcoherent
  | renders ready t hready hnext =>
      rw [hnext]
      exact isCoherent_render hready.coherent t
  | refuses source error hnext =>
      rw [hnext]
      exact hcoherent

theorem isCoherent_after {session : Session} (hcoherent : session.IsCoherent)
    (operations : List Operation) : (session.after operations).IsCoherent := by
  induction operations generalizing session with
  | nil => exact hcoherent
  | cons operation operations ih => exact ih (isCoherent_perform hcoherent operation)

end Phrasebook.Session
