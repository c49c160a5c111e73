import Phrasebook.Proofs.Expansion.Recursion
import Phrasebook.Proofs.Session.Runs
import Phrasebook.Proofs.Source.Contents

/-!
# What a session shows and what was done with it

The output, the last fault and the book of a session are stored apart from each other. What
was done with the session determines them all the same: the output is the last text that was
rendered, the last fault is that of the last operation that left a text or a fault, and without
a fault the output is what the book is rendered to at the last time rendered at.
-/

namespace Phrasebook.Session

def renderTimes (session : Session) : List Operation → List Binary64
  | [] => []
  | operation :: operations =>
    (session.renderTime? operation).toList ++ (session.perform operation).2.renderTimes operations

def outcomes (session : Session) (operations : List Operation) : List (Except Fault String) :=
  (session.trace operations).filterMap (·.1.outcome?)

theorem outcomes_cons (session : Session) (operation : Operation) (operations : List Operation) :
    session.outcomes (operation :: operations) =
      (session.perform operation).1.outcome?.toList ++
        (session.perform operation).2.outcomes operations := by
  unfold outcomes
  rw [trace, List.filterMap_cons]
  cases (session.perform operation).1.outcome? <;> rfl

def lastText (outcomes : List (Except Fault String)) : String :=
  (outcomes.filterMap Except.toOption).getLast?.getD ""

@[simp] theorem lastText_concat_ok (outcomes : List (Except Fault String)) (text : String) :
    lastText (outcomes ++ [.ok text]) = text := by
  simp [lastText, Except.toOption]

@[simp] theorem lastText_concat_error (outcomes : List (Except Fault String)) (fault : Fault) :
    lastText (outcomes ++ [.error fault]) = lastText outcomes := by
  simp [lastText, Except.toOption]

/-- Whether a session shows what the times rendered at and what was left of them say. -/
structure Recounts (session : Session) (times : List Binary64)
    (outcomes : List (Except Fault String)) : Prop where
  blank : session.book = none → session.output = ""
  rendered : ∀ book, session.book = some book → session.lastFault = none →
    ∃ t, times.getLast? = some t ∧
      book.generateDefault session.config session.seed t = .ok session.output
  lastFault : ∀ fault, session.lastFault = some fault ↔ outcomes.getLast? = some (.error fault)
  output : session.output = lastText outcomes

theorem recounts_start (config : Config) (seed : Seed) : (start config seed).Recounts [] [] where
  blank _ := rfl
  rendered _ hbook := nomatch hbook
  lastFault _ := ⟨nofun, nofun⟩
  output := rfl

section
variable {session : Session} {times : List Binary64} {outcomes : List (Except Fault String)}

/-! ## One operation -/

theorem Recounts.withFault (hrecounts : session.Recounts times outcomes) (source : String)
    (error : Source.Error) :
    (session.withFault source error).Recounts times (outcomes ++ [.error (.source error)]) where
  blank := hrecounts.blank
  rendered book _ hfault := nomatch hfault
  lastFault fault := by simp [Session.withFault]
  output := by simpa [Session.withFault] using hrecounts.output

/-- Rendering makes up for a change of source, seed or book. -/
theorem Recounts.render (hrecounts : session.Recounts times outcomes) {ready : Session}
    (hready : session.Prepares ready) (t : Binary64) :
    (ready.render t).2.Recounts (times ++ [t])
      (outcomes ++ (outcomeOf (ready.render t).1).toList) := by
  have houtput : ready.output = lastText outcomes := hready.output.trans hrecounts.output
  cases hbook : ready.book with
  | none =>
      -- There was no book before either, and nothing is rendered.
      have hblank : ready.output = "" := hready.output.trans (hrecounts.blank (hready.book hbook))
      rw [render_of_none hbook]
      refine ⟨fun _ => hblank, ?_, ?_, ?_⟩
      · intro book hsome
        rw [hbook] at hsome
        cases hsome
      · simpa [outcomeOf, hready.lastFault] using hrecounts.lastFault
      · simpa [outcomeOf] using houtput
  | some book =>
      cases hgenerate : book.generateDefault ready.config ready.seed t with
      | ok text =>
          rw [render_of_ok hbook hgenerate]
          refine ⟨?_, ?_, ?_, ?_⟩
          · simp [hbook]
          · intro current hcurrent _
            have hsame : book = current := Option.some.inj (hbook.symm.trans hcurrent)
            exact ⟨t, by simp, hsame ▸ hgenerate⟩
          · simp [outcomeOf]
          · simp [outcomeOf]
      | error error =>
          rw [render_of_error hbook hgenerate]
          refine ⟨?_, ?_, ?_, ?_⟩
          · simp [hbook]
          · simp
          · simp [outcomeOf]
          · simpa [outcomeOf] using houtput

theorem Recounts.perform (hrecounts : session.Recounts times outcomes)
    (hcoherent : session.IsCoherent) (operation : Operation) :
    (session.perform operation).2.Recounts (times ++ (session.renderTime? operation).toList)
      (outcomes ++ (session.perform operation).1.outcome?.toList) := by
  cases performs hcoherent operation with
  | keeps hnext houtcome htime =>
      rw [hnext, houtcome, htime]
      simpa using hrecounts
  | renders ready t hready hnext houtcome htime =>
      rw [hnext, houtcome, htime]
      exact hrecounts.render hready t
  | refuses source error hnext houtcome htime =>
      rw [hnext, houtcome, htime]
      simpa using hrecounts.withFault source error

@[simp] theorem config_render (session : Session) (t : Binary64) :
    (session.render t).2.config = session.config := by
  obtain ⟨output, lastFault, hrender⟩ := session.exists_snd_render_eq t
  rw [hrender]

theorem config_perform (hcoherent : session.IsCoherent) (operation : Operation) :
    (session.perform operation).2.config = session.config := by
  cases performs hcoherent operation with
  | keeps hnext => rw [hnext]
  | renders ready t hready hnext => rw [hnext, config_render, hready.config]
  | refuses source error hnext =>
      rw [hnext]
      rfl

/-! ## Without a book -/

def Answer.error? : Answer → Option Error
  | .text (.error error) | .frame (.error error) | .variants (.error error) => some error
  | _ => none

theorem playback_of_book_eq_none (hbook : session.book = none) (elapsed : Binary64) :
    ∃ t, session.playback.timeAt elapsed = some t := by
  unfold playback
  rw [hbook]
  exact ⟨_, rfl⟩

theorem error?_perform_of_book_eq_none (hbook : session.book = none) {operation : Operation}
    (hoperation : ∀ source, operation ≠ .setSource source) :
    (session.perform operation).1.error? = some .noBook := by
  have hseed : ∀ seed, session.setSeed seed = (.error .noBook, { session with seed := seed }) :=
    fun seed => @render_of_none { session with seed := seed } hbook .zero
  cases operation with
  | setSource source => exact absurd rfl (hoperation source)
  | setSeed seed => simp [Session.perform, hseed, Answer.error?]
  | nextSeed => simp [Session.perform, nextSeed, hseed, Answer.error?]
  | prevSeed => simp [Session.perform, prevSeed, hseed, Answer.error?]
  | renderFrame t => simp [Session.perform, renderFrame, render_of_none hbook, Answer.error?]
  | playFrame elapsed =>
      obtain ⟨t, htime⟩ := playback_of_book_eq_none hbook elapsed
      simp [Session.perform, playFrame_eq, htime, render_of_none hbook, Except.map, Answer.error?]
  | variants count => simp [Session.perform, variants, hbook, Answer.error?]

/-! ## Runs -/

theorem Recounts.after (hrecounts : session.Recounts times outcomes)
    (hcoherent : session.IsCoherent) (operations : List Operation) :
    (session.after operations).Recounts (times ++ session.renderTimes operations)
      (outcomes ++ session.outcomes operations) := by
  induction operations generalizing session times outcomes with
  | nil => simpa [Session.after, renderTimes, Session.outcomes, trace] using hrecounts
  | cons operation operations ih =>
      have hstep := hrecounts.perform hcoherent operation
      have hrest := ih hstep (isCoherent_perform hcoherent operation)
      simpa [Session.after, renderTimes, outcomes_cons] using hrest

theorem config_after (hcoherent : session.IsCoherent) (operations : List Operation) :
    (session.after operations).config = session.config := by
  induction operations generalizing session with
  | nil => rfl
  | cons operation operations ih =>
      have hrest := ih (isCoherent_perform hcoherent operation)
      exact hrest.trans (config_perform hcoherent operation)

end

/-- What a session shows after any operations, from what was done with it since it was begun:
the source that it was built with, if any, and then the operations. -/
theorem view_of_build {given : Option Config} {file : Option FileText} {seed : Seed}
    {source : Option String} {operations : List Operation} {session reached : Session}
    (hbuild : build given file seed source = .ok session)
    (hreached : session.after operations = reached) :
    ∃ config, Config.choose given file = .ok config ∧ reached.config = config ∧
      (reached.book = none → reached.output = "" ∧
        ∀ operation, (∀ text, operation ≠ .setSource text) →
          (reached.perform operation).1.error? = some .noBook) ∧
      (∀ book, reached.book = some book → reached.view.lastError = none →
        ∃ t, ((start config seed).renderTimes (opening source ++ operations)).getLast? = some t ∧
          book.generateDefault config reached.seed t = .ok reached.output) ∧
      (∀ message, reached.view.lastError = some message ↔
        ∃ fault, ((start config seed).outcomes (opening source ++ operations)).getLast? =
          some (.error fault) ∧ fault.message = message) ∧
      reached.output =
        lastText ((start config seed).outcomes (opening source ++ operations)) := by
  obtain ⟨config, hchoose, rfl⟩ := exists_choose_of_build hbuild
  rw [← after_append] at hreached
  have hcoherent := isCoherent_start config seed
  have hrecounts := (recounts_start config seed).after hcoherent (opening source ++ operations)
  have hconfig := config_after hcoherent (opening source ++ operations)
  rw [hreached] at hrecounts hconfig
  simp only [List.nil_append] at hrecounts
  refine ⟨config, hchoose, hconfig, ?_, ?_, ?_, hrecounts.output⟩
  · intro hbook
    exact ⟨hrecounts.blank hbook, fun operation => error?_perform_of_book_eq_none hbook⟩
  · intro book hbook herror
    have hfault : reached.lastFault = none := Option.map_eq_none_iff.1 herror
    obtain ⟨t, htime, hgenerate⟩ := hrecounts.rendered book hbook hfault
    rw [hconfig] at hgenerate
    exact ⟨t, htime, hgenerate⟩
  · intro message
    rw [view, Option.map_eq_some_iff]
    exact exists_congr fun fault => and_congr_left fun _ => hrecounts.lastFault fault

theorem view_of_build_frame :
    ∃ (session reached : Session) (book : Book),
      build none none ⟨"#7", 7⟩ (some "root:\n- x\n") = .ok session ∧
      session.after [.renderFrame .one] = reached ∧
      reached.book = some book ∧ reached.view.lastError = none ∧
      book.generateDefault Config.default reached.seed .one = .ok reached.output ∧
      reached.output = "x" := by
  let root : Category := ⟨"root", [⟨.one, [.literal "x"]⟩]⟩
  obtain ⟨book, hparse, htest⟩ := Source.exists_parse_of_test "root:\n- x\n"
    (fun book => decide (book.find? "root" = some root)) (by decide +kernel)
  have hroot : book.find? "root" = some root := of_decide_eq_true htest
  have hgenerate : ∀ t, root.selected ((Draw.Source.ofTime 7 t).at #[]) = some ⟨0, by decide⟩ →
      book.generateDefault Config.default ⟨"#7", 7⟩ t = .ok "x" := by
    intro t hselected
    refine (Expansion.Task.expand_eq_expandRecursively _ _).trans ?_
    simp [Expansion.Task.expandRecursively, Expansion.Task.expandAt, Expansion.Task.emit,
      Config.default, hroot, hselected, root, Except.map]
  have hzero := hgenerate .zero (by decide +kernel)
  have hone := hgenerate .one (by decide +kernel)
  let shown : Session :=
    { (start Config.default ⟨"#7", 7⟩).withBook "root:\n- x\n" book with
      output := "x", lastFault := none }
  have hset : (start Config.default ⟨"#7", 7⟩).setSource "root:\n- x\n" = (.ok "x", shown) :=
    (setSource_of_parse (by simp [start]) hparse).trans (render_of_ok rfl hzero)
  have hframe : shown.render .one = (.ok "x", shown) := render_of_ok rfl hone
  have hbuild : build none none ⟨"#7", 7⟩ (some "root:\n- x\n") = .ok shown :=
    congrArg (fun reply => Except.ok (Prod.snd reply)) hset
  have hreached : shown.after [.renderFrame .one] = shown := by
    simp [after, perform, renderFrame, hframe]
  obtain ⟨config, hchoose, -, -, hrendered, -⟩ := view_of_build hbuild hreached
  have hconfig : Config.default = config := Except.ok.inj hchoose
  obtain ⟨t, htime, hanswer⟩ := hrendered book rfl rfl
  have hlast : ((start config ⟨"#7", 7⟩).renderTimes (opening (some "root:\n- x\n") ++
      [.renderFrame .one])).getLast? = some .one := by
    rw [← hconfig]
    decide +kernel
  rw [Option.some.inj (htime.symm.trans hlast), ← hconfig] at hanswer
  exact ⟨shown, shown, book, hbuild, hreached, rfl, rfl, hanswer, rfl⟩

end Phrasebook.Session
