import Mathlib.Data.Option.Basic
import Mathlib.Tactic.SplitIfs
import Phrasebook.Preview.Run
import Phrasebook.Proofs.Session.Runs

/-!
# Commands that only look

A frame, a playing or a dump is looked at and forgotten. Rendering does change the session, but
only what it shows of the last rendering, and no command reads that. So a line that takes no other
seed, reads no source and does not end the shell can be left out of a script, and everything else
is answered as before.
-/

namespace Phrasebook

/-! ## Sessions -/

namespace Session

/-- Sessions that differ at most in what they show of the last rendering. -/
def Alike (session other : Session) : Prop :=
  ∃ output lastFault, other = { session with output := output, lastFault := lastFault }

structure Reply.Alike {α : Type} (reply other : Reply α) : Prop where
  answer : other.1 = reply.1
  next : reply.2.Alike other.2

theorem Reply.Alike.exists_eq {α : Type} {reply other : Reply α} (halike : reply.Alike other) :
    ∃ result next next', reply = (result, next) ∧ other = (result, next') ∧ next.Alike next' :=
  ⟨reply.1, reply.2, other.2, rfl, by rw [← halike.answer], halike.next⟩

section
variable {session other : Session}

theorem Alike.refl (session : Session) : session.Alike session := ⟨_, _, rfl⟩

theorem Alike.symm (halike : session.Alike other) : other.Alike session := by
  obtain ⟨output, lastFault, rfl⟩ := halike
  exact ⟨session.output, session.lastFault, rfl⟩

theorem Alike.trans {third : Session} (halike : session.Alike other) (hthird : other.Alike third) :
    session.Alike third := by
  obtain ⟨output, lastFault, rfl⟩ := halike
  obtain ⟨output, lastFault, rfl⟩ := hthird
  exact ⟨output, lastFault, rfl⟩

theorem Alike.seed (halike : session.Alike other) : other.seed = session.seed := by
  obtain ⟨output, lastFault, rfl⟩ := halike
  rfl

theorem Alike.book (halike : session.Alike other) : other.book = session.book := by
  obtain ⟨output, lastFault, rfl⟩ := halike
  rfl

theorem Alike.readCount (halike : session.Alike other) : other.readCount = session.readCount := by
  obtain ⟨output, lastFault, rfl⟩ := halike
  rfl

theorem Alike.playback (halike : session.Alike other) : other.playback = session.playback := by
  rw [Session.playback, Session.playback, halike.book]

theorem Alike.variants (halike : session.Alike other) (count : Nat) :
    other.variants count = session.variants count := by
  obtain ⟨output, lastFault, rfl⟩ := halike
  rfl

theorem alike_render (session : Session) (t : Binary64) : session.Alike (session.render t).2 :=
  session.exists_snd_render_eq t

theorem alike_playFrame (session : Session) (elapsed : Binary64) :
    session.Alike (session.playFrame elapsed).2 := by
  rw [playFrame_eq]
  cases session.playback.timeAt elapsed with
  | none => exact .refl session
  | some t => exact session.alike_render t

theorem Alike.render (halike : session.Alike other) (t : Binary64) :
    Reply.Alike (session.render t) (other.render t) where
  answer := by
    obtain ⟨output, lastFault, rfl⟩ := halike
    unfold Session.render
    cases session.book with
    | none => rfl
    | some book =>
        simp only
        cases book.generateDefault session.config session.seed t <;> rfl
  next := ((session.alike_render t).symm.trans halike).trans (other.alike_render t)

theorem Alike.setSeed (halike : session.Alike other) (seed : Seed) :
    Reply.Alike (session.setSeed seed) (other.setSeed seed) := by
  obtain ⟨output, lastFault, rfl⟩ := halike
  have hready : Alike { session with seed := seed }
      { session with seed := seed, output := output, lastFault := lastFault } := ⟨_, _, rfl⟩
  exact hready.render .zero

theorem Alike.nextSeed (halike : session.Alike other) :
    Reply.Alike session.nextSeed other.nextSeed := by
  rw [Session.nextSeed, Session.nextSeed, halike.seed]
  exact halike.setSeed session.seed.next

theorem Alike.prevSeed (halike : session.Alike other) :
    Reply.Alike session.prevSeed other.prevSeed := by
  rw [Session.prevSeed, Session.prevSeed, halike.seed]
  exact halike.setSeed session.seed.prev

theorem Alike.setSource (halike : session.Alike other) (source : String) :
    Reply.Alike (session.setSource source) (other.setSource source) := by
  obtain ⟨output, lastFault, rfl⟩ := halike
  by_cases hread : session.readSource = some source
  · have hready : Alike { session with source := source }
        { session with source := source, output := output, lastFault := lastFault } := ⟨_, _, rfl⟩
    rw [setSource_of_read hread,
      @setSource_of_read { session with output := output, lastFault := lastFault } _ hread]
    exact hready.render .zero
  · cases hparse : Source.parse source with
    | error error =>
        rw [setSource_of_parse_error hread hparse,
          @setSource_of_parse_error { session with output := output, lastFault := lastFault } _ _
            hread hparse]
        exact ⟨rfl, _, _, rfl⟩
    | ok book =>
        have hready : (session.withBook source book).Alike
            (withBook { session with output := output, lastFault := lastFault } source book) :=
          ⟨_, _, rfl⟩
        rw [setSource_of_parse hread hparse,
          @setSource_of_parse { session with output := output, lastFault := lastFault } _ _
            hread hparse]
        exact hready.render .zero

theorem Alike.playFrame (halike : session.Alike other) (elapsed : Binary64) :
    Reply.Alike (session.playFrame elapsed) (other.playFrame elapsed) := by
  rw [playFrame_eq, playFrame_eq, halike.playback]
  cases session.playback.timeAt elapsed with
  | none => exact ⟨rfl, halike⟩
  | some t =>
      obtain ⟨hanswer, hnext⟩ := halike.render t
      exact ⟨congrArg (·.map some) hanswer, hnext⟩

end

end Session

namespace Preview

/-! ## Commands -/

/-- Whether a command takes no other seed, reads no source and does not end the shell. -/
def Command.looks : Command → Bool
  | .quit | .next | .prev | .setSeed _ | .reload => false
  | _ => true

structure Response.Alike (response other : Response) : Prop where
  out : other.out = response.out
  session : Option.Rel Session.Alike response.session other.session

theorem Response.Alike.isSome_session {response other : Response}
    (halike : response.Alike other) : other.session.isSome = response.session.isSome := by
  obtain ⟨out, session⟩ := response
  obtain ⟨other, twin⟩ := other
  obtain ⟨-, hsession⟩ := halike
  cases hsession <;> rfl

theorem alike_playFrom (rate : Nat) (out : String) (count frame : Nat) (session : Session) :
    session.Alike (playFrom rate out count frame session).2 := by
  induction count generalizing out frame session with
  | zero => exact .refl session
  | succ count ih =>
      have hframe := session.alike_playFrame ((Binary64.ofNat frame).div (Binary64.ofNat rate))
      rw [playFrom]
      split
      · next hplayed =>
        rw [hplayed] at hframe
        exact hframe.trans (ih _ _ _)
      · next hplayed =>
        rw [hplayed] at hframe
        exact hframe
      · next hplayed =>
        rw [hplayed] at hframe
        exact hframe

theorem alike_play (session : Session) (rate : Nat) : session.Alike (play session rate).2 :=
  alike_playFrom rate _ _ 0 session

theorem alike_seedChanged (label : String) {reply other : Session.Reply String}
    (halike : reply.Alike other) :
    Response.Alike (seedChanged label reply) (seedChanged label other) := by
  obtain ⟨hanswer, hnext⟩ := halike
  exact ⟨by rw [seedChanged, seedChanged, hanswer, hnext.seed], .some hnext⟩

section
variable {session other : Session} (halike : session.Alike other)
include halike

theorem fst_playFrom_of_alike (rate : Nat) (out : String) (count frame : Nat) :
    (playFrom rate out count frame other).1 = (playFrom rate out count frame session).1 := by
  induction count generalizing out frame session other with
  | zero => rfl
  | succ count ih =>
      obtain ⟨result, next, next', hplayed, hother, hnext⟩ :=
        (halike.playFrame ((Binary64.ofNat frame).div (Binary64.ofNat rate))).exists_eq
      rw [playFrom, playFrom, hplayed, hother]
      match result with
      | .ok (some text) => exact ih hnext _ _
      | .ok none => rfl
      | .error error => rfl

theorem fst_play_of_alike (rate : Nat) : (play other rate).1 = (play session rate).1 := by
  unfold play
  rw [halike.playback]
  exact fst_playFrom_of_alike halike rate _ _ 0

theorem alike_reload (path : String) (file : FileText) :
    (reload session path file).Alike (reload other path file) := by
  cases file with
  | error fault => exact ⟨rfl, .some halike⟩
  | ok source =>
      obtain ⟨hanswer, hnext⟩ := halike.setSource source
      unfold reload
      dsimp only
      rw [hanswer, hnext.readCount, halike.readCount]
      exact ⟨rfl, .some hnext⟩

/-- What is printed, and all later answers, do not depend on what a session shows. -/
theorem alike_execute (path : String) (file : FileText) (command : Command) :
    (execute session path file command).Alike (execute other path file command) := by
  cases command with
  | quit => exact ⟨rfl, .none⟩
  | nothing | help | unknown => exact ⟨rfl, .some halike⟩
  | next => exact alike_seedChanged "Seed: " halike.nextSeed
  | prev => exact alike_seedChanged "Seed: " halike.prevSeed
  | showSeed =>
      obtain ⟨output, lastFault, rfl⟩ := halike
      exact ⟨rfl, .some ⟨output, lastFault, rfl⟩⟩
  | setSeed text => exact alike_seedChanged "Seed set to " (halike.setSeed (Seed.ofText text))
  | frame t =>
      cases t with
      | none => exact ⟨rfl, .some halike⟩
      | some t =>
          obtain ⟨result, next, next', hrender, hother, hnext⟩ := (halike.render t).exists_eq
          unfold execute Session.renderFrame
          dsimp only
          rw [hrender, hother]
          cases result with
          | ok text => exact ⟨rfl, .some hnext⟩
          | error error => exact ⟨rfl, .some hnext⟩
  | play rate =>
      cases rate with
      | none => exact ⟨rfl, .some halike⟩
      | some rate =>
          refine ⟨fst_play_of_alike halike rate, .some ?_⟩
          exact ((alike_play session rate).symm.trans halike).trans (alike_play other rate)
  | bulk count =>
      cases count with
      | none => exact ⟨rfl, .some halike⟩
      | some count =>
          unfold execute
          dsimp only
          rw [halike.variants]
          cases session.variants count with
          | ok variants => exact ⟨rfl, .some halike⟩
          | error error => exact ⟨rfl, .some halike⟩
  | reload => exact alike_reload halike path file
  | dump =>
      unfold execute
      dsimp only
      rw [halike.book]
      cases session.book with
      | none => exact ⟨rfl, .some halike⟩
      | some book => exact ⟨rfl, .some halike⟩

end

/-- A command that only looks leaves the session as it is but for what is shown. -/
theorem exists_execute_eq_of_looks {command : Command} (hlooks : command.looks = true)
    (session : Session) (path : String) (file : FileText) :
    ∃ next, (execute session path file command).session = some next ∧ session.Alike next := by
  cases command with
  | quit | next | prev | setSeed | reload => cases hlooks
  | nothing | help | showSeed | unknown => exact ⟨session, rfl, .refl session⟩
  | frame t =>
      cases t with
      | none => exact ⟨session, rfl, .refl session⟩
      | some t =>
          refine ⟨(session.render t).2, ?_, session.alike_render t⟩
          unfold execute Session.renderFrame
          dsimp only
          cases session.render t with
          | mk result next => cases result <;> rfl
  | play rate =>
      cases rate with
      | none => exact ⟨session, rfl, .refl session⟩
      | some rate => exact ⟨(play session rate).2, rfl, alike_play session rate⟩
  | bulk count =>
      refine ⟨session, ?_, .refl session⟩
      unfold execute
      cases count with
      | none => rfl
      | some count =>
          dsimp only
          cases session.variants count <;> rfl
  | dump =>
      refine ⟨session, ?_, .refl session⟩
      unfold execute
      dsimp only
      cases session.book <;> rfl

/-! ## Lines -/

/-- The words that take another seed, read the source or end the shell, whatever follows them. -/
def steeringWords : List String :=
  ["quit", "exit", "q"] ++ ["next", "n"] ++ ["prev", "p"] ++ ["reload"]

/-- A line that takes no other seed, reads no source and does not end the shell: it is blank, or
its first word is no steering word in any letter case, and stands alone if it is `seed`. -/
def IsLook (line : String) : Prop :=
  ∀ word arguments, Text.words (Text.trim line.toList) = word :: arguments →
    String.ofList (Text.lowerCase word) ∉ steeringWords ∧
      (String.ofList (Text.lowerCase word) = "seed" → arguments = [])

section
variable {word : String} (argument : Option (List Char)) (rest : List Char)

theorem looks_ofWords_of_mem (hword : word ∈ steeringWords) :
    (Command.ofWords word argument rest).looks = false := by
  simp only [steeringWords, List.mem_append, List.mem_cons, List.not_mem_nil, or_false] at hword
  rcases hword with ((((rfl | rfl | rfl) | rfl | rfl) | rfl | rfl) | rfl) <;>
    simp [Command.ofWords, Command.looks]

theorem looks_ofWords_of_not_mem (hword : word ∉ steeringWords) :
    (Command.ofWords word argument rest).looks = true ↔ (word = "seed" → argument = none) := by
  simp only [steeringWords, List.mem_append, not_or] at hword
  obtain ⟨⟨⟨hquit, hnext⟩, hprev⟩, hreload⟩ := hword
  rw [List.mem_singleton] at hreload
  unfold Command.ofWords
  rw [if_neg hquit, if_neg hnext, if_neg hprev, if_neg hreload]
  by_cases hhelp : word ∈ ["help", "h", "?"]
  · have hseed : word ≠ "seed" := by
      rintro rfl
      exact absurd hhelp (by decide)
    rw [if_pos hhelp]
    exact iff_of_true rfl fun heq => absurd heq hseed
  rw [if_neg hhelp]
  by_cases hseed : word = "seed"
  · rw [if_pos hseed]
    cases argument with
    | none => exact iff_of_true rfl fun _ => rfl
    | some argument => exact iff_of_false nofun fun hlook => nomatch hlook hseed
  · rw [if_neg hseed]
    refine iff_of_true ?_ fun heq => absurd heq hseed
    split_ifs <;> rfl

theorem looks_ofWords_iff : (Command.ofWords word argument rest).looks = true ↔
    word ∉ steeringWords ∧ (word = "seed" → argument = none) := by
  by_cases hword : word ∈ steeringWords
  · refine iff_of_false ?_ fun hnot => hnot.1 hword
    rw [looks_ofWords_of_mem argument rest hword]
    exact Bool.false_ne_true
  · rw [looks_ofWords_of_not_mem argument rest hword, and_iff_right hword]

end

theorem looks_read_iff {line : String} : (Command.read line).looks = true ↔ IsLook line := by
  unfold Command.read IsLook
  dsimp only
  cases hwords : Text.words (Text.trim line.toList) with
  | nil => exact iff_of_true rfl nofun
  | cons word arguments =>
      dsimp only
      rw [looks_ofWords_iff, List.head?_eq_none_iff]
      constructor
      · intro hlook first others hsplit
        cases hsplit
        exact hlook
      · exact fun hlook => hlook word arguments rfl

/-! ## Runs -/

structure Run.Alike (run other : Run) : Prop where
  sketchPath : other.sketchPath = run.sketchPath
  sketch : other.sketch = run.sketch
  session : Option.Rel Session.Alike run.session other.session

theorem Run.Alike.step {run other : Run} (halike : run.Alike other) (event : Event) :
    (other.step event).1 = (run.step event).1 ∧ (run.step event).2.Alike (other.step event).2 := by
  obtain ⟨path, sketch, session⟩ := run
  obtain ⟨path', sketch', session'⟩ := other
  obtain ⟨rfl, rfl, hsession⟩ := halike
  cases event with
  | changed sketch => exact ⟨rfl, rfl, rfl, hsession⟩
  | typed line =>
      cases hsession with
      | none => exact ⟨rfl, rfl, rfl, .none⟩
      | some hsession =>
          have hresponse := alike_execute hsession path' sketch' (Command.read line)
          refine ⟨?_, rfl, rfl, hresponse.session⟩
          unfold Run.step respond
          dsimp only
          rw [hresponse.out, hresponse.isSome_session]

theorem Run.Alike.answers {run other : Run} (halike : run.Alike other) (events : List Event) :
    other.answers events = run.answers events := by
  induction events generalizing run other with
  | nil => rfl
  | cons event events ih =>
      obtain ⟨hanswer, hnext⟩ := halike.step event
      rw [Run.answers, Run.answers, hanswer, ih hnext]

theorem Run.alike_step_of_isLook (run : Run) {line : String} (hlook : IsLook line) :
    run.Alike (run.step (.typed line)).2 := by
  obtain ⟨path, sketch, session⟩ := run
  cases session with
  | none => exact ⟨rfl, rfl, .none⟩
  | some session =>
      obtain ⟨next, hnext, halike⟩ :=
        exists_execute_eq_of_looks (looks_read_iff.2 hlook) session path sketch
      refine ⟨rfl, rfl, ?_⟩
      show Option.Rel Session.Alike (some session)
        (execute session path sketch (Command.read line)).session
      rw [hnext]
      exact .some halike

theorem Run.length_answers (run : Run) (events : List Event) :
    (run.answers events).length = events.length := by
  induction events generalizing run with
  | nil => rfl
  | cons event events ih => exact congrArg (· + 1) (ih (run.step event).2)

theorem Run.eraseIdx_answers (run : Run) (first second : List Event) {line : String}
    (hlook : IsLook line) :
    (run.answers (first ++ .typed line :: second)).eraseIdx first.length =
      run.answers (first ++ second) := by
  have hsame := ((run.after first).alike_step_of_isLook hlook).answers second
  rw [answers_append, answers_append, ← run.length_answers first,
    List.eraseIdx_append_of_length_le (Nat.le_refl _), Nat.sub_self, Run.answers,
    List.eraseIdx_cons_zero, hsame]

/-! ## Whole runs of the program -/

/-- What the program prints before it reads a line, on the error output, and in answer to each
event, and its status in the end. -/
structure Transcript where
  out : String
  err : String
  answers : List String
  status : Nat

def Transcript.withoutAnswer (transcript : Transcript) (index : Nat) : Transcript :=
  { transcript with answers := transcript.answers.eraseIdx index }

/-- The program is started and events follow; they are not answered when it is over. -/
def transcript (arguments : Arguments) (events : List Event) : Transcript :=
  let begun := start arguments
  let ended : Run := ⟨arguments.sketchPath, arguments.sketch, none⟩
  match begun with
  | .failed err => ⟨"", err, ended.answers events, begun.status⟩
  | .printed out => ⟨out, "", ended.answers events, begun.status⟩
  | .waiting out run => ⟨out, "", run.answers events, begun.status⟩

/-- A line that only looks may be left out of a script, whatever was done before it and is done
after it, to the session or to the sketch file: everything else is answered the same, and the
program ends with the same status. -/
theorem transcript_withoutAnswer (arguments : Arguments) (first second : List Event)
    {line : String} (hlook : IsLook line) :
    (transcript arguments (first ++ .typed line :: second)).withoutAnswer first.length =
      transcript arguments (first ++ second) := by
  unfold transcript Transcript.withoutAnswer
  cases start arguments <;> simp only [Run.eraseIdx_answers _ first second hlook]

/-- A playing between a step and the reading of a sketch that was written anew. -/
theorem transcript_withoutAnswer_play :
    let arguments : Arguments :=
      ⟨"sketch.seed", .ok "root:\n- a\n- b\n", Seed.ofText "#7", none, false⟩
    let changed : List Event := [.changed (.ok "root:\n- {{ c }}\n"), .typed "reload"]
    IsLook " Play 2\n" ∧
      (transcript arguments (.typed "next" :: .typed " Play 2\n" :: changed)).withoutAnswer 1 =
        transcript arguments (.typed "next" :: changed) := by
  intro arguments changed
  have hlook : IsLook " Play 2\n" := looks_read_iff.1 (by decide +kernel)
  exact ⟨hlook, transcript_withoutAnswer arguments [.typed "next"] changed hlook⟩

end Preview

end Phrasebook
