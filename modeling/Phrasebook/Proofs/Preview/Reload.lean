import Mathlib.Data.List.Basic
import Phrasebook.Proofs.Preview.Looking
import Phrasebook.Proofs.Session.Uncached

/-!
# Reading the sketch again

The shell says that a source is unchanged when the session has not read it anew, and the session
compares it with the source of its book. That is the last text that could be read as a source, and
not always the last text that was taken from the file. So what the shell says is true as long as
the last text taken from the file was a readable source, and it may be false after one that was
not.
-/

namespace Phrasebook

/-! ## Readable sources -/

namespace Source

def isReadable (source : String) : Bool := (parse source).toOption.isSome

def lastReadable (sources : List String) : Option String := (sources.filter isReadable).getLast?

theorem isReadable_of_lastReadable {sources : List String} {source : String}
    (hlast : lastReadable sources = some source) : isReadable source = true :=
  (List.mem_filter.1 (List.mem_of_getLast? hlast)).2

theorem lastReadable_concat (sources : List String) (source : String) :
    lastReadable (sources ++ [source]) =
      if isReadable source then some source else lastReadable sources := by
  unfold lastReadable
  rw [List.filter_append]
  cases hreadable : isReadable source <;> simp [hreadable]

end Source

namespace Session

@[simp] theorem readSource_render (session : Session) (t : Binary64) :
    (session.render t).2.readSource = session.readSource := by
  obtain ⟨output, lastFault, hrender⟩ := session.exists_snd_render_eq t
  rw [hrender]

theorem readSource_setSource {session : Session} {sources : List String}
    (hlast : session.readSource = Source.lastReadable sources) (source : String) :
    (session.setSource source).2.readSource = Source.lastReadable (sources ++ [source]) := by
  rw [Source.lastReadable_concat]
  by_cases hread : session.readSource = some source
  · have hreadable := Source.isReadable_of_lastReadable (hlast.symm.trans hread)
    rw [setSource_of_read hread, readSource_render, if_pos hreadable, hread]
  · cases hparse : Source.parse source with
    | error error =>
        have hreadable : Source.isReadable source = false := by
          simp [Source.isReadable, hparse, Except.toOption]
        rw [setSource_of_parse_error hread hparse, hreadable, ← hlast]
        rfl
    | ok book =>
        have hreadable : Source.isReadable source = true := by
          simp [Source.isReadable, hparse, Except.toOption]
        rw [setSource_of_parse hread hparse, readSource_render, if_pos hreadable]
        rfl

end Session

namespace Preview

/-! ## One event -/

def Run.reading? (run : Run) : Event → Option String
  | .changed _ => none
  | .typed line =>
    match run.session, Command.read line, run.sketch with
    | some _, .reload, .ok text => some text
    | _, _, _ => none

/-- Whether the book of the session, if there is one, is that of the last readable text. -/
def Run.Recalls (run : Run) (texts : List String) : Prop :=
  ∀ session, run.session = some session → session.readSource = Source.lastReadable texts

theorem readSource_execute {session next : Session} {path : String} {file : FileText}
    {command : Command} (hcommand : command ≠ .reload)
    (hnext : (execute session path file command).session = some next) :
    next.readSource = session.readSource := by
  cases hlooks : command.looks with
  | true =>
      obtain ⟨reached, hreached, output, lastFault, halike⟩ :=
        exists_execute_eq_of_looks hlooks session path file
      rw [hreached] at hnext
      rw [← Option.some.inj hnext, halike]
  | false =>
      cases command with
      | quit => cases hnext
      | next | prev | setSeed =>
          obtain rfl := Option.some.inj hnext
          exact Session.readSource_render _ .zero
      | reload => exact absurd rfl hcommand
      | nothing | help | showSeed | unknown | frame | play | bulk | dump => cases hlooks

theorem Run.Recalls.step {run : Run} {texts : List String} (hrecalls : run.Recalls texts)
    (event : Event) : (run.step event).2.Recalls (texts ++ (run.reading? event).toList) := by
  obtain ⟨path, sketch, session⟩ := run
  cases event with
  | changed sketch =>
      rw [reading?, Option.toList_none, List.append_nil]
      exact hrecalls
  | typed line =>
      cases session with
      | none => exact nofun
      | some session =>
          have hlast := hrecalls session rfl
          intro next hnext
          have hresponse : (execute session path sketch (Command.read line)).session = some next :=
            hnext
          by_cases hreload : Command.read line = .reload
          · rw [hreload] at hresponse
            cases sketch with
            | error fault =>
                obtain rfl := Option.some.inj hresponse
                simpa [reading?, hreload] using hlast
            | ok text =>
                obtain rfl := Option.some.inj hresponse
                simpa [reading?, hreload] using Session.readSource_setSource hlast text
          · simpa [reading?, hreload, readSource_execute hreload hresponse] using hlast

/-- Setting a source reads nothing exactly when it is that of the book. -/
theorem readCount_setSource_eq_iff {session : Session} {source : String} :
    (session.setSource source).2.readCount = session.readCount ↔
      session.readSource = some source := by
  rw [Session.readCount_setSource]
  change session.readCount + (if session.readSource = some source then 0 else 1) = _ ↔ _
  split <;> simp [*]

theorem fst_step_reload {run : Run} {session : Session} (hsession : run.session = some session)
    {text : String} (hsketch : run.sketch = .ok text) {line : String}
    (hline : Command.read line = .reload) :
    (run.step (.typed line)).1 =
      (if session.readSource = some text then "Source unchanged.\n" else "") ++
        (showResult (session.setSource text).1 ++ prompt) := by
  obtain ⟨path, sketch, current⟩ := run
  obtain rfl : current = some session := hsession
  obtain rfl : sketch = .ok text := hsketch
  unfold Run.step respond
  dsimp only
  rw [hline]
  unfold execute reload
  dsimp only
  simp only [readCount_setSource_eq_iff]
  exact String.append_assoc

theorem not_isPrefix_showResult (result : Except Session.Error String) (rest : String) :
    ¬"Source unchanged.\n".toList <+: (showResult result ++ rest).toList := by
  intro hprefix
  cases result with
  | ok text =>
      unfold showResult shown at hprefix
      simp at hprefix
  | error error =>
      unfold showResult at hprefix
      simp at hprefix

/-- A source is unchanged, as the shell says, when it is the last readable one. -/
theorem Run.Recalls.isPrefix_iff {run : Run} {texts : List String} (hrecalls : run.Recalls texts)
    {session : Session} (hsession : run.session = some session) {text : String}
    (hsketch : run.sketch = .ok text) {line : String} (hline : Command.read line = .reload) :
    "Source unchanged.\n".toList <+: (run.step (.typed line)).1.toList ↔
      Source.lastReadable texts = some text := by
  rw [fst_step_reload hsession hsketch hline, ← hrecalls session hsession]
  by_cases hread : session.readSource = some text
  · rw [if_pos hread, String.toList_append]
    exact iff_of_true (List.prefix_append _ _) hread
  · rw [if_neg hread, String.empty_append]
    exact iff_of_false (not_isPrefix_showResult _ _) hread

/-! ## Runs -/

def Run.readings (run : Run) : List Event → List String
  | [] => []
  | event :: events => (run.reading? event).toList ++ (run.step event).2.readings events

theorem Run.Recalls.after {run : Run} {texts : List String} (hrecalls : run.Recalls texts)
    (events : List Event) : (run.after events).Recalls (texts ++ run.readings events) := by
  induction events generalizing run texts with
  | nil => simpa [Run.after, readings] using hrecalls
  | cons event events ih =>
      have hrest := ih (hrecalls.step event)
      simpa [Run.after, readings] using hrest

/-- A shell begins with the book of its sketch, if that can be read. -/
theorem exists_recalls_of_start {arguments : Arguments} {out : String} {run : Run}
    (hstart : start arguments = .waiting out run) :
    ∃ source, arguments.sketch = .ok source ∧ run.Recalls [source] := by
  unfold start at hstart
  split at hstart
  · cases hstart
  · next config hconfig =>
    split at hstart
    · cases hstart
    · next source hsketch =>
      refine ⟨source, hsketch, ?_⟩
      unfold startSession at hstart
      split at hstart
      · cases hstart
      · next session hbuild =>
        obtain ⟨chosen, -, hsession⟩ := Session.exists_choose_of_build hbuild
        have hnone : (Session.start chosen arguments.seed).readSource = Source.lastReadable [] :=
          rfl
        have hread : session.readSource = Source.lastReadable [source] := by
          rw [hsession]
          exact Session.readSource_setSource hnone source
        split at hstart
        · split at hstart <;> cases hstart
        · cases hstart
          intro current hcurrent
          rw [← Option.some.inj hcurrent, hread]

/-- A shell that reads the sketch again says that it is unchanged exactly when the text is the last
readable one of those taken from the file before. That is the last text taken from the file if this
one was readable. If it was not, the shell is right only about a text that is neither the last one
nor the last readable one. -/
theorem unchanged_isPrefix_iff {arguments : Arguments} {out : String} {run : Run}
    (hstart : start arguments = .waiting out run) {events : List Event} {session : Session}
    (hsession : (run.after events).session = some session) {text : String}
    (hsketch : (run.after events).sketch = .ok text) {line : String}
    (hline : Command.read line = .reload) :
    ∃ source last, arguments.sketch = .ok source ∧
      (source :: run.readings events).getLast? = some last ∧
      ("Source unchanged.\n".toList <+: ((run.after events).step (.typed line)).1.toList ↔
        Source.lastReadable (source :: run.readings events) = some text) ∧
      (("Source unchanged.\n".toList <+: ((run.after events).step (.typed line)).1.toList ↔
          text = last) ↔
        Source.isReadable last = true ∨
          text ≠ last ∧ Source.lastReadable (source :: run.readings events) ≠ some text) := by
  obtain ⟨source, hsource, hrecalls⟩ := exists_recalls_of_start hstart
  have hprints := (hrecalls.after events).isPrefix_iff hsession hsketch hline
  obtain ⟨front, last, hlast⟩ := (source :: run.readings events).eq_nil_or_concat'.resolve_left
    (List.cons_ne_nil _ _)
  refine ⟨source, last, hsource, by rw [hlast, List.getLast?_concat], hprints, ?_⟩
  rw [hprints, List.singleton_append, hlast, Source.lastReadable_concat]
  cases hreadable : Source.isReadable last with
  | true => simp [eq_comm]
  | false =>
      by_cases htext : text = last
      · have hnot : Source.lastReadable front ≠ some text := by
          intro hfront
          have hreads := Source.isReadable_of_lastReadable hfront
          rw [htext, hreadable] at hreads
          cases hreads
        simp [htext, htext ▸ hnot]
      · simp [htext]

/-- A sketch that is spoilt and then restored: the spoilt one is not said to be unchanged when it
is read a second time, and the restored one is. -/
theorem unchanged_of_restored :
    let arguments : Arguments :=
      ⟨"sketch.seed", .ok "root:\n- a\n", Seed.ofText "#1", none, false⟩
    let spoilt : List Event := [.changed (.ok "- b\n"), .typed "reload"]
    let restored : List Event := spoilt ++ [.changed (.ok "root:\n- a\n")]
    ∃ out run, start arguments = .waiting out run ∧ Command.read "reload" = .reload ∧
      run.readings spoilt = ["- b\n"] ∧ run.readings restored = ["- b\n"] ∧
      (run.after spoilt).sketch = .ok "- b\n" ∧
      (run.after restored).sketch = .ok "root:\n- a\n" ∧
      ¬"Source unchanged.\n".toList <+: ((run.after spoilt).step (.typed "reload")).1.toList ∧
      "Source unchanged.\n".toList <+: ((run.after restored).step (.typed "reload")).1.toList := by
  intro arguments spoilt restored
  have hline : Command.read "reload" = .reload := rfl
  have hlast : Source.lastReadable ["root:\n- a\n", "- b\n"] = some "root:\n- a\n" := by
    decide +kernel
  obtain ⟨out, session, hstart⟩ : ∃ out session, start arguments =
      .waiting out ⟨arguments.sketchPath, arguments.sketch, some session⟩ := ⟨_, _, rfl⟩
  obtain ⟨source, hsource, hrecalls⟩ := exists_recalls_of_start hstart
  obtain rfl : "root:\n- a\n" = source := Except.ok.inj hsource
  refine ⟨out, _, hstart, hline, rfl, rfl, rfl, rfl, ?_, ?_⟩
  · have hprints := (hrecalls.after spoilt).isPrefix_iff rfl rfl hline
    rw [hprints]
    change Source.lastReadable ["root:\n- a\n", "- b\n"] ≠ some "- b\n"
    rw [hlast]
    decide
  · exact ((hrecalls.after restored).isPrefix_iff rfl rfl hline).2 hlast

/-- The restored sketch is said to be unchanged, though another text was read before it. -/
theorem unchanged_isPrefix_iff_restored :
    let arguments : Arguments :=
      ⟨"sketch.seed", .ok "root:\n- a\n", Seed.ofText "#1", none, false⟩
    let events : List Event :=
      [.changed (.ok "- b\n"), .typed "reload", .changed (.ok "root:\n- a\n")]
    ∃ out run session text, start arguments = .waiting out run ∧
      (run.after events).session = some session ∧ (run.after events).sketch = .ok text ∧
      Command.read "reload" = .reload ∧
      ∃ source last, arguments.sketch = .ok source ∧
        (source :: run.readings events).getLast? = some last ∧
        ("Source unchanged.\n".toList <+: ((run.after events).step (.typed "reload")).1.toList ↔
          Source.lastReadable (source :: run.readings events) = some text) ∧
        (("Source unchanged.\n".toList <+: ((run.after events).step (.typed "reload")).1.toList ↔
            text = last) ↔
          Source.isReadable last = true ∨
            text ≠ last ∧ Source.lastReadable (source :: run.readings events) ≠ some text) := by
  intro arguments events
  obtain ⟨out, session, hstart⟩ : ∃ out session, start arguments =
      .waiting out ⟨arguments.sketchPath, arguments.sketch, some session⟩ := ⟨_, _, rfl⟩
  exact ⟨out, _, _, _, hstart, rfl, rfl, rfl, unchanged_isPrefix_iff hstart rfl rfl rfl⟩

end Preview

end Phrasebook
