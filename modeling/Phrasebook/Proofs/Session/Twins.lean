import Phrasebook.Proofs.Session.Seeds

/-!
# Sessions with equal seeds

A seed counts by its state alone. So two sessions that differ in how their seeds are written
answer the same and show the same, whatever is done with them, as long as they are given equal
seeds. Only the texts of the seeds tell them apart: that of the session, and that of the first
variant, which is rendered with it.
-/

namespace Phrasebook

theorem Seed.next_eq_of_state_eq {seed other : Seed} (hseeds : seed.state = other.state) :
    seed.next = other.next := by
  rw [Seed.next, Seed.next, hseeds]

theorem Seed.prev_eq_of_state_eq {seed other : Seed} (hseeds : seed.state = other.state) :
    seed.prev = other.prev := by
  rw [Seed.prev, Seed.prev, hseeds]

theorem Book.generateDefault_eq_of_state_eq {seed other : Seed}
    (hseeds : seed.state = other.state) (book : Book) (config : Config) (t : Binary64) :
    book.generateDefault config seed t = book.generateDefault config other t := by
  rw [generateDefault, generateDefault, generate, generate, hseeds]

namespace Session

def withSeed (session : Session) (seed : Seed) : Session := { session with seed := seed }

/-- Sessions that differ in the text of the seed at most. -/
def IsTwin (session twin : Session) : Prop :=
  ∃ seed, seed.state = session.seed.state ∧ twin = session.withSeed seed

inductive Operation.IsTwin : Operation → Operation → Prop
  | same (operation : Operation) : IsTwin operation operation
  | setSeed {seed other : Seed} :
      other.state = seed.state → IsTwin (.setSeed seed) (.setSeed other)

/-- The same answer, up to the text of the seed of the first variant. -/
inductive Answer.IsTwin : Answer → Answer → Prop
  | same (answer : Answer) : IsTwin answer answer
  | variants {first other : Variant} {rest : List Variant} :
      other.seed.state = first.seed.state → other.text = first.text →
      IsTwin (.variants (.ok (first :: rest))) (.variants (.ok (other :: rest)))

/-! ## One operation -/

theorem variantsFrom_eq_map (book : Book) (config : Config) (done : List Variant) (count : Nat)
    (seed : Seed) :
    variantsFrom book config done count seed =
      (variantsFrom book config [] count seed).map (done.reverse ++ ·) := by
  induction count generalizing done seed with
  | zero => simp [variantsFrom, Except.map]
  | succ count ih =>
      rw [variantsFrom, variantsFrom]
      cases book.generateDefault config seed .zero with
      | error error => rfl
      | ok text =>
          simp only
          rw [ih, ih [⟨seed, text⟩]]
          cases variantsFrom book config [] count seed.next <;> simp [Except.map]

section
variable {session : Session} {seed : Seed} (hseed : seed.state = session.seed.state)
include hseed

/-- Rendering sees no difference. -/
theorem render_withSeed (t : Binary64) :
    (session.withSeed seed).render t = (session.render t).map id (·.withSeed seed) := by
  cases hbook : session.book with
  | none =>
      rw [render_of_none hbook, @render_of_none (session.withSeed seed) hbook]
      rfl
  | some book =>
      have hsame := Book.generateDefault_eq_of_state_eq hseed book session.config t
      cases hgenerate : book.generateDefault session.config session.seed t with
      | ok text =>
          rw [render_of_ok hbook hgenerate,
            @render_of_ok (session.withSeed seed) _ _ _ hbook (hsame.trans hgenerate)]
          rfl
      | error error =>
          rw [render_of_error hbook hgenerate,
            @render_of_error (session.withSeed seed) _ _ _ hbook (hsame.trans hgenerate)]
          rfl

theorem setSource_withSeed (source : String) :
    (session.withSeed seed).setSource source =
      (session.setSource source).map id (·.withSeed seed) := by
  by_cases hread : session.readSource = some source
  · rw [setSource_of_read hread, @setSource_of_read (session.withSeed seed) _ hread]
    exact @render_withSeed { session with source := source } seed hseed .zero
  · cases hparse : Source.parse source with
    | error error =>
        rw [setSource_of_parse_error hread hparse,
          @setSource_of_parse_error (session.withSeed seed) _ _ hread hparse]
        rfl
    | ok book =>
        rw [setSource_of_parse hread hparse,
          @setSource_of_parse (session.withSeed seed) _ _ hread hparse]
        exact @render_withSeed (session.withBook source book) seed hseed .zero

theorem playFrame_withSeed (elapsed : Binary64) :
    (session.withSeed seed).playFrame elapsed =
      (session.playFrame elapsed).map id (·.withSeed seed) := by
  have hplayback : (session.withSeed seed).playback = session.playback := rfl
  rw [playFrame_eq, playFrame_eq, hplayback]
  cases session.playback.timeAt elapsed with
  | none => rfl
  | some t =>
      simp only [render_withSeed hseed]
      rfl

/-- Steps forget how the seed before them was written. -/
theorem nextSeed_withSeed : (session.withSeed seed).nextSeed = session.nextSeed := by
  show session.setSeed seed.next = session.setSeed session.seed.next
  rw [Seed.next_eq_of_state_eq hseed]

theorem prevSeed_withSeed : (session.withSeed seed).prevSeed = session.prevSeed := by
  show session.setSeed seed.prev = session.setSeed session.seed.prev
  rw [Seed.prev_eq_of_state_eq hseed]

/-- The first variant is rendered with the seed of the session, the others with those after it. -/
theorem isTwin_variants (count : Nat) :
    Answer.IsTwin (.variants (session.variants count))
      (.variants ((session.withSeed seed).variants count)) := by
  have hsame := fun book => Book.generateDefault_eq_of_state_eq hseed book session.config .zero
  unfold Session.variants withSeed
  cases session.book with
  | none => exact .same _
  | some book =>
      cases count with
      | zero => exact .same _
      | succ count =>
          simp only [variantsFrom, hsame]
          cases book.generateDefault session.config session.seed .zero with
          | error error => exact .same _
          | ok text =>
              simp only
              rw [variantsFrom_eq_map, variantsFrom_eq_map book _ [⟨seed, text⟩],
                Seed.next_eq_of_state_eq hseed]
              cases variantsFrom book session.config [] count session.seed.next with
              | error error => exact .same _
              | ok rest => exact .variants hseed rfl

end

theorem IsTwin.refl (session : Session) : session.IsTwin session := ⟨session.seed, rfl, rfl⟩

theorem setSeed_eq_of_state_eq {seed other : Seed} (hseeds : other.state = seed.state)
    (session : Session) :
    session.setSeed other = (session.setSeed seed).map id (·.withSeed other) :=
  @render_withSeed (session.withSeed seed) other hseeds .zero

theorem IsTwin.perform {session twin : Session} (htwin : session.IsTwin twin)
    {operation other : Operation} (hoperation : operation.IsTwin other) :
    (session.perform operation).1.IsTwin (twin.perform other).1 ∧
      (session.perform operation).2.IsTwin (twin.perform other).2 := by
  obtain ⟨seed, hseed, rfl⟩ := htwin
  cases hoperation with
  | @setSeed set other hseeds =>
      have htwin := setSeed_eq_of_state_eq hseeds session
      refine ⟨?_, other, ?_, congrArg Prod.snd htwin⟩
      · show (Answer.text _).IsTwin (Answer.text (session.setSeed other).1)
        rw [htwin]
        exact .same _
      · rw [seed_perform]
        exact hseeds
  | same =>
      have hstate : ∀ next : Session, next.seed = session.seed →
          seed.state = next.seed.state := by
        intro next hkeeps
        rw [hkeeps, hseed]
      cases operation with
      | setSource source =>
          rw [Session.perform, Session.perform, setSource_withSeed hseed]
          exact ⟨.same _, seed, hstate _ (session.seed_setSource source), rfl⟩
      | setSeed set => exact ⟨.same _, .refl _⟩
      | nextSeed =>
          rw [Session.perform, Session.perform, nextSeed_withSeed hseed]
          exact ⟨.same _, .refl _⟩
      | prevSeed =>
          rw [Session.perform, Session.perform, prevSeed_withSeed hseed]
          exact ⟨.same _, .refl _⟩
      | renderFrame t =>
          rw [Session.perform, Session.perform, renderFrame, renderFrame, render_withSeed hseed]
          exact ⟨.same _, seed, hstate _ (session.seed_render t), rfl⟩
      | playFrame elapsed =>
          rw [Session.perform, Session.perform, playFrame_withSeed hseed]
          exact ⟨.same _, seed, hstate _ (session.seed_playFrame elapsed), rfl⟩
      | variants count => exact ⟨isTwin_variants hseed count, seed, hseed, rfl⟩

/-! ## Runs -/

def answers (session : Session) (operations : List Operation) : List Answer :=
  (session.trace operations).map Prod.fst

theorem answers_append (session : Session) (operations more : List Operation) :
    session.answers (operations ++ more) =
      session.answers operations ++ (session.after operations).answers more := by
  induction operations generalizing session with
  | nil => rfl
  | cons operation operations ih =>
      exact congrArg ((session.perform operation).1 :: ·) (ih (session.perform operation).2)

theorem IsTwin.after {session twin : Session} (htwin : session.IsTwin twin)
    {operations others : List Operation}
    (hoperations : List.Forall₂ Operation.IsTwin operations others) :
    List.Forall₂ Answer.IsTwin (session.answers operations) (twin.answers others) ∧
      (session.after operations).IsTwin (twin.after others) := by
  induction hoperations generalizing session twin with
  | nil => exact ⟨.nil, htwin⟩
  | cons hoperation hoperations ih =>
      obtain ⟨hanswer, hnext⟩ := htwin.perform hoperation
      obtain ⟨hanswers, hlast⟩ := ih hnext
      exact ⟨.cons hanswer hanswers, hlast⟩

/-! ## Steps and back -/

def Operation.ofStep : Seed.Step → Operation
  | .next => .nextSeed
  | .prev => .prevSeed

theorem perform_ofStep (session : Session) (step : Seed.Step) :
    session.perform (.ofStep step) =
      (session.setSeed (step.take session.seed)).map .text id := by
  cases step <;> rfl

/-- What setting a seed answers depends on the book and the configuration alone. -/
theorem fst_setSeed_congr {session other : Session} (hbook : other.book = session.book)
    (hconfig : other.config = session.config) (seed : Seed) :
    (other.setSeed seed).1 = (session.setSeed seed).1 := by
  unfold setSeed render
  simp only [hbook, hconfig]
  cases session.book with
  | none => rfl
  | some book =>
      simp only
      cases book.generateDefault session.config seed .zero <;> rfl

/-- Steps change neither the book nor the configuration, and they lead where they do for the
seed alone. -/
theorem after_steps (session : Session) (steps : List Seed.Step) :
    (session.after (steps.map .ofStep)).book = session.book ∧
      (session.after (steps.map .ofStep)).config = session.config ∧
      (session.after (steps.map .ofStep)).seed = Seed.walk steps session.seed := by
  induction steps generalizing session with
  | nil => exact ⟨rfl, rfl, rfl⟩
  | cons step steps ih =>
      obtain ⟨output, lastFault, hrender⟩ :=
        (session.withSeed (step.take session.seed)).exists_snd_render_eq .zero
      have hnext : (session.perform (.ofStep step)).2 =
          { session.withSeed (step.take session.seed) with
            output := output, lastFault := lastFault } := by
        rw [perform_ofStep]
        exact hrender
      rw [List.map_cons, Session.after, hnext]
      exact ih _

theorem getLast?_answers_steps (session : Session) {steps : List Seed.Step} (hsteps : steps ≠ []) :
    (session.answers (steps.map .ofStep)).getLast? =
      some (.text (session.setSeed (Seed.walk steps session.seed)).1) := by
  obtain ⟨front, step, rfl⟩ := steps.eq_nil_or_concat'.resolve_left hsteps
  have hwalk : Seed.walk (front ++ [step]) session.seed =
      step.take (Seed.walk front session.seed) := by
    rw [← (session.after_steps (front ++ [step])).2.2, List.map_append, after_append,
      List.map_singleton]
    have hone := ((session.after (front.map .ofStep)).after_steps [step]).2.2
    rw [(session.after_steps front).2.2] at hone
    exact hone
  obtain ⟨hbook, hconfig, hseed⟩ := session.after_steps front
  rw [List.map_append, answers_append, List.map_singleton]
  show List.getLast? (_ ++ [((session.after (front.map .ofStep)).perform (.ofStep step)).1]) = _
  rw [List.getLast?_concat, perform_ofStep, hseed, hwalk]
  exact congrArg (fun result => some (Answer.text result)) (fst_setSeed_congr hbook hconfig _)

/-- As many steps on as back lead to a seed that is equal to the one before them, and the last of
them answers what setting that seed does. -/
theorem steps_and_back {session : Session} (hseed : session.seed.IsGiven) {steps : List Seed.Step}
    (hsteps : steps ≠ []) (hback : steps.count .next = steps.count .prev) :
    (session.after (steps.map .ofStep)).seed.state = session.seed.state ∧
      ∀ seed, seed.state = session.seed.state →
        (session.answers (steps.map .ofStep)).getLast? = some (.text (session.setSeed seed).1) := by
  have hstate : (Seed.walk steps session.seed).state = session.seed.state := by
    have hdistance : Seed.distance steps = Seed.distance [] := by
      rw [Seed.distance, hback, sub_self]
      rfl
    have hsame := @Seed.state_walk_eq_state_walk_iff session.seed hseed steps []
    rw [hdistance] at hsame
    exact hsame.2 Int.ModEq.rfl
  refine ⟨?_, ?_⟩
  · rw [(session.after_steps steps).2.2, hstate]
  · intro seed hseeds
    rw [session.getLast?_answers_steps hsteps,
      setSeed_eq_of_state_eq (hstate.trans hseeds.symm) session]
    rfl

/-! ## Equal seeds -/

theorem view_of_isTwin {session twin : Session} (htwin : session.IsTwin twin) :
    twin.seed.state = session.seed.state ∧
      twin.view = (session.withSeed twin.seed).view ∧ twin.readCount = session.readCount := by
  obtain ⟨seed, hseed, rfl⟩ := htwin
  exact ⟨hseed, rfl, rfl⟩

/-- Equal seeds are interchangeable. Two sessions that are built alike but for the texts of their
seeds answer alike and show the same after any operations that are the same but for the texts of
the seeds that they set. So does one session after steps that take each other back. -/
theorem interchangeable_of_state_eq {seed other : Seed} (hseeds : seed.state = other.state)
    {operations others : List Operation}
    (hoperations : List.Forall₂ Operation.IsTwin operations others)
    (given : Option Config) (file : Option FileText) (source : Option String) :
    (∀ error, build given file seed source = .error error ↔
      build given file other source = .error error) ∧
    ∀ session, build given file seed source = .ok session →
      ∃ twin, build given file other source = .ok twin ∧
        List.Forall₂ Answer.IsTwin (session.answers operations) (twin.answers others) ∧
        (twin.after others).seed.state = (session.after operations).seed.state ∧
        (twin.after others).view =
          ((session.after operations).withSeed (twin.after others).seed).view ∧
        (twin.after others).readCount = (session.after operations).readCount ∧
        (seed.IsGiven → SetsGiven operations → ∀ steps : List Seed.Step, steps ≠ [] →
          steps.count .next = steps.count .prev →
          let reached := session.after operations
          (reached.after (steps.map .ofStep)).seed.state = reached.seed.state ∧
            ∀ same, same.state = reached.seed.state →
              (reached.answers (steps.map .ofStep)).getLast? =
                some (.text (reached.setSeed same).1)) := by
  refine ⟨?_, ?_⟩
  · intro error
    unfold build
    cases Config.choose given file with
    | error fault => rfl
    | ok config => exact ⟨nofun, nofun⟩
  · intro session hbuild
    obtain ⟨config, hchoose, hsession⟩ := exists_choose_of_build hbuild
    have hstart : (start config seed).IsTwin (start config other) := ⟨other, hseeds.symm, rfl⟩
    have hopening : List.Forall₂ Operation.IsTwin (opening source) (opening source) :=
      List.forall₂_same.2 fun operation _ => .same operation
    have htwin := (hstart.after hopening).2
    rw [← hsession] at htwin
    obtain ⟨hanswers, hreached⟩ := htwin.after hoperations
    obtain ⟨hstate, hview, hcount⟩ := view_of_isTwin hreached
    refine ⟨_, ?_, hanswers, hstate, hview, hcount, ?_⟩
    · rw [build, hchoose]
      cases source <;> rfl
    · intro hgiven hsets steps hsteps hback
      have hseed := isGiven_seed_after hsets (isGiven_seed_of_build hgiven hbuild)
      exact steps_and_back hseed hsteps hback

/-- A canonical seed in capitals and with a zero before its number, then a free-form one with a
zero and blanks. -/
theorem interchangeable_of_state_eq_spellings :
    let operations := [.setSeed (.ofText "#01280007"), .variants 2]
    let others := [.setSeed (.ofText " #1280007 "), .variants 2]
    ∃ session twin,
      build none none (.ofText "OTTER042") (some "root:\n- x\n") = .ok session ∧
      build none none (.ofText "otter42") (some "root:\n- x\n") = .ok twin ∧
      List.Forall₂ Answer.IsTwin (session.answers operations) (twin.answers others) ∧
      (twin.after others).view.output = (session.after operations).view.output ∧
      ((session.after operations).after [.prevSeed, .nextSeed]).seed.state = 1280007 := by
  intro operations others
  have hseeds : (Seed.ofText "OTTER042").state = (Seed.ofText "otter42").state := by
    decide +kernel
  have hset : (Seed.ofText "#01280007").state = 1280007 := by decide +kernel
  have hother : (Seed.ofText " #1280007 ").state = 1280007 := by decide +kernel
  have hoperations : List.Forall₂ Operation.IsTwin operations others :=
    .cons (.setSeed (hother.trans hset.symm)) (.cons (.same _) .nil)
  have hsets : SetsGiven operations := by
    intro seed hmem
    obtain rfl : seed = .ofText "#01280007" := by simpa [operations] using hmem
    exact .text _
  have hbuild : build none none (.ofText "OTTER042") (some "root:\n- x\n") = .ok _ := rfl
  obtain ⟨twin, htwin, hanswers, -, hview, -, hsteps⟩ :=
    (interchangeable_of_state_eq hseeds hoperations none none (some "root:\n- x\n")).2 _ hbuild
  refine ⟨_, twin, hbuild, htwin, hanswers, (congrArg View.output hview).trans rfl, ?_⟩
  refine (hsteps (.text _) hsets [.prev, .next] (by decide) (by decide)).1.trans ?_
  simpa only [operations, after, seed_perform, Operation.seedAfter] using hset

end Session

end Phrasebook
