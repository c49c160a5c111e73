import Phrasebook.Proofs.Seed.Walks
import Phrasebook.Proofs.Session.Runs

/-!
# Seeds of a session

What an operation leaves as the seed of a session depends on the seed before it alone: the
operation sets a seed, takes a step or does nothing to it. So a session that only ever gets seeds
from texts and states has such a seed at any time, and so have the variants that it answers.
What such a seed is written as is read as the same seed.
-/

namespace Phrasebook

namespace Session

def Operation.seedAfter : Operation → Seed → Seed
  | .setSeed seed, _ => seed
  | .nextSeed, seed => seed.next
  | .prevSeed, seed => seed.prev
  | _, seed => seed

def SetsGiven (operations : List Operation) : Prop :=
  ∀ seed, .setSeed seed ∈ operations → seed.IsGiven

/-! ## One operation -/

section
variable (session : Session)

@[simp] theorem seed_render (t : Binary64) : (session.render t).2.seed = session.seed := by
  obtain ⟨output, lastFault, hrender⟩ := session.exists_snd_render_eq t
  rw [hrender]

theorem seed_setSource (source : String) :
    (session.setSource source).2.seed = session.seed := by
  by_cases hread : session.readSource = some source
  · rw [setSource_of_read hread, seed_render]
  · cases hparse : Source.parse source with
    | error error =>
        rw [setSource_of_parse_error hread hparse]
        rfl
    | ok book =>
        rw [setSource_of_parse hread hparse, seed_render]
        rfl

theorem seed_playFrame (elapsed : Binary64) :
    (session.playFrame elapsed).2.seed = session.seed := by
  rw [playFrame_eq]
  cases session.playback.timeAt elapsed with
  | none => rfl
  | some t => exact session.seed_render t

theorem seed_perform (operation : Operation) :
    (session.perform operation).2.seed = operation.seedAfter session.seed := by
  cases operation with
  | setSource source => exact session.seed_setSource source
  | setSeed seed => exact seed_render _ .zero
  | nextSeed => exact seed_render _ .zero
  | prevSeed => exact seed_render _ .zero
  | renderFrame t => exact session.seed_render t
  | playFrame elapsed => exact session.seed_playFrame elapsed
  | variants count => rfl

end

theorem Operation.isGiven_seedAfter {operation : Operation} {seed : Seed}
    (hoperation : ∀ other, operation = .setSeed other → other.IsGiven) (hseed : seed.IsGiven) :
    (operation.seedAfter seed).IsGiven := by
  cases operation with
  | setSeed other => exact hoperation other rfl
  | nextSeed => exact .take .next seed
  | prevSeed => exact .take .prev seed
  | _ => exact hseed

/-! ## Runs -/

theorem isGiven_seed_after {session : Session} {operations : List Operation}
    (hsets : SetsGiven operations) (hseed : session.seed.IsGiven) :
    (session.after operations).seed.IsGiven := by
  induction operations generalizing session with
  | nil => exact hseed
  | cons operation operations ih =>
      have hoperation : ∀ other, operation = .setSeed other → other.IsGiven :=
        fun other heq => hsets other (heq ▸ List.mem_cons_self)
      refine ih (fun other hmem => hsets other (List.mem_cons_of_mem _ hmem)) ?_
      rw [seed_perform]
      exact Operation.isGiven_seedAfter hoperation hseed

theorem isGiven_seed_of_build {given : Option Config} {file : Option FileText} {seed : Seed}
    {source : Option String} {session : Session} (hseed : seed.IsGiven)
    (hbuild : build given file seed source = .ok session) : session.seed.IsGiven := by
  obtain ⟨config, -, rfl⟩ := exists_choose_of_build hbuild
  refine isGiven_seed_after ?_ hseed
  intro other hmem
  cases source <;> simp [opening] at hmem

theorem isGiven_seed_of_variantsFrom {book : Book} {config : Config} {count : Nat} {seed : Seed}
    {done variants : List Variant} (hdone : ∀ variant ∈ done, variant.seed.IsGiven)
    (hseed : seed.IsGiven) (hvariants : variantsFrom book config done count seed = .ok variants) :
    ∀ variant ∈ variants, variant.seed.IsGiven := by
  induction count generalizing seed done with
  | zero =>
      cases hvariants
      simpa using hdone
  | succ count ih =>
      rw [variantsFrom] at hvariants
      cases hgenerate : book.generateDefault config seed .zero with
      | error error => simp [hgenerate] at hvariants
      | ok text =>
          simp only [hgenerate] at hvariants
          exact ih (List.forall_mem_cons.2 ⟨hseed, hdone⟩) (.take .next seed) hvariants

theorem isGiven_seed_of_variants {session : Session} {count : Nat} {variants : List Variant}
    (hseed : session.seed.IsGiven) (hvariants : session.variants count = .ok variants) :
    ∀ variant ∈ variants, variant.seed.IsGiven := by
  unfold Session.variants at hvariants
  split at hvariants
  · cases hvariants
  · split at hvariants
    · next hfrom =>
      cases hvariants
      exact isGiven_seed_of_variantsFrom (by simp) hseed hfrom
    · cases hvariants

end Session

namespace Seed

/-! ## Written out and read back -/

theorem IsGiven.ofText_text_beq {seed : Seed} (hgiven : seed.IsGiven) :
    (ofText seed.text == seed) = true :=
  beq_iff.2 hgiven.spec.2

/-- The text of a seed says its state: that of a state is read as the state, and a seed that
comes from a text or a state by way of any steps is read back as one with its state, which is
never the last word. So are the seed of a session, whatever was done with it, and the seeds of
the variants that it answers. -/
theorem ofText_text :
    (∀ state < 18446744073709551615, decode (ofState state).text = state) ∧
    (∀ (seed : Seed) (steps : List Step), seed.IsGiven →
      (walk steps seed).state < 18446744073709551615 ∧
        (ofText (walk steps seed).text).state = (walk steps seed).state) ∧
    ∀ (given : Option Config) (file : Option FileText) (seed : Seed) (source : Option String)
      (session : Session) (operations : List Session.Operation),
      Session.build given file seed source = .ok session → seed.IsGiven →
      Session.SetsGiven operations →
      let reached := session.after operations
      (ofText reached.seed.text == reached.seed) = true ∧
        ∀ count variants, reached.variants count = .ok variants →
          ∀ variant ∈ variants, (ofText variant.seed.text == variant.seed) = true := by
  refine ⟨?_, ?_, ?_⟩
  · intro state hlast
    rw [ofState_of_lt hlast]
    exact decode_encode hlast
  · intro seed steps hgiven
    exact (walk_spec steps hgiven).1.spec
  · intro given file seed source session operations hbuild hseed hsets
    have hreached := Session.isGiven_seed_after hsets (Session.isGiven_seed_of_build hseed hbuild)
    refine ⟨hreached.ofText_text_beq, ?_⟩
    intro count variants hvariants variant hmem
    exact (Session.isGiven_seed_of_variants hreached hvariants variant hmem).ofText_text_beq

/-- The last word of all stands for the first free-form state, from which a step goes back to
the end of the range; the session is built with a word in capitals and a number with a zero. -/
theorem ofText_text_wraps :
    decode (ofState 18446744073709551614).text = 18446744073709551614 ∧
      (ofText (walk [.prev] (ofState 18446744073709551615)).text).state =
        18446744073709551614 ∧
      ∃ session, Session.build none none (ofText "OTTER042") (some "root:\n- x\n") =
          .ok session ∧
        let reached := session.after [.nextSeed, .setSeed (ofText " #1280007 "), .prevSeed]
        reached.seed.state = 1280006 ∧ (ofText reached.seed.text == reached.seed) = true := by
  obtain ⟨hstates, hwalks, hsessions⟩ := ofText_text
  obtain ⟨-, hprev⟩ := hwalks (ofState 18446744073709551615) [.prev] (.state _)
  have hsets : Session.SetsGiven [.nextSeed, .setSeed (ofText " #1280007 "), .prevSeed] := by
    intro seed hmem
    obtain rfl : seed = ofText " #1280007 " := by simpa using hmem
    exact .text _
  have hbuild : Session.build none none (ofText "OTTER042") (some "root:\n- x\n") = .ok _ := rfl
  obtain ⟨hread, -⟩ := hsessions none none _ _ _ _ hbuild (.text _) hsets
  refine ⟨hstates _ (by decide), hprev.trans (by decide +kernel), _, hbuild, ?_, hread⟩
  have hset : (ofText " #1280007 ").prev.state = 1280006 := by decide +kernel
  simp only [Session.after, Session.seed_perform, Session.Operation.seedAfter, hset]

end Seed

end Phrasebook
