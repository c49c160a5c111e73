import Mathlib.Logic.Function.Iterate
import Phrasebook.Proofs.Lint.Safety
import Phrasebook.Proofs.Session.Twins

/-!
# Variants and steps

The variants of a session are what it answers when its seed is set anew and then stepped on, all
at once and with the session left as it is. They are there when each of these seeds is rendered,
and the first one that is not makes the error.
-/

namespace Phrasebook.Session

/-! ## Rendering one seed after another -/

section
variable {book : Book} {config : Config} {count : Nat} {seed : Seed}

theorem variantsFrom_succ (book : Book) (config : Config) (count : Nat) (seed : Seed) :
    variantsFrom book config [] (count + 1) seed =
      (book.generateDefault config seed .zero).bind fun text =>
        (variantsFrom book config [] count seed.next).map (⟨seed, text⟩ :: ·) := by
  rw [variantsFrom]
  cases book.generateDefault config seed .zero with
  | error error => rfl
  | ok text => exact variantsFrom_eq_map book config [⟨seed, text⟩] count seed.next

/-- The variants of a book are the seeds from one on, each with its text. -/
theorem variantsFrom_eq_ok_iff {variants : List Variant} :
    variantsFrom book config [] count seed = .ok variants ↔
      variants.length = count ∧ ∀ i < count, ∃ text,
        variants[i]? = some ⟨Seed.next^[i] seed, text⟩ ∧
          book.generateDefault config (Seed.next^[i] seed) .zero = .ok text := by
  induction count generalizing seed variants with
  | zero => simp [variantsFrom, eq_comm]
  | succ count ih =>
      rw [variantsFrom_succ, Nat.forall_lt_succ_left]
      cases hgenerate : book.generateDefault config seed .zero with
      | error error => simp [Except.bind, hgenerate]
      | ok text =>
          constructor
          · intro hvariants
            cases hrest : variantsFrom book config [] count seed.next with
            | error error => simp [Except.bind, Except.map, hrest] at hvariants
            | ok rest =>
                obtain ⟨hlength, hentries⟩ := ih.1 hrest
                obtain rfl : ⟨seed, text⟩ :: rest = variants := by
                  simpa [Except.bind, Except.map, hrest] using hvariants
                exact ⟨congrArg (· + 1) hlength, ⟨text, rfl, hgenerate⟩, hentries⟩
          · rintro ⟨hlength, ⟨first, hfirst, hok⟩, hentries⟩
            obtain rfl : text = first := Except.ok.inj (hgenerate.symm.trans hok)
            cases variants with
            | nil => cases hlength
            | cons variant rest =>
                obtain rfl : variant = ⟨seed, text⟩ := Option.some.inj hfirst
                have hrest := ih.2 ⟨Nat.succ.inj hlength, hentries⟩
                simp [Except.bind, Except.map, hrest]

/-- The first seed that is not rendered makes the error. -/
theorem variantsFrom_eq_error_iff {fault : Expansion.Error} :
    variantsFrom book config [] count seed = .error fault ↔
      ∃ i < count, book.generateDefault config (Seed.next^[i] seed) .zero = .error fault ∧
        ∀ j < i, ∃ text, book.generateDefault config (Seed.next^[j] seed) .zero = .ok text := by
  induction count generalizing seed with
  | zero => simp [variantsFrom]
  | succ count ih =>
      rw [variantsFrom_succ, Nat.exists_lt_succ_left]
      simp only [Nat.forall_lt_succ_left, Function.iterate_succ_apply, Function.iterate_zero, id]
      cases hgenerate : book.generateDefault config seed .zero with
      | error error => simp [Except.bind]
      | ok text =>
          have hmap : ((variantsFrom book config [] count seed.next).map (⟨seed, text⟩ :: ·) =
              .error fault) ↔ variantsFrom book config [] count seed.next = .error fault := by
            cases variantsFrom book config [] count seed.next <;> simp [Except.map]
          simp [Except.bind, hmap, ih]

theorem exists_variantsFrom_eq_ok_iff :
    (∃ variants, variantsFrom book config [] count seed = .ok variants) ↔
      ∀ i < count, ∃ text,
        book.generateDefault config (Seed.next^[i] seed) .zero = .ok text := by
  constructor
  · rintro ⟨variants, hvariants⟩ i hi
    obtain ⟨text, -, hgenerate⟩ := (variantsFrom_eq_ok_iff.1 hvariants).2 i hi
    exact ⟨text, hgenerate⟩
  · intro hrendered
    cases hvariants : variantsFrom book config [] count seed with
    | ok variants => exact ⟨variants, rfl⟩
    | error fault =>
        obtain ⟨i, hi, herror, -⟩ := variantsFrom_eq_error_iff.1 hvariants
        obtain ⟨text, htext⟩ := hrendered i hi
        cases herror.symm.trans htext

end

/-! ## Steps of a session -/

theorem walk_replicate_next (n : Nat) (seed : Seed) :
    Seed.walk (List.replicate n .next) seed = Seed.next^[n] seed := by
  induction n generalizing seed with
  | zero => rfl
  | succ n ih => exact ih seed.next

/-- What is answered last when the seed is set and then stepped on. -/
theorem getLast?_answers_setSeed (session : Session) (seed : Seed) (n : Nat) :
    (session.answers (.setSeed seed :: List.replicate n .nextSeed)).getLast? =
      some (.text (session.setSeed (Seed.next^[n] seed)).1) := by
  cases n with
  | zero => rfl
  | succ n =>
      let next := (session.setSeed seed).2
      obtain ⟨output, lastFault, hnext⟩ :
          ∃ output lastFault, next = { session with seed, output, lastFault } :=
        exists_snd_render_eq { session with seed := seed } .zero
      have hseed : next.seed = seed := by rw [hnext]
      have hset := @fst_setSeed_congr session next (by rw [hnext]) (by rw [hnext])
      have hlast : (next.answers (List.replicate (n + 1) .nextSeed)).getLast? =
          some (.text (session.setSeed (Seed.next^[n + 1] seed)).1) := by
        have hsteps : List.replicate (n + 1) Seed.Step.next ≠ [] := by simp
        rw [← hset, ← walk_replicate_next, ← hseed, ← next.getLast?_answers_steps hsteps,
          List.map_replicate]
        rfl
      show (_ :: next.answers (List.replicate (n + 1) .nextSeed)).getLast? = _
      rw [List.getLast?_cons, hlast]
      rfl

section
variable {session : Session} {book : Book} (hbook : session.book = some book) {count : Nat}
include hbook

theorem variants_eq_ok_iff {variants : List Variant} :
    session.variants count = .ok variants ↔
      variantsFrom book session.config [] count session.seed = .ok variants := by
  unfold Session.variants
  simp only [hbook]
  cases variantsFrom book session.config [] count session.seed <;> simp

theorem variants_eq_error_iff {error : Error} :
    session.variants count = .error error ↔ ∃ fault, error = .fault (.expansion fault) ∧
      variantsFrom book session.config [] count session.seed = .error fault := by
  unfold Session.variants
  simp only [hbook]
  cases variantsFrom book session.config [] count session.seed <;> simp [eq_comm]

end

theorem length_of_variants_eq_ok {session : Session} {count : Nat} {variants : List Variant}
    (hvariants : session.variants count = .ok variants) : variants.length = count := by
  cases hbook : session.book with
  | none => simp [Session.variants, hbook] at hvariants
  | some book =>
      exact (variantsFrom_eq_ok_iff.1 ((variants_eq_ok_iff hbook).1 hvariants)).1

/-- The variants are stepping done in bulk. -/
theorem variants_eq_steps (session : Session) (count : Nat) :
    (session.book = none → session.variants count = .error .noBook) ∧
    ∀ book, session.book = some book →
      let rendered := fun i =>
        book.generateDefault session.config (Seed.next^[i] session.seed) .zero
      ((∃ variants, session.variants count = .ok variants) ↔
        ∀ i < count, ∃ text, rendered i = .ok text) ∧
      (∀ variants, session.variants count = .ok variants →
        variants.length = count ∧ ∀ i < count, ∃ text,
          variants[i]? = some ⟨Seed.next^[i] session.seed, text⟩ ∧
            (session.answers (.setSeed session.seed :: List.replicate i .nextSeed)).getLast? =
              some (.text (.ok text))) ∧
      ∀ error, session.variants count = .error error ↔
        ∃ i < count, ∃ fault, error = .fault (.expansion fault) ∧ rendered i = .error fault ∧
          ∀ j < i, ∃ text, rendered j = .ok text := by
  refine ⟨fun hbook => ?_, fun book hbook => ⟨?_, fun variants hvariants => ?_, fun error => ?_⟩⟩
  · simp only [Session.variants, hbook]
  · simp only [variants_eq_ok_iff hbook, exists_variantsFrom_eq_ok_iff]
  · obtain ⟨hlength, hentries⟩ := variantsFrom_eq_ok_iff.1 ((variants_eq_ok_iff hbook).1 hvariants)
    refine ⟨hlength, fun i hi => ?_⟩
    obtain ⟨text, hentry, hgenerate⟩ := hentries i hi
    have hset : session.setSeed (Seed.next^[i] session.seed) = (.ok text, _) :=
      render_of_ok hbook hgenerate
    refine ⟨text, hentry, ?_⟩
    rw [getLast?_answers_setSeed, hset]
  · rw [variants_eq_error_iff hbook]
    constructor
    · rintro ⟨fault, rfl, hfault⟩
      obtain ⟨i, hi, hrendered, hbefore⟩ := variantsFrom_eq_error_iff.1 hfault
      exact ⟨i, hi, fault, rfl, hrendered, hbefore⟩
    · rintro ⟨i, hi, fault, rfl, hrendered, hbefore⟩
      exact ⟨fault, rfl, variantsFrom_eq_error_iff.2 ⟨i, hi, hrendered, hbefore⟩⟩

/-- The seed after the last canonical one is the first, and the last keeps its capital. -/
theorem variants_eq_steps_wrap :
    ∃ (session : Session) (variants : List Variant),
      build none none (.ofText "Zinnia9999") (some "root:\n- x\n") = .ok session ∧
      session.variants 2 = .ok variants ∧
      variants = [⟨.ofText "Zinnia9999", "x"⟩, ⟨.ofState 0, "x"⟩] ∧
      (session.answers [.setSeed (.ofText "Zinnia9999"), .nextSeed]).getLast? =
        some (.text (.ok "x")) := by
  let root : Category := ⟨"root", [⟨.one, [.literal "x"]⟩]⟩
  obtain ⟨book, hparse, htest⟩ := Source.exists_parse_of_test "root:\n- x\n"
    (fun book => decide (book.find? "root" = some root)) (by decide +kernel)
  have hroot : book.find? "root" = some root := of_decide_eq_true htest
  have hgenerate : ∀ seed, book.generateDefault .default seed .zero = .ok "x" := fun seed =>
    Book.generate_of_singleton hroot (by decide) (by decide) (by decide) _ seed .zero
  have hnext : (Seed.ofText "Zinnia9999").next = .ofState 0 := by
    have hstate : Seed.nextState (Seed.ofText "Zinnia9999").state = 0 := by decide +kernel
    rw [Seed.next, hstate]
  let session : Session :=
    { (start .default (.ofText "Zinnia9999")).withBook "root:\n- x\n" book with output := "x" }
  have hbuild : build none none (.ofText "Zinnia9999") (some "root:\n- x\n") = .ok session :=
    build_of_ok rfl hparse (hgenerate _)
  have hfrom : variantsFrom book .default [] 2 (.ofText "Zinnia9999") =
      .ok [⟨.ofText "Zinnia9999", "x"⟩, ⟨.ofState 0, "x"⟩] := by
    simp [variantsFrom, hgenerate, hnext]
  have hvariants := (@variants_eq_ok_iff session book rfl 2 _).2 hfrom
  obtain ⟨-, hentries, -⟩ := (variants_eq_steps session 2).2 book rfl
  obtain ⟨text, hentry, hlast⟩ := (hentries _ hvariants).2 1 (by decide)
  obtain rfl : "x" = text := congrArg Variant.text (Option.some.inj hentry)
  exact ⟨session, _, hbuild, hvariants, rfl, hlast⟩

end Phrasebook.Session
