import Mathlib.Data.Int.ModEq
import Phrasebook.Proofs.Seed.Stepping

/-!
# Walks around a range

Steps one after another lead as far around the range as more of them go on than back. So steps
may change places, those that go on take back those that do not, and as many steps one way as
the range has states come by every state of it once.
-/

namespace Phrasebook.Seed

/-- Seeds come from texts and from states, any word standing for one. -/
inductive IsGiven : Seed → Prop where
  | text (text : String) : IsGiven (ofText text)
  | state (state : UInt64) : IsGiven (ofState state)

def walk : List Step → Seed → Seed
  | [], seed => seed
  | step :: steps, seed => walk steps (step.take seed)

def walk? : List Step → Seed → Option Seed
  | [], seed => some seed
  | step :: steps, seed => (step.take? seed).bind (walk? steps)

def distance (steps : List Step) : Int := steps.count .next - steps.count .prev

theorem distance_cons (step : Step) (steps : List Step) :
    distance (step :: steps) = step.sign + distance steps := by
  cases step <;> simp [distance, Step.sign] <;> omega

theorem distance_replicate (n : Nat) (step : Step) :
    distance (List.replicate n step) = n * step.sign := by
  cases step <;> simp [distance, Step.sign, List.count_replicate]

/-! ## What is given -/

theorem ofState_of_lt {state : UInt64} (hlast : state < 18446744073709551615) :
    ofState state = ⟨encode state, state⟩ := by
  have hne : (state == 18446744073709551615) = false := by
    simpa using UInt64.ne_of_lt hlast
  simp only [ofState, hne]
  rfl

theorem exists_ofState_eq (state : UInt64) :
    ∃ other < 18446744073709551615, ofState state = ⟨encode other, other⟩ := by
  by_cases hend : state = 18446744073709551615
  · exact ⟨canonicalSpace, by decide, by rw [hend]; rfl⟩
  · have hword := state.toNat_lt
    have hne : state.toNat ≠ 18446744073709551615 := fun h => hend (UInt64.toNat_inj.1 h)
    have hlast : state < 18446744073709551615 := by
      apply UInt64.lt_iff_toNat_lt.2
      show state.toNat < 18446744073709551615
      omega
    exact ⟨state, hlast, ofState_of_lt hlast⟩

theorem IsGiven.spec {seed : Seed} (hgiven : seed.IsGiven) :
    seed.state < 18446744073709551615 ∧ decode seed.text = seed.state := by
  cases hgiven with
  | text text => exact ⟨decode_lt text, rfl⟩
  | state state =>
      obtain ⟨other, hlast, hseed⟩ := exists_ofState_eq state
      rw [hseed]
      exact ⟨hlast, decode_encode hlast⟩

theorem IsGiven.take (step : Step) (seed : Seed) : (step.take seed).IsGiven := by
  rw [step.take_eq]
  exact .state _

/-! ## Where steps lead -/

theorem Step.take_spec (step : Step) {seed : Seed} (hlast : seed.state < 18446744073709551615) :
    (step.take seed).state ∈ range seed.state ∧ step.take? seed = some (step.take seed) ∧
      ((offset (step.take seed).state).toNat : Int) =
        ((offset seed.state).toNat + step.sign) % (rangeSize seed.state).toNat := by
  obtain ⟨hmem, hfits, hoffset⟩ := step.state_spec hlast
  rw [step.take_eq, ofState_of_lt (lt_of_mem_range hmem)]
  refine ⟨hmem, ?_, hoffset⟩
  rw [Step.take?, hfits, Option.map_some, ofState_of_lt (lt_of_mem_range hmem)]

theorem walk_spec (steps : List Step) {seed : Seed} (hgiven : seed.IsGiven) :
    (walk steps seed).IsGiven ∧ (walk steps seed).state ∈ range seed.state ∧
      walk? steps seed = some (walk steps seed) ∧
      ((offset (walk steps seed).state).toNat : Int) =
        ((offset seed.state).toNat + distance steps) % (rangeSize seed.state).toNat := by
  induction steps generalizing seed with
  | nil =>
      have hmem := mem_range_self hgiven.spec.1
      refine ⟨hgiven, hmem, rfl, ?_⟩
      obtain ⟨-, hplace⟩ := toNat_offset hmem
      rw [walk, distance, List.count_nil, List.count_nil, sub_self, add_zero,
        Int.emod_eq_of_lt (by omega) (by omega)]
  | cons step steps ih =>
      obtain ⟨hmem, hfits, hoffset⟩ := step.take_spec hgiven.spec.1
      obtain ⟨hgivenAfter, hafter, hfitsAfter, hoffsetAfter⟩ := ih (.take step seed)
      rw [range_eq_of_mem hmem] at hafter
      refine ⟨hgivenAfter, hafter, ?_, ?_⟩
      · rw [walk?, hfits, Option.bind_some, hfitsAfter, walk]
      · rw [walk, hoffsetAfter, (rangeStart_eq_of_mem hmem).2, hoffset, Int.emod_add_emod,
          distance_cons, add_assoc]

section
variable {seed : Seed} (hgiven : seed.IsGiven)
include hgiven

/-- Steps lead to a state of the range exactly when they go as far, around the range. -/
theorem state_walk_eq_iff {steps : List Step} {state : UInt64} (hmem : state ∈ range seed.state) :
    (walk steps seed).state = state ↔
      (offset seed.state).toNat + distance steps ≡ (offset state).toNat
        [ZMOD (rangeSize seed.state).toNat] := by
  obtain ⟨-, hwalk, -, hoffset⟩ := walk_spec steps hgiven
  obtain ⟨hplace, hbound⟩ := toNat_offset hmem
  have hstate : ((offset state).toNat : Int) % (rangeSize seed.state).toNat =
      (offset state).toNat := Int.emod_eq_of_lt (by omega) (by omega)
  rw [Int.ModEq, ← hoffset, hstate]
  constructor
  · intro hsame
    rw [hsame]
  · intro hsame
    have hplaceWalk := (toNat_offset hwalk).1
    apply UInt64.toNat_inj.1
    omega

theorem state_walk_eq_state_walk_iff {steps others : List Step} :
    (walk steps seed).state = (walk others seed).state ↔
      distance steps ≡ distance others [ZMOD (rangeSize seed.state).toNat] := by
  obtain ⟨-, hmem, -, hoffset⟩ := walk_spec others hgiven
  rw [state_walk_eq_iff hgiven hmem, hoffset]
  constructor
  · intro h
    exact (h.trans (Int.mod_modEq _ _)).add_left_cancel'
  · intro h
    exact (h.add_left _).trans (Int.mod_modEq _ _).symm

/-- As many steps one way as the range has states come by each of them once. -/
theorem exists_replicate {state : UInt64} (hmem : state ∈ range seed.state) (step : Step) :
    ∃ m < (rangeSize seed.state).toNat, (walk (List.replicate m step) seed).state = state := by
  obtain ⟨-, hbound⟩ := toNat_offset hmem
  let size : Int := (rangeSize seed.state).toNat
  -- The way to the state, counted in steps of this kind.
  let far : Int := ((offset state).toNat - (offset seed.state).toNat) * step.sign
  have hfar : 0 ≤ far % size ∧ far % size < size :=
    ⟨Int.emod_nonneg _ (by omega), Int.emod_lt_of_pos _ (by omega)⟩
  have hcount : ((far % size).toNat : Int) = far % size := Int.toNat_of_nonneg hfar.1
  refine ⟨(far % size).toNat, by omega, (state_walk_eq_iff hgiven hmem).2 ?_⟩
  rw [distance_replicate, hcount]
  have hsign : step.sign * step.sign = 1 := by cases step <;> rfl
  calc
    (offset seed.state).toNat + far % size * step.sign ≡
        (offset seed.state).toNat + far * step.sign [ZMOD size] :=
      ((Int.mod_modEq _ _).mul_right _).add_left _
    _ = (offset state).toNat := by
      rw [mul_assoc, hsign]
      omega

theorem state_walk_replicate_eq_iff (step : Step) (m n : Nat) :
    (walk (List.replicate m step) seed).state = (walk (List.replicate n step) seed).state ↔
      m ≡ n [MOD (rangeSize seed.state).toNat] := by
  rw [state_walk_eq_state_walk_iff hgiven, distance_replicate, distance_replicate,
    ← Int.natCast_modEq_iff]
  cases step with
  | next => rw [Step.sign, mul_one, mul_one]
  | prev => rw [Step.sign, mul_neg_one, mul_neg_one, Int.neg_modEq_neg]

/-- Stepping is one exact cycle in the range of a seed. Steps lead from its place to the one as
far on as they count, around the range, with no sum or difference on the way that does not fit
into a word, and the text says where. So a step is taken back by the other kind, steps may
change places, and steps of one kind come back to a state only by way of all the others. -/
theorem walk_cycle :
    (∀ steps,
      (walk steps seed).state ∈ range seed.state ∧
      ((offset (walk steps seed).state).toNat : Int) =
        ((offset seed.state).toNat + distance steps) % (rangeSize seed.state).toNat ∧
      walk? steps seed = some (walk steps seed) ∧
      decode (walk steps seed).text = (walk steps seed).state) ∧
    (seed.next.prev.state = seed.state ∧ seed.prev.next.state = seed.state) ∧
    (∀ steps others, steps.Perm others → (walk steps seed).state = (walk others seed).state) ∧
    ∀ step,
      (∀ m n, (walk (List.replicate m step) seed).state =
          (walk (List.replicate n step) seed).state ↔ m ≡ n [MOD (rangeSize seed.state).toNat]) ∧
      ∀ state ∈ range seed.state,
        ∃ m < (rangeSize seed.state).toNat, (walk (List.replicate m step) seed).state = state := by
  refine ⟨?_, ⟨?_, ?_⟩, ?_, ?_⟩
  · intro steps
    obtain ⟨hgivenAfter, hmem, hfits, hoffset⟩ := walk_spec steps hgiven
    exact ⟨hmem, hoffset, hfits, hgivenAfter.spec.2⟩
  · show (walk [.next, .prev] seed).state = (walk [] seed).state
    exact (state_walk_eq_state_walk_iff hgiven).2 rfl
  · show (walk [.prev, .next] seed).state = (walk [] seed).state
    exact (state_walk_eq_state_walk_iff hgiven).2 rfl
  · intro steps others hperm
    apply (state_walk_eq_state_walk_iff hgiven).2
    rw [distance, distance, hperm.count_eq, hperm.count_eq]
  · intro step
    exact ⟨state_walk_replicate_eq_iff hgiven step, fun state hmem =>
      exists_replicate hgiven hmem step⟩

end

theorem walk_cycle_last :
    let seed := ofText " #18446744073709551614"
    seed.IsGiven ∧ (walk [.next, .next, .prev] seed).state = 1280000 ∧
      ((offset (walk [.next, .next, .prev] seed).state).toNat : Int) =
        ((offset seed.state).toNat + 1) % (rangeSize seed.state).toNat ∧
      walk? [.next, .next, .prev] seed = some (walk [.next, .next, .prev] seed) ∧
      decode (walk [.next, .next, .prev] seed).text = 1280000 ∧
      seed.next.prev.state = seed.state ∧
      (walk [.next, .prev, .next] seed).state = 1280000 ∧
      ∃ m < 18446744073708271615, (walk (List.replicate m .prev) seed).state = 1280007 := by
  have hgiven : (ofText " #18446744073709551614").IsGiven := .text _
  have hstate : (ofText " #18446744073709551614").state = 18446744073709551614 := by
    decide +kernel
  obtain ⟨hwalks, ⟨hback, -⟩, horder, hsteps⟩ := walk_cycle hgiven
  obtain ⟨-, hoffset, hfits, htext⟩ := hwalks [.next, .next, .prev]
  have hfinal : (walk [.next, .next, .prev] (ofText " #18446744073709551614")).state = 1280000 := by
    rw [walk, Step.take_eq, hstate]
    rfl
  have hperm : ([.next, .next, .prev] : List Step).Perm [.next, .prev, .next] := by decide
  have hmem : 1280007 ∈ range (ofText " #18446744073709551614").state := by
    rw [hstate]
    exact ⟨by decide, by decide⟩
  have hsize : (rangeSize (ofText " #18446744073709551614").state).toNat =
      18446744073708271615 := by
    rw [hstate]
    rfl
  obtain ⟨m, hm, hreached⟩ := (hsteps .prev).2 1280007 hmem
  exact ⟨hgiven, hfinal, hoffset, hfits, htext.trans hfinal, hback,
    (horder _ _ hperm).symm.trans hfinal, m, hsize ▸ hm, hreached⟩

end Phrasebook.Seed
