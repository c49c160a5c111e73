import Mathlib.Data.Set.Basic
import Phrasebook.Proofs.Seed.Writing

/-!
# Stepping in a cycle

A range is a stretch of words, and a step moves one place on or back in it, from either end to
the other. So where steps lead is a matter of how many more of them go on than back, counted
around the range.
-/

namespace Phrasebook.Seed

/-! ## Sums and differences that fit -/

def sum? (a b : UInt64) : Option UInt64 :=
  if a.toNat + b.toNat < 18446744073709551616 then some (a + b) else none

def difference? (a b : UInt64) : Option UInt64 := if b ≤ a then some (a - b) else none

theorem sum?_eq_some {a b : UInt64} (hfits : a.toNat + b.toNat < 18446744073709551616) :
    sum? a b = some (a + b) ∧ (a + b).toNat = a.toNat + b.toNat := by
  refine ⟨if_pos hfits, ?_⟩
  rw [UInt64.toNat_add]
  exact Nat.mod_eq_of_lt hfits

theorem difference?_eq_some {a b : UInt64} (hfits : b.toNat ≤ a.toNat) :
    difference? a b = some (a - b) ∧ (a - b).toNat = a.toNat - b.toNat :=
  ⟨if_pos (UInt64.le_iff_toNat_le.2 hfits),
    UInt64.toNat_sub_of_le _ _ (UInt64.le_iff_toNat_le.2 hfits)⟩

/-! ## Ranges -/

def range (state : UInt64) : Set UInt64 :=
  if state < canonicalSpace then {other | other < canonicalSpace}
  else {other | canonicalSpace ≤ other ∧ other < 18446744073709551615}

def offset (state : UInt64) : UInt64 := state - rangeStart state

theorem range_cases (state : UInt64) :
    (state.toNat < 1280000 ∧ (rangeStart state).toNat = 0 ∧
      (rangeSize state).toNat = 1280000 ∧ range state = {other | other < canonicalSpace}) ∨
    (1280000 ≤ state.toNat ∧ (rangeStart state).toNat = 1280000 ∧
      (rangeSize state).toNat = 18446744073708271615 ∧
      range state = {other | canonicalSpace ≤ other ∧ other < 18446744073709551615}) := by
  unfold rangeStart rangeSize range
  by_cases hcanonical : state < canonicalSpace
  · left
    simp only [if_pos hcanonical]
    exact ⟨UInt64.lt_iff_toNat_lt.1 hcanonical, rfl, rfl, trivial⟩
  · right
    simp only [if_neg hcanonical]
    exact ⟨UInt64.le_iff_toNat_le.1 (UInt64.not_lt.1 hcanonical), rfl, rfl, trivial⟩

/-- A range is made up of as many words as it has states, from its start on. -/
theorem mem_range_iff {state other : UInt64} :
    other ∈ range state ↔ (rangeStart state).toNat ≤ other.toNat ∧
      other.toNat < (rangeStart state).toNat + (rangeSize state).toNat := by
  rcases range_cases state with ⟨-, hstart, hsize, hrange⟩ | ⟨-, hstart, hsize, hrange⟩
  · rw [hrange, hstart, hsize, Set.mem_ofPred_eq, UInt64.lt_iff_toNat_lt]
    exact (and_iff_right (Nat.zero_le _)).symm
  · rw [hrange, hstart, hsize, Set.mem_ofPred_eq, UInt64.le_iff_toNat_le, UInt64.lt_iff_toNat_lt]
    rfl

section
variable {state other : UInt64}

theorem rangeStart_eq_of_mem (hmem : other ∈ range state) :
    rangeStart other = rangeStart state ∧ rangeSize other = rangeSize state := by
  rw [mem_range_iff] at hmem
  rw [← UInt64.toNat_inj, ← UInt64.toNat_inj]
  rcases range_cases state with ⟨-, hstart, hsize, -⟩ | ⟨-, hstart, hsize, -⟩ <;>
    rcases range_cases other with ⟨hother, hstart', hsize', -⟩ | ⟨hother, hstart', hsize', -⟩ <;>
    omega

theorem range_eq_of_mem (hmem : other ∈ range state) : range other = range state := by
  obtain ⟨hstart, hsize⟩ := rangeStart_eq_of_mem hmem
  ext third
  rw [mem_range_iff, mem_range_iff, hstart, hsize]

theorem mem_range_self (hlast : state < 18446744073709551615) : state ∈ range state := by
  have hbound : state.toNat < 18446744073709551615 := UInt64.lt_iff_toNat_lt.1 hlast
  rw [mem_range_iff]
  rcases range_cases state with ⟨hstate, hstart, hsize, -⟩ | ⟨hstate, hstart, hsize, -⟩ <;> omega

theorem rangeStart_add_rangeSize_le (state : UInt64) :
    (rangeStart state).toNat + (rangeSize state).toNat ≤ 18446744073709551615 := by
  rcases range_cases state with ⟨-, hstart, hsize, -⟩ | ⟨-, hstart, hsize, -⟩ <;> omega

theorem lt_of_mem_range (hmem : other ∈ range state) : other < 18446744073709551615 := by
  have hend := rangeStart_add_rangeSize_le state
  have hbelow := (mem_range_iff.1 hmem).2
  apply UInt64.lt_iff_toNat_lt.2
  show other.toNat < 18446744073709551615
  omega

theorem toNat_offset (hmem : other ∈ range state) :
    (rangeStart state).toNat + (offset other).toNat = other.toNat ∧
      (offset other).toNat < (rangeSize state).toNat := by
  obtain ⟨hstart, -⟩ := rangeStart_eq_of_mem hmem
  obtain ⟨hfirst, hlast⟩ := mem_range_iff.1 hmem
  rw [offset, hstart, UInt64.toNat_sub_of_le _ _ (UInt64.le_iff_toNat_le.2 hfirst)]
  omega

theorem mem_range_add {place : UInt64} (hplace : place.toNat < (rangeSize state).toNat) :
    sum? (rangeStart state) place = some (rangeStart state + place) ∧
      rangeStart state + place ∈ range state ∧ offset (rangeStart state + place) = place := by
  have hend := rangeStart_add_rangeSize_le state
  obtain ⟨hsum, hvalue⟩ := sum?_eq_some (a := rangeStart state) (b := place) (by omega)
  have hmem : rangeStart state + place ∈ range state := by
    rw [mem_range_iff]
    omega
  refine ⟨hsum, hmem, UInt64.toNat_inj.1 ?_⟩
  have hoffset := (toNat_offset hmem).1
  omega

end

/-! ## Steps -/

inductive Step where
  | next
  | prev
deriving DecidableEq

namespace Step

def take : Step → Seed → Seed
  | .next => Seed.next
  | .prev => Seed.prev

def state : Step → UInt64 → UInt64
  | .next => nextState
  | .prev => prevState

def sign : Step → Int
  | .next => 1
  | .prev => -1

def place : Step → (size place : UInt64) → UInt64
  | .next, size, place => (place + 1) % size
  | .prev, size, place => if place == 0 then size - 1 else place - 1

def place? : Step → (size place : UInt64) → Option UInt64
  | .next, size, place => (sum? place 1).map (· % size)
  | .prev, size, place => if place == 0 then difference? size 1 else difference? place 1

/-- The state that a step leads to, none when a sum or a difference on the way does not fit. -/
def state? (step : Step) (state : UInt64) : Option UInt64 := do
  let place ← difference? state (rangeStart state)
  let place ← step.place? (rangeSize state) place
  sum? (rangeStart state) place

def take? (step : Step) (seed : Seed) : Option Seed := (step.state? seed.state).map ofState

theorem take_eq (step : Step) (seed : Seed) :
    step.take seed = ofState (step.state seed.state) := by
  cases step <;> rfl

theorem state_eq (step : Step) (state : UInt64) :
    step.state state = rangeStart state + step.place (rangeSize state) (offset state) := by
  cases step <;> rfl

/-- A step leads from place to place, one on or back around the range, and all fits. -/
theorem place_spec (step : Step) {size place : UInt64} (hplace : place.toNat < size.toNat) :
    step.place? size place = some (step.place size place) ∧
      (step.place size place).toNat < size.toNat ∧
      ((step.place size place).toNat : Int) = (place.toNat + step.sign) % size.toNat := by
  have hsize := size.toNat_lt
  have hone : (1 : UInt64).toNat = 1 := rfl
  cases step with
  | next =>
      obtain ⟨hsum, hvalue⟩ := sum?_eq_some (a := place) (b := 1) (by omega)
      have hafter : ((place + 1) % size).toNat = (place.toNat + 1) % size.toNat := by
        rw [UInt64.toNat_mod, hvalue, hone]
      refine ⟨congrArg (Option.map (· % size)) hsum, ?_, ?_⟩
      · exact hafter ▸ Nat.mod_lt _ (by omega)
      · exact hafter ▸ Int.natCast_mod _ _
  | prev =>
      by_cases hfirst : place = 0
      · obtain ⟨hfits, hvalue⟩ := difference?_eq_some (a := size) (b := 1) (by omega)
        -- The last place is one before the first, a whole turn later.
        have hround : (0 : Int) + -1 = (size - 1).toNat + size.toNat * -1 := by omega
        rw [hfirst]
        refine ⟨hfits, ?_, ?_⟩
        · show (size - 1).toNat < size.toNat
          omega
        · show ((size - 1).toNat : Int) = (0 + -1) % size.toNat
          rw [hround, Int.add_mul_emod_self_left, Int.emod_eq_of_lt (by omega) (by omega)]
      · have hpositive : place.toNat ≠ 0 := fun hzero => hfirst (UInt64.toNat_inj.1 hzero)
        obtain ⟨hfits, hvalue⟩ := difference?_eq_some (a := place) (b := 1) (by omega)
        have hbefore : Step.prev.place size place = place - 1 := if_neg (by simpa using hfirst)
        rw [hbefore]
        refine ⟨(if_neg (by simpa using hfirst)).trans hfits, by omega, ?_⟩
        show ((place - 1).toNat : Int) = (place.toNat + -1) % size.toNat
        rw [Int.emod_eq_of_lt (by omega) (by omega)]
        omega

theorem state_spec (step : Step) {state : UInt64} (hlast : state < 18446744073709551615) :
    step.state state ∈ range state ∧ step.state? state = some (step.state state) ∧
      ((offset (step.state state)).toNat : Int) =
        ((offset state).toNat + step.sign) % (rangeSize state).toNat := by
  obtain ⟨hstart, hoffset⟩ := toNat_offset (mem_range_self hlast)
  obtain ⟨hplace, hbound, hvalue⟩ := step.place_spec hoffset
  obtain ⟨hsum, hmem, hsame⟩ := mem_range_add hbound
  have hdifference : difference? state (rangeStart state) = some (offset state) :=
    (difference?_eq_some (by omega)).1
  rw [state_eq, hsame]
  refine ⟨hmem, ?_, hvalue⟩
  simp only [state?, hdifference, hplace, Option.bind_eq_bind, Option.bind_some, hsum]

end Step

end Phrasebook.Seed
