import Phrasebook.Playback
import Phrasebook.Proofs.Binary64.UnitInterval

/-!
# Times of frames

The time of a frame is what is left of a quotient below one. It lies in the unit interval unless
the quotient is infinite, which leaves nothing that is a number: the seconds played then are so
many cycles that no finite number counts them. An animation that runs once is over before.
-/

namespace Phrasebook

namespace Playback

open Binary64 (unitQuanta overflowQuanta)

/-- The ways to make a playback: from any duration, or from the settings of a book. -/
inductive IsMade : Playback → Prop where
  | ofDuration (seconds : Binary64) (animation : Animation) : IsMade (ofDuration seconds animation)
  | ofPreamble (preamble : Preamble) : IsMade (ofPreamble preamble)

theorem isDuration_ofDuration (seconds : Binary64) (animation : Animation) :
    Preamble.isDuration (ofDuration seconds animation).duration = true := by
  unfold ofDuration
  split
  · next hduration => exact hduration
  · exact (by decide : Preamble.isDuration Preamble.default.duration = true)

theorem IsMade.isDuration {playback : Playback} (hmade : playback.IsMade) :
    playback.duration.isFinite = true ∧ playback.duration.isPositive = true := by
  refine Bool.and_eq_true_iff.1 ?_
  cases hmade with
  | ofDuration seconds animation => exact isDuration_ofDuration seconds animation
  | ofPreamble preamble => exact isDuration_ofDuration preamble.duration preamble.animation

theorem isNonneg_countedSeconds (elapsed : Binary64) :
    (countedSeconds elapsed).IsNonneg ∧ (countedSeconds elapsed).isFinite = true := by
  unfold countedSeconds
  split
  · next hcounted =>
    obtain ⟨hfinite, hpositive⟩ := Bool.and_eq_true_iff.1 hcounted
    exact ⟨.of_isPositive hpositive, hfinite⟩
  · exact ⟨Binary64.isNonneg_zero, by decide⟩

theorem timeAt_eq_some_iff {playback : Playback} {elapsed t : Binary64} :
    playback.timeAt elapsed = some t ↔
      playback.isFinished (countedSeconds elapsed) = false ∧
        ((countedSeconds elapsed).div playback.duration).fraction = t := by
  unfold timeAt
  dsimp only
  split
  · next hfinished => simp [hfinished]
  · next hgoing => simp [hgoing]

theorem unitQuanta_lt_overflowQuanta : unitQuanta < overflowQuanta := by
  rw [← Binary64.quantaOf_code_one]
  exact Binary64.quanta_lt_overflowQuanta (by decide)

section
variable {playback : Playback} (hmade : playback.IsMade)
include hmade

/-- While an animation that runs once goes on, less than a cycle was played. -/
theorem quanta_lt_of_once {seconds : Binary64} (hseconds : seconds.IsNonneg)
    (honce : playback.animation = .once) (hgoing : playback.isFinished seconds = false) :
    seconds.quanta * unitQuanta < overflowQuanta * playback.duration.quanta := by
  obtain ⟨hfinite, hpositive⟩ := hmade.isDuration
  have hle : ¬playback.duration.le seconds = true := by simpa [isFinished, honce] using hgoing
  rw [(Binary64.IsNonneg.of_isPositive hpositive).le_iff hseconds, Nat.not_le] at hle
  have hquanta : seconds.quanta < playback.duration.quanta :=
    Binary64.quantaOf_lt_quantaOf hle (Binary64.code_le_of_isFinite hfinite)
  calc seconds.quanta * unitQuanta
      ≤ seconds.quanta * overflowQuanta :=
        Nat.mul_le_mul_left _ unitQuanta_lt_overflowQuanta.le
    _ < playback.duration.quanta * overflowQuanta :=
        Nat.mul_lt_mul_of_pos_right hquanta
          ((Nat.zero_le _).trans_lt unitQuanta_lt_overflowQuanta)
    _ = overflowQuanta * playback.duration.quanta := Nat.mul_comm _ _

/-- Cycles of a second and more are no more than the seconds played. -/
theorem quanta_lt_of_one_le {seconds : Binary64} (hseconds : seconds.isFinite = true)
    (hlong : Binary64.one.le playback.duration = true) :
    seconds.quanta * unitQuanta < overflowQuanta * playback.duration.quanta := by
  obtain ⟨hfinite, hpositive⟩ := hmade.isDuration
  rw [Binary64.isNonneg_one.le_iff (.of_isPositive hpositive)] at hlong
  have hquanta : unitQuanta ≤ playback.duration.quanta := by
    rw [← Binary64.quantaOf_code_one]
    exact Binary64.quantaOf_le_quantaOf hlong (Binary64.code_le_of_isFinite hfinite)
  have hunit : 0 < unitQuanta := by decide
  calc seconds.quanta * unitQuanta
      < overflowQuanta * unitQuanta :=
        Nat.mul_lt_mul_of_pos_right (Binary64.quanta_lt_overflowQuanta hseconds) hunit
    _ ≤ overflowQuanta * playback.duration.quanta := Nat.mul_le_mul_left _ hquanta

/-- A time lies in the unit interval unless so many cycles were played that no finite number
counts them; it is no number then. An animation that runs once is over before, and cycles of a
second and more are never that many. -/
theorem isInUnit_timeAt_iff {elapsed t : Binary64} (htime : playback.timeAt elapsed = some t) :
    (t.IsInUnit ↔ (countedSeconds elapsed).quanta * unitQuanta <
      overflowQuanta * playback.duration.quanta) ∧
    (¬t.IsInUnit → t.isNaN = true) ∧
    (playback.animation = .once ∨ Binary64.one.le playback.duration = true → t.IsInUnit) := by
  obtain ⟨hfinite, hpositive⟩ := hmade.isDuration
  obtain ⟨hseconds, hsecondsFinite⟩ := isNonneg_countedSeconds elapsed
  obtain ⟨hgoing, rfl⟩ := timeAt_eq_some_iff.1 htime
  have hquotient := Binary64.isNonneg_div hseconds hpositive hsecondsFinite hfinite
  have hunit : ((countedSeconds elapsed).div playback.duration).fraction.IsInUnit ↔
      (countedSeconds elapsed).quanta * unitQuanta <
        overflowQuanta * playback.duration.quanta := by
    rw [Binary64.isInUnit_fraction_iff hquotient, ← Bool.not_eq_true,
      Binary64.isInfinite_div_iff hseconds hpositive hsecondsFinite hfinite, Nat.not_le]
  refine ⟨hunit, fun hnot => ?_, fun hcalm => hunit.2 ?_⟩
  · rw [Binary64.isInUnit_fraction_iff hquotient, Bool.not_eq_false] at hnot
    exact Binary64.isNaN_fraction hnot
  · rcases hcalm with honce | hlong
    · exact quanta_lt_of_once hmade hseconds honce hgoing
    · exact quanta_lt_of_one_le hmade hsecondsFinite hlong

end

/-- Three seconds into cycles of two, half a cycle is left. -/
theorem isInUnit_timeAt_iff_half :
    let playback := ofPreamble Preamble.default
    let elapsed : Binary64 := ⟨0x4008000000000000⟩
    let half : Binary64 := ⟨0x3fe0000000000000⟩
    playback.IsMade ∧ playback.timeAt elapsed = some half ∧ half.IsInUnit := by
  intro playback elapsed half
  have hmade : playback.IsMade := .ofPreamble Preamble.default
  have htime : playback.timeAt elapsed = some half := by decide +kernel
  exact ⟨hmade, htime, (isInUnit_timeAt_iff hmade htime).2.2 (.inr (by decide))⟩

/-- One second into the shortest cycles, their number is infinite and the time no number. -/
theorem exists_timeAt_not_isInUnit :
    let playback := ofDuration ⟨1⟩ .bounce
    playback.IsMade ∧ playback.timeAt Binary64.one = some Binary64.nan ∧
      ¬Binary64.nan.IsInUnit :=
  ⟨.ofDuration ⟨1⟩ .bounce, by decide +kernel, by decide⟩

end Playback

end Phrasebook
