import Phrasebook.Proofs.Playback.Frames
import Phrasebook.Proofs.Session.Runs

/-!
# Ends of animations

An animation is over when it has no frame any more, and it says by itself whether it is finished.
The frames count infinite seconds as none, so they start over there, while the animation stays
finished. At all other seconds the two agree, what is no number and what is below zero included,
and what is over once is over later as well.
-/

namespace Phrasebook

namespace Binary64

theorem eq_infinity_iff {x : Binary64} (hx : x.IsNonneg) :
    x = infinity false ↔ x.isInfinite = true := by
  constructor
  · rintro rfl
    exact isInfinite_infinity
  · intro hinfinite
    have hcode : x.code = infinityCode := beq_iff_eq.1 hinfinite
    rw [← ofCode_code x, hx.unsigned, hcode, infinity]

/-- What is above a positive number is above all that is below it. -/
theorem le_trans_of_isPositive {x y z : Binary64} (hx : x.isPositive = true)
    (hxy : x.le y = true) (hyz : y.le z = true) : x.le z = true := by
  obtain ⟨hy, hcodes⟩ := IsNonneg.of_le hx hxy
  have hxpos := (IsNonneg.of_isPositive hx).isPositive_iff.1 hx
  have hypositive : y.isPositive = true := hy.isPositive_iff.2 (hxpos.trans_le hcodes)
  obtain ⟨hz, hcodes'⟩ := IsNonneg.of_le hypositive hyz
  exact ((IsNonneg.of_isPositive hx).le_iff hz).2 (hcodes.trans hcodes')

end Binary64

namespace Playback

theorem isFinished_iff {playback : Playback} {elapsed : Binary64} :
    playback.isFinished elapsed = true ↔
      playback.animation = .once ∧ playback.duration.le elapsed = true := by
  simp [isFinished]

/-- The seconds that count reach a duration when the seconds do that are given, unless these are
infinite. -/
theorem le_countedSeconds_iff {duration elapsed : Binary64}
    (hduration : duration.isPositive = true) :
    duration.le (countedSeconds elapsed) = true ↔
      duration.le elapsed = true ∧ elapsed ≠ .infinity false := by
  have hnonneg := Binary64.IsNonneg.of_isPositive hduration
  unfold countedSeconds
  split
  · next hcounted =>
    obtain ⟨hfinite, hpositive⟩ := Bool.and_eq_true_iff.1 hcounted
    have helapsed := Binary64.IsNonneg.of_isPositive hpositive
    have hne : elapsed ≠ .infinity false := by
      rw [Ne, Binary64.eq_infinity_iff helapsed, Bool.not_eq_true]
      exact helapsed.isFinite_iff.1 hfinite
    exact (and_iff_left hne).symm
  · next huncounted =>
    have hzero : ¬duration.le .zero = true := by simp [hnonneg.le_zero_iff, hduration]
    refine iff_of_false hzero fun hreached => huncounted ?_
    obtain ⟨hle, hne⟩ := hreached
    obtain ⟨helapsed, hcodes⟩ := Binary64.IsNonneg.of_le hduration hle
    rw [Ne, Binary64.eq_infinity_iff helapsed, Bool.not_eq_true] at hne
    have hpositive : elapsed.isPositive = true :=
      helapsed.isPositive_iff.2 ((hnonneg.isPositive_iff.1 hduration).trans_le hcodes)
    rw [helapsed.isFinite_iff.2 hne, hpositive, Bool.and_self]

section
variable {playback : Playback} (hmade : playback.IsMade) {elapsed : Binary64}
include hmade

theorem timeAt_eq_none_iff :
    playback.timeAt elapsed = none ↔
      playback.isFinished elapsed = true ∧ elapsed ≠ .infinity false := by
  have hover : playback.timeAt elapsed = none ↔
      playback.isFinished (countedSeconds elapsed) = true := by
    rw [timeAt]
    split <;> simp_all
  rw [hover, isFinished_iff, isFinished_iff, le_countedSeconds_iff hmade.isDuration.2, and_assoc]

theorem isFinished_infinity_iff :
    playback.isFinished (.infinity false) = true ↔ playback.animation = .once := by
  obtain ⟨hfinite, hpositive⟩ := hmade.isDuration
  have hle : playback.duration.le (.infinity false) = true := by
    rw [(Binary64.IsNonneg.of_isPositive hpositive).le_iff Binary64.isNonneg_infinity,
      beq_iff_eq.1 Binary64.isInfinite_infinity]
    exact Binary64.code_le_of_isFinite hfinite
  rw [isFinished_iff, and_iff_left hle]

/-- Frames and animation agree on the end unless an animation that runs once is asked about
infinite seconds. -/
theorem timeAt_agrees_iff :
    (playback.timeAt elapsed = none ↔ playback.isFinished elapsed = true) ↔
      ¬(playback.animation = .once ∧ elapsed = .infinity false) := by
  rw [timeAt_eq_none_iff hmade]
  by_cases hinfinite : elapsed = .infinity false
  · rw [hinfinite, isFinished_infinity_iff hmade]
    simp
  · simp [hinfinite]

/-- A finished animation is finished at all later seconds. -/
theorem isFinished_of_le {later : Binary64} (hfinished : playback.isFinished elapsed = true)
    (hle : elapsed.le later = true) : playback.isFinished later = true := by
  rw [isFinished_iff] at hfinished ⊢
  exact ⟨hfinished.1,
    Binary64.le_trans_of_isPositive hmade.isDuration.2 hfinished.2 hle⟩

end

end Playback

theorem Session.isMade_playback (session : Session) : session.playback.IsMade := by
  unfold Session.playback
  split
  · exact .ofPreamble _
  · exact .ofPreamble _

theorem Session.playFrame_eq_none_iff {session : Session} {elapsed : Binary64} :
    (session.playFrame elapsed).1 = .ok none ↔ session.playback.timeAt elapsed = none := by
  rw [playFrame_eq]
  cases session.playback.timeAt elapsed with
  | none => simp
  | some t => cases hrender : (session.render t).1 <;> simp [Except.map, hrender]

namespace Playback

/-- Whether an animation is over is the same for its frames, for a session that plays it and for
the animation itself, at all seconds but infinite ones, and it stays over. At infinite seconds an
animation that runs once is finished and has a frame all the same. -/
theorem timeAt_eq_none_iff_isFinished {playback : Playback} (hmade : playback.IsMade)
    (session : Session) (elapsed : Binary64) :
    ((playback.timeAt elapsed = none ↔ playback.isFinished elapsed = true) ↔
      ¬(playback.animation = .once ∧ elapsed = .infinity false)) ∧
    (((session.playFrame elapsed).1 = .ok none ↔ session.playback.isFinished elapsed = true) ↔
      ¬(session.playback.animation = .once ∧ elapsed = .infinity false)) ∧
    (playback.isFinished elapsed = true → ∀ later, elapsed.le later = true →
      playback.isFinished later = true ∧
        (playback.timeAt later = none ↔ later ≠ .infinity false)) := by
  refine ⟨timeAt_agrees_iff hmade, ?_, fun hfinished later hle => ?_⟩
  · rw [Session.playFrame_eq_none_iff, timeAt_agrees_iff session.isMade_playback]
  · have hlater := isFinished_of_le hmade hfinished hle
    exact ⟨hlater, by rw [timeAt_eq_none_iff hmade, and_iff_right hlater]⟩

/-- An animation of two seconds that runs once, two and a half seconds and then three in. -/
theorem timeAt_eq_none_iff_isFinished_once :
    let playback := ofDuration .two .once
    let elapsed : Binary64 := ⟨0x4004000000000000⟩
    let later : Binary64 := ⟨0x4008000000000000⟩
    playback.IsMade ∧ playback.isFinished elapsed = true ∧ elapsed.le later = true ∧
      playback.isFinished later = true ∧ playback.timeAt later = none := by
  intro playback elapsed later
  have hmade : playback.IsMade := .ofDuration .two .once
  have hfinished : playback.isFinished elapsed = true := by decide
  have hle : elapsed.le later = true := by decide
  obtain ⟨-, -, hover⟩ :=
    timeAt_eq_none_iff_isFinished hmade (.start .default (.ofState 0)) elapsed
  obtain ⟨hlater, hnone⟩ := hover hfinished later hle
  exact ⟨hmade, hfinished, hle, hlater, hnone.2 (by decide)⟩

/-- At infinite seconds an animation that runs once is finished, and shows its first frame. -/
theorem exists_isFinished_timeAt_eq_some :
    let playback := ofDuration .two .once
    playback.IsMade ∧ playback.isFinished (.infinity false) = true ∧
      playback.timeAt (.infinity false) = some .zero :=
  ⟨.ofDuration .two .once, by decide, by decide +kernel⟩

end Playback

end Phrasebook
