import Phrasebook.Book.Basic

/-! # Playback

Playing turns the seconds since the start into the time of a frame: each cycle of
the duration sweeps the unit interval once. There is no clock here; the caller
measures the seconds.
-/

namespace Phrasebook

structure Playback where
  duration : Binary64
  animation : Animation
deriving DecidableEq

namespace Playback

/-- Playback with the given duration, or the default one in place of what can be none. -/
def ofDuration (seconds : Binary64) (animation : Animation) : Playback :=
  ⟨if Preamble.isDuration seconds then seconds else Preamble.default.duration, animation⟩

def ofPreamble (preamble : Preamble) : Playback := ofDuration preamble.duration preamble.animation

def isFinished (playback : Playback) (elapsed : Binary64) : Bool :=
  playback.animation = .once && playback.duration.le elapsed

/-- Elapsed seconds as they count for frames: zero in place of what is below zero or
not finite. -/
def countedSeconds (elapsed : Binary64) : Binary64 :=
  if elapsed.isFinite && elapsed.isPositive then elapsed else .zero

/-- The time of the frame at some elapsed seconds, none when the animation is over. -/
def timeAt (playback : Playback) (elapsed : Binary64) : Option Binary64 :=
  let seconds := countedSeconds elapsed
  if playback.isFinished seconds then none else some (seconds.div playback.duration).fraction

end Playback

end Phrasebook
