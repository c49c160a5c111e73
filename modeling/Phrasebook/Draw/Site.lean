import Phrasebook.Binary64.Arithmetic
import Phrasebook.Draw.Hash
import Phrasebook.Draw.Keystream

/-! # Draws at expansion sites

A site of an expansion is named by its path. The sample of a site depends on the
seed state and the path alone; time turns all samples around the unit interval
together, so that a whole turn brings each back to where it began.
-/

namespace Phrasebook.Draw

/-- The way from the root of an expansion to a site: for each step down, the
alternative chosen and the position of the placeholder in it. -/
abbrev Path := Array UInt32

/-! ## The sample of a site -/

def pushWord (bytes : ByteArray) (word : UInt32) : ByteArray :=
  (((bytes.push word.toUInt8).push (word >>> 8).toUInt8).push (word >>> 16).toUInt8).push
    (word >>> 24).toUInt8

/-- The bytes that a site is known by: the seed state, then the steps of the path. -/
def siteKey (state : UInt64) (path : Path) : ByteArray :=
  let start := ByteArray.emptyWithCapacity (8 + 4 * path.size)
  path.foldl pushWord (pushWord (pushWord start state.toUInt32) (state >>> 32).toUInt32)

def sampleBits (state : UInt64) (path : Path) : Nat :=
  (((Keystream.Key.ofSeed (Hash.ofBytes (siteKey state path))).word64 0) >>> 11).toNat

def sample (state : UInt64) (path : Path) : Binary64 :=
  Binary64.ofUnitSample (sampleBits state path)

/-! ## Time -/

/-- The place of a time in the unit interval; infinities and patterns that are no
number stand at its start. -/
def wrapUnit (t : Binary64) : Binary64 :=
  if t.isFinite then
    let rest := t.fraction
    let wrapped := if rest.lt .zero then rest.add .one else rest
    if Binary64.one.le wrapped then .zero else wrapped
  else .zero

def rotate (sample time : Binary64) : Binary64 :=
  let turned := sample.add time
  if Binary64.one.le turned then turned.sub .one else turned

structure Source where
  state : UInt64
  time : Binary64

/-- The draws of a seed state at a time, which may be any number. -/
def Source.ofTime (state : UInt64) (t : Binary64) : Source := ⟨state, wrapUnit t⟩

def Source.at (source : Source) (path : Path) : Binary64 :=
  rotate (sample source.state path) source.time

end Phrasebook.Draw
