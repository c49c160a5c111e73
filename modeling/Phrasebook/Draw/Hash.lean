/-! # Hashing bytes to a word

SeaHash: four lanes take the little-endian words of the input in turn, each
absorbed word is diffused, and the lanes and the length are folded together at
the end. The lanes rotate so that the one to absorb next is always the first.
-/

namespace Phrasebook.Draw.Hash

def diffuse (x : UInt64) : UInt64 :=
  let x := x * 0x6eed0e9da4d94a4f
  let x := x ^^^ ((x >>> 32) >>> (x >>> 60))
  x * 0x6eed0e9da4d94a4f

/-- The four lanes, the one to absorb next first. -/
structure Lanes where
  a : UInt64
  b : UInt64
  c : UInt64
  d : UInt64

def Lanes.start : Lanes :=
  ⟨0x16f11fe89b0d677c, 0xb480a793d8e6c86c, 0x6fe2e5aaf078ebc9, 0x14f994a4c5259381⟩

def Lanes.absorb (lanes : Lanes) (word : UInt64) : Lanes :=
  ⟨lanes.b, lanes.c, lanes.d, diffuse (lanes.a ^^^ word)⟩

def byteAt (bytes : ByteArray) (i : Nat) : UInt64 :=
  if h : i < bytes.size then (bytes[i]).toUInt64 else 0

def wordAt (bytes : ByteArray) (i : Nat) : UInt64 :=
  byteAt bytes i ||| byteAt bytes (i + 1) <<< 8 ||| byteAt bytes (i + 2) <<< 16 |||
  byteAt bytes (i + 3) <<< 24 ||| byteAt bytes (i + 4) <<< 32 ||| byteAt bytes (i + 5) <<< 40 |||
  byteAt bytes (i + 6) <<< 48 ||| byteAt bytes (i + 7) <<< 56

def absorbFrom (bytes : ByteArray) : (count i : Nat) → Lanes → Lanes
  | 0, _, lanes => lanes
  | count + 1, i, lanes => absorbFrom bytes count (i + 1) (lanes.absorb (wordAt bytes (8 * i)))

def ofBytes (bytes : ByteArray) : UInt64 :=
  let lanes := absorbFrom bytes ((bytes.size + 7) / 8) 0 Lanes.start
  diffuse (lanes.a ^^^ lanes.b ^^^ lanes.c ^^^ lanes.d ^^^ bytes.size.toUInt64)

end Phrasebook.Draw.Hash
