/-! # A stream of random words

The ChaCha block function with eight rounds, a 64-bit block counter and a zero
nonce. The stream for a seed is a function of the position alone: word `i` is
word `i % 16` of block `i / 16`, so nothing is stored between two reads.
-/

namespace Phrasebook.Draw.Keystream

abbrev Block := Vector UInt32 16

def rotateLeft (x : UInt32) (k : UInt32) : UInt32 := x <<< k ||| x >>> (32 - k)

@[inline] def quarterRound (s : Block) (i j k l : Fin 16) : Block :=
  let a := s[i] + s[j]
  let d := rotateLeft (s[l] ^^^ a) 16
  let c := s[k] + d
  let b := rotateLeft (s[j] ^^^ c) 12
  let a := a + b
  let d := rotateLeft (d ^^^ a) 8
  let c := c + d
  let b := rotateLeft (b ^^^ c) 7
  (((s.set i a).set j b).set k c).set l d

def doubleRound (s : Block) : Block :=
  let s := quarterRound s 0 4 8 12
  let s := quarterRound s 1 5 9 13
  let s := quarterRound s 2 6 10 14
  let s := quarterRound s 3 7 11 15
  let s := quarterRound s 0 5 10 15
  let s := quarterRound s 1 6 11 12
  let s := quarterRound s 2 7 8 13
  quarterRound s 3 4 9 14

abbrev Key := Vector UInt32 8

def Key.initial (key : Key) (counter : UInt64) : Block :=
  #v[0x61707865, 0x3320646e, 0x79622d32, 0x6b206574,
    key[0], key[1], key[2], key[3], key[4], key[5], key[6], key[7],
    counter.toUInt32, (counter >>> 32).toUInt32, 0, 0]

/-- The block at a counter: eight rounds over the initial words, then these added back. -/
def Key.block (key : Key) (counter : UInt64) : Block :=
  let start := key.initial counter
  let mixed := doubleRound (doubleRound (doubleRound (doubleRound start)))
  mixed.zipWith (· + ·) start

def Key.word64 (key : Key) (i : Nat) : UInt64 :=
  let words := key.block (i / 8).toUInt64
  let low := words.get ⟨2 * (i % 8), by omega⟩
  let high := words.get ⟨2 * (i % 8) + 1, by omega⟩
  low.toUInt64 ||| high.toUInt64 <<< 32

/-! ## Keys from seeds -/

/-- The generator that stretches a seed into a key steps its state by this rule. -/
def nextState (state : UInt64) : UInt64 := state * 6364136223846793005 + 11634580027462260723

def outputWord (state : UInt64) : UInt32 :=
  let x := (((state >>> 18) ^^^ state) >>> 27).toUInt32
  let k := (state >>> 59).toUInt32
  x >>> k ||| x <<< ((32 - k) % 32)

def Key.ofSeed (seed : UInt64) : Key :=
  let s0 := nextState seed
  let s1 := nextState s0
  let s2 := nextState s1
  let s3 := nextState s2
  let s4 := nextState s3
  let s5 := nextState s4
  let s6 := nextState s5
  let s7 := nextState s6
  #v[outputWord s0, outputWord s1, outputWord s2, outputWord s3,
    outputWord s4, outputWord s5, outputWord s6, outputWord s7]

end Phrasebook.Draw.Keystream
