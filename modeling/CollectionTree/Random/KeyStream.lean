/-!
# ChaCha key stream

The seeded generator is the ChaCha stream cipher with twelve rounds, read as an endless row of
32-bit words. A 64-bit seed is stretched to the cipher's key by a multiplicative generator whose
output is permuted; blocks are numbered from zero and the nonce is zero.
-/

namespace CollectionTree

/-- The cipher's state, and the block of words that it makes of one. -/
abbrev ChachaBlock := Vector UInt32 16

/-- A word turned left by less than its 32 places. -/
def rotateLeft (word places : UInt32) : UInt32 := word <<< places ||| word >>> (32 - places)

/-- A word turned right by less than its 32 places. -/
def rotateRight (word places : UInt32) : UInt32 := word >>> places ||| word <<< (32 - places)

namespace ChachaBlock

/-- Mix four words of a state into each other. -/
def quarterRound (s : ChachaBlock) (i j k l : Fin 16) : ChachaBlock :=
  let a := s[i] + s[j]
  let d := rotateLeft (s[l] ^^^ a) 16
  let c := s[k] + d
  let b := rotateLeft (s[j] ^^^ c) 12
  let a := a + b
  let d := rotateLeft (d ^^^ a) 8
  let c := c + d
  let b := rotateLeft (b ^^^ c) 7
  (((s.set i a).set j b).set k c).set l d

/-- Mix a state along its columns and then along its diagonals. -/
def doubleRound (s : ChachaBlock) : ChachaBlock :=
  let s := s.quarterRound 0 4 8 12
  let s := s.quarterRound 1 5 9 13
  let s := s.quarterRound 2 6 10 14
  let s := s.quarterRound 3 7 11 15
  let s := s.quarterRound 0 5 10 15
  let s := s.quarterRound 1 6 11 12
  let s := s.quarterRound 2 7 8 13
  s.quarterRound 3 4 9 14

/-- The output block of a state: the state mixed by twelve rounds, plus the state. -/
def permute (s : ChachaBlock) : ChachaBlock :=
  let mixed := s.doubleRound.doubleRound.doubleRound.doubleRound.doubleRound.doubleRound
  Vector.zipWith (· + ·) mixed s

end ChachaBlock

/-- A key stream, the number of its next block, and the words of earlier blocks not read yet. -/
structure KeyStream where
  key : Vector UInt32 8
  counter : UInt64 := 0
  ready : List UInt32 := []
  deriving DecidableEq, Repr

namespace KeyStream

/-- One step of the generator that stretches a seed. -/
def stretchStep (state : UInt64) : UInt64 := state * 6364136223846793005 + 11634580027462260723

/-- The key word that a state of that generator gives. -/
def stretchWord (state : UInt64) : UInt32 :=
  rotateRight (((state >>> 18) ^^^ state) >>> 27).toUInt32 (state >>> 59).toUInt32

/-- The first `count` key words after a state of that generator. -/
def stretch (state : UInt64) : (count : Nat) → Vector UInt32 count
  | 0 => #v[]
  | count + 1 =>
    let next := stretchStep state
    ((stretch next count).insertIdx 0 (stretchWord next)).cast (by omega)

/-- The stream of a seed, from its beginning. -/
def ofSeed (seed : UInt64) : KeyStream := { key := stretch seed 8 }

/-- The block with the given number. -/
def block (key : Vector UInt32 8) (number : UInt64) : ChachaBlock :=
  ChachaBlock.permute
    #v[0x61707865, 0x3320646e, 0x79622d32, 0x6b206574,
      key[0], key[1], key[2], key[3], key[4], key[5], key[6], key[7],
      number.toUInt32, (number >>> 32).toUInt32, 0, 0]

/-- Read the next word. -/
def next (stream : KeyStream) : UInt32 × KeyStream :=
  match stream.ready with
  | word :: ready => (word, { stream with ready })
  | [] =>
    let words := block stream.key stream.counter
    (words[0], { stream with counter := stream.counter + 1, ready := words.toList.tail })

end KeyStream

end CollectionTree
