import CollectionTree.Random.KeyStream

/-!
# Sources of draws

A source gives 32-bit and 64-bit words, one after another: from a key stream, or from a list that is
played back and followed by zeros. Whatever is drawn at random is drawn from a source, and what
holds for every source holds for every course of events.
-/

namespace CollectionTree

/-- Where draws come from. -/
inductive Source where
  /-- A key stream. -/
  | keyed (stream : KeyStream)
  /-- A list played back, of which `used` draws were taken before the rest. -/
  | listed (rest : List UInt64) (used : Nat)
  deriving DecidableEq, Repr

/-- How many bits a draw has. -/
inductive Width where
  | word32
  | word64
  deriving DecidableEq, Repr

/-- The number of different draws of a width. -/
def Width.size : Width → Nat
  | word32 => UInt32.size
  | word64 => UInt64.size

namespace Source

/-- The key stream of a seed. -/
def ofSeed (seed : UInt64) : Source := keyed (.ofSeed seed)

/-- A list of draws to be played back. -/
def ofList (draws : List UInt64) : Source := listed draws 0

/-- How many draws were taken from a list that is played back. -/
def used : Source → Nat
  | keyed _ => 0
  | listed _ used => used

/-- Draw a word of 64 bits: two words of a stream, the low half first, or the next of a list. -/
def next64 : Source → UInt64 × Source
  | keyed stream =>
    let (low, stream) := stream.next
    let (high, stream) := stream.next
    (low.toUInt64 ||| high.toUInt64 <<< 32, keyed stream)
  | listed [] used => (0, listed [] (used + 1))
  | listed (draw :: rest) used => (draw, listed rest (used + 1))

/-- Draw a word of 32 bits: one word of a stream, or the low half of the next of a list. -/
def next32 : Source → UInt32 × Source
  | keyed stream =>
    let (word, stream) := stream.next
    (word, keyed stream)
  | listed rest used =>
    let (draw, source) := (listed rest used).next64
    (draw.toUInt32, source)

/-- Draw a word of the given width as a number. -/
def draw (width : Width) (source : Source) : Nat × Source :=
  match width with
  | .word32 =>
    let (word, source) := source.next32
    (word.toNat, source)
  | .word64 =>
    let (word, source) := source.next64
    (word.toNat, source)

/-- A draw is below the size of its width. -/
theorem draw_lt (width : Width) (source : Source) : (source.draw width).1 < width.size := by
  cases width with
  | word32 => exact source.next32.1.toNat_lt
  | word64 => exact source.next64.1.toNat_lt

end Source

end CollectionTree
