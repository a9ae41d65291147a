import CollectionTree.Duration
import CollectionTree.Random.Source

/-!
# Even draws from a range

A draw of some width is spread over a range by multiplication: the high half of the product is the
number drawn, and the draw is taken only if the low half lies in a zone that makes all numbers
equally likely. A refused draw is followed by another. A list that is played back ends in zeros,
which are never refused; for a key stream the number of draws is bounded at one that no stream is
known to reach, and the range's least number stands for what lies beyond.
-/

namespace CollectionTree.Source

/-- A number of draws that are not all refused: zeros follow a list's end, and every draw of a
stream is more likely to be taken than not. -/
def patience : Source → Nat
  | keyed _ => 4096
  | listed rest _ => rest.length + 1

/-- The largest low half of a product that is taken, for a range of `count` numbers. -/
def zone (width : Width) (count : Nat) : Nat :=
  width.size - 1 - (width.size - count) % count

/-- Draw from `0` to `count - 1`, with at most `tries` draws. -/
def belowWithin (width : Width) (count : Nat) : (tries : Nat) → Source → Nat × Source
  | 0, source => (0, source)
  | tries + 1, source =>
    let (v, source) := source.draw width
    if v * count % width.size ≤ zone width count then (v * count / width.size, source)
    else belowWithin width count tries source

/-- Draw from `0` to `count - 1`, all equally likely. -/
def below (width : Width) (count : Nat) (source : Source) : Nat × Source :=
  belowWithin width count source.patience source

/-- Draw from `low` to `high`, both included. -/
def between (width : Width) (low high : Nat) (source : Source) : Nat × Source :=
  let (n, source) := source.below width (high - low + 1)
  (low + n, source)

/-- Draw whole seconds and nanoseconds apart until together they are no longer than `most`. -/
def spanWithin (most : Duration) : (tries : Nat) → Source → Duration × Source
  | 0, source => (.zero, source)
  | tries + 1, source =>
    let (secs, source) := source.below .word64 (most.secs + 1)
    let (nanos, source) := source.below .word32 nanosPerSecond
    if secs = most.secs ∧ nanos > most.nanos then spanWithin most tries source
    else (⟨secs, nanos⟩, source)

/-- Draw a span from none up to `most`. Spans under a second are drawn as a 32-bit number of
nanoseconds, those whose nanoseconds are a 64-bit number as such, and longer ones in two parts. -/
def span (most : Duration) (source : Source) : Duration × Source :=
  if most.secs = 0 then
    let (nanos, source) := source.below .word32 (most.nanos + 1)
    (⟨0, nanos⟩, source)
  else if most.toNanos < Width.word64.size then
    let (nanos, source) := source.below .word64 (most.toNanos + 1)
    (.ofNanos nanos, source)
  else spanWithin most source.patience source

/-- What is drawn is in the range. -/
theorem belowWithin_lt {width : Width} {count : Nat} (h : 0 < count) (tries : Nat)
    (source : Source) : (belowWithin width count tries source).1 < count := by
  induction tries generalizing source with
  | zero => exact h
  | succ tries ih =>
    simp only [belowWithin]
    split
    · rw [Nat.div_lt_iff_lt_mul (by cases width <;> decide), Nat.mul_comm]
      exact Nat.mul_lt_mul_of_pos_left (draw_lt width source) h
    · exact ih _

/-- A number below a positive count is drawn. -/
theorem below_lt {width : Width} {count : Nat} (h : 0 < count) (source : Source) :
    (source.below width count).1 < count := belowWithin_lt h _ _

end CollectionTree.Source
