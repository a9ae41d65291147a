import CollectionTree.Random.Chance

/-!
# Backing off under congestion

An urgent flush is skipped with a chance that grows with the number of frames given up beyond those
confirmed, up to ten of them. The chance is a whole number of elevenths below one, so an urgent
flush is never sure to be skipped.
-/

namespace CollectionTree

/-- The largest excess of given-up frames that makes a difference. -/
def maxOvershoot : Nat := 10

/-- How many more frames were given up than confirmed, up to `maxOvershoot`. -/
def overshoot (timedOut sent : Nat) : Nat := min (timedOut - sent) maxOvershoot

/-- The probability of skipping an urgent flush at some overshoot: so many elevenths. -/
def skipProbability (overshoot : Nat) : Binary64 :=
  .ofRatio false (min overshoot maxOvershoot) (maxOvershoot + 1)

/-- The chance of skipping an urgent flush at some overshoot. -/
def skipChance (overshoot : Nat) : Chance := .ofNumber (skipProbability overshoot)

/-- How often urgent flushes were skipped. -/
structure Gate where
  skipped : Nat := 0
  deriving DecidableEq, Repr

/-- Draw whether to skip an urgent flush. Without an overshoot nothing is drawn. -/
def Gate.shouldSkip (gate : Gate) (timedOut sent : Nat) (source : Source) : Bool × Gate × Source :=
  match overshoot timedOut sent with
  | 0 => (false, gate, source)
  | excess + 1 =>
    let (skip, source) := (skipChance (excess + 1)).draw source
    (skip, if skip then ⟨gate.skipped + 1⟩ else gate, source)

end CollectionTree
