import CollectionTree.Number.Binary64
import CollectionTree.Random.Source

/-!
# Chances

A chance is kept as the number of 64-bit draws, out of all of them, for which the event happens. An
event that always happens needs no draw; every other takes exactly one, also one that never happens.
-/

namespace CollectionTree

/-- The probability of an event: the least of the 2⁶⁴ draws that does not bring it about. -/
structure Chance where
  threshold : Nat
  deriving DecidableEq, Repr

namespace Chance

/-- The event never happens. -/
def never : Chance := ⟨0⟩

/-- The event always happens. -/
def always : Chance := ⟨Width.word64.size⟩

/-- The chance that a number states: one and more is always, and a negative number or one that is
not finite is never. -/
def ofNumber (p : Binary64) : Chance :=
  if !p.isFinite || p.isNegative then never
  else ⟨min Width.word64.size (p.scaledFloor 64)⟩

/-- Draw whether the event happens. -/
def draw (chance : Chance) (source : Source) : Bool × Source :=
  if chance.threshold ≥ Width.word64.size then (true, source)
  else
    let (v, source) := source.draw .word64
    (v < chance.threshold, source)

/-- What never happens does not come up. -/
@[simp] theorem draw_never (source : Source) : (never.draw source).1 = false := by
  simp [draw, never, Width.size]

/-- What always happens comes up, and takes no draw. -/
@[simp] theorem draw_always (source : Source) : always.draw source = (true, source) := by
  simp [draw, always]

end Chance

end CollectionTree
