import CollectionTree.Random.Uniform

/-!
# When to flush next

A node flushes after the shortest interval that any of its accumulators asks for, plus up to a
quarter of it drawn at random, so that neighbours do not flush in step. The sink never flushes by
the clock.
-/

namespace CollectionTree

/-- Whether a node flushes by the clock. -/
structure FlushSchedule where
  enabled : Bool
  deriving DecidableEq, Repr

namespace FlushSchedule

/-- The schedule of the sink or of another node. -/
def ofRole (isSink : Bool) : FlushSchedule := ⟨!isSink⟩

/-- The shortest interval, if the node flushes by the clock and there is an interval. -/
def base (schedule : FlushSchedule) (intervals : List Duration) : Option Duration :=
  if schedule.enabled then Duration.shortest intervals else none

/-- The time to the next flush. Nothing is drawn where a quarter of the interval is no time at all.
-/
def nextDelay (schedule : FlushSchedule) (intervals : List Duration) (source : Source) :
    Option Duration × Source :=
  match schedule.base intervals with
  | none => (none, source)
  | some base =>
    if base.quarter.isZero then (some base, source)
    else
      let (jitter, source) := source.span base.quarter
      (some (base.add jitter), source)

end FlushSchedule

end CollectionTree
