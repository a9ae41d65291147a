import CollectionTree.Store.Record

/-!
# Aggregation jobs

A job says what a sensed fact becomes and how two values for one key are combined. Jobs may look at
the clock, which is given in whole seconds since it was started.
-/

namespace CollectionTree

/-- What a store does with what it is given: the records that a fact sensed after so many seconds
becomes, and the stored record after a further value for its key was folded in. -/
structure Job where
  map : (elapsed : Nat) → (key value : Bytes) → List Record
  reduce : (existing : Record) → (incoming : Bytes) → Record

namespace Job

/-- The job as seen by a clock that is started `seconds` later. -/
def startedBefore (job : Job) (seconds : Nat) : Job :=
  { job with map := fun elapsed ↦ job.map (seconds + elapsed) }

/-- Fold a candidate into the stored record about its key, which becomes urgent if the candidate is.
-/
def fold (job : Job) (candidate existing : Record) : Record :=
  let merged := job.reduce existing candidate.value
  if candidate.isUrgent then merged.urgent else merged

end Job

end CollectionTree
