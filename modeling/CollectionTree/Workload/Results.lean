import CollectionTree.Workload.Collect
import CollectionTree.Workload.Detect

/-!
# What reaches the sink

The sink keeps one tally for each key of the collecting job and the set of all sightings, both in
ascending order.
-/

namespace CollectionTree

/-- What the sink knows: the tally of every key, and the sightings. -/
structure Results where
  readings : Table Collect.Key Collect.Tally := .empty
  detections : OrderedSet Detect.Detection := .empty
  deriving DecidableEq

namespace Results

/-- Take in a record of the collecting job; one that does not decode is dropped. -/
def recordReading (results : Results) (key value : Bytes) : Results :=
  match Collect.Key.ofBytes? key, Collect.Tally.ofBytes? value with
  | some key, some tally =>
    { results with readings := results.readings.alter key .empty (·.merge tally) }
  | _, _ => results

/-- Take in a record of the detecting job; one that does not decode is dropped. -/
def recordDetection (results : Results) (key : Bytes) : Results :=
  match Detect.Detection.ofBytes? key with
  | some detection => { results with detections := results.detections.add detection }
  | none => results

/-- Take in a record that reached the sink; records of other jobs are dropped. -/
def record (results : Results) (job : UInt8) (key value : Bytes) : Results :=
  if job = Collect.jobId then results.recordReading key value
  else if job = Detect.jobId then results.recordDetection key
  else results

/-- What the sink holds for a key of the collecting job. -/
def tallyOf (results : Results) (key : Collect.Key) : Collect.Tally :=
  (results.readings.get? key).getD .empty

end Results

end CollectionTree
