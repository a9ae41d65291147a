import CollectionTree.Document.JsonText
import CollectionTree.Simulation.Report

/-!
# The report on a deployment as a document
-/

namespace CollectionTree

/-- A natural number in a document. -/
def Json.ofNat (n : Nat) : Json := .whole n

/-- Counts in a document. -/
def Stats.document (s : Stats) : Json :=
  .record [("sent", .ofNat s.counters.sent), ("received", .ofNat s.counters.received),
    ("timed_out", .ofNat s.counters.timedOut), ("map_calls", .ofNat s.counters.mapped),
    ("emit_calls", .ofNat s.counters.emitted), ("reduce_calls", .ofNat s.counters.reduced),
    ("cycles", .ofNat s.counters.cycles), ("ram", .ofNat s.ram)]

/-- How a node ended, in a document. -/
def NodeReport.document (r : NodeReport) : Json :=
  .record [("addr", .ofNat r.address.toNat), ("hop", .ofNat r.hop.toNat),
    ("parent", (r.parent.map fun a ↦ .ofNat a.toNat).getD .null), ("throttled", .ofNat r.throttled),
    ("stats", r.stats.document)]

/-- The radio's counts in a document. -/
def MediumStats.document (s : MediumStats) : Json :=
  .record [("attempts", .ofNat s.attempts), ("lost", .ofNat s.lost),
    ("delivered", .ofNat s.delivered), ("timed_out", .ofNat s.timedOut)]

/-- A row of readings in a document. -/
def ReadingRow.document (r : ReadingRow) : Json :=
  .record [("window", .ofNat r.key.window.toNat), ("x", .ofNat r.key.x.toNat),
    ("y", .ofNat r.key.y.toNat), ("sensor", .ofNat r.key.sensor.toNat),
    ("count", .ofNat r.count.toNat), ("mean", .ofNumber (.ofFloat r.mean)),
    ("variance", .ofNumber (.ofFloat r.variance))]

/-- A sighting in a document. -/
def Detect.Detection.document (d : Detect.Detection) : Json :=
  .record [("second", .ofNat d.second.toNat), ("animal", .ofNat d.animal.toNat)]

/-- The outcome of a deployment as a document. -/
def Report.document (r : Report) : Json :=
  .record [("nodes", .array (r.nodes.map NodeReport.document)), ("medium", r.medium.document),
    ("readings", .array (r.readings.map ReadingRow.document)),
    ("detections", .array (r.detections.map Detect.Detection.document))]

end CollectionTree
