import CollectionTree.Simulation.Basic

/-!
# Reports on a deployment

While a deployment runs it reports one line a node and one for the radio; when it ends, the sink is
drained, every node is closed, and what the sink knows is reported with every node's counts.
-/

namespace CollectionTree

/-- How a node ended. What it throttled are urgent flushes. -/
structure NodeReport where
  address : Address
  hop : UInt8
  parent : Option Address
  throttled : Nat
  stats : Stats
  deriving DecidableEq, Repr

/-- A row of the sink's readings: how many there were for a key, their mean and their variance. -/
structure ReadingRow where
  key : Collect.Key
  count : UInt16
  mean : Float
  variance : Float

/-- The outcome of a deployment, with readings and sightings in ascending order. -/
structure Report where
  nodes : List NodeReport
  medium : MediumStats
  readings : List ReadingRow
  detections : List Detect.Detection

/-- How a node stands now. -/
def Node.report (n : Node) : NodeReport :=
  ⟨n.address, n.gradient.hop, n.gradient.parent, n.gate.skipped, n.stats⟩

/-- The line in which a node reports while it runs. -/
def NodeReport.line (r : NodeReport) : String :=
  s!"node={r.address.text} hop={r.hop.toNat} " ++ r.stats.line

/-- The line in which the radio's counts are reported. -/
def MediumStats.line (s : MediumStats) : String :=
  s!"medium attempts={s.attempts} lost={s.lost} delivered={s.delivered} timedout={s.timedOut}"

namespace Simulation

/-- The lines of a report while the deployment runs. -/
def statsLines (sim : Simulation) : List String :=
  sim.network.nodes.values.map (·.report.line) ++ [sim.network.medium.stats.line]

/-- Drain the sink. -/
def drain (sim : Simulation) : Simulation := (sim.flushNode sinkAddress false).2

/-- Close every node. -/
def closeAll (sim : Simulation) : Simulation :=
  sim.network.nodes.keys.foldl
    (fun sim address ↦ ((sim.act? address fun _ n ↦ n.close).map Prod.snd).getD sim) sim

/-- End the deployment: drain the sink, note every node's state, close the nodes, and report. -/
def finish (sim : Simulation) : Report :=
  let drained := sim.drain
  let closed := drained.closeAll
  { nodes := drained.network.nodes.values.map Node.report
    medium := closed.network.medium.stats
    readings := closed.results.readings.entries.map fun (key, tally) ↦
      ⟨key, tally.count, tally.mean, tally.variance⟩
    detections := closed.results.detections.keys }

end Simulation

end CollectionTree
