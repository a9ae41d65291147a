import CollectionTree.Network
import CollectionTree.Simulation.Settings
import CollectionTree.Workload.Results

/-!
# Simulated deployments

A deployment is a line of nodes: node 0 is the sink, and every other node takes readings and reports
sightings. Whoever runs it decides when discovery, sensing, flushing and the radio take their turns;
every turn runs to its end. Moments are counted in nanoseconds since the deployment was built.
-/

namespace CollectionTree

/-- Where the draws of the radio, of every node by its number, and of what is sensed come from. -/
structure Sources where
  medium : Source
  node : Nat → Source
  sensing : Source

/-- The sources of a seed: the radio and the sensing have the seed itself, node `i` has the seed
`i + 1` further on. -/
def Sources.ofSeed (seed : UInt64) : Sources where
  medium := .ofSeed seed
  node i := .ofSeed (seed + (i + 1).toUInt64)
  sensing := .ofSeed seed

/-- A deployment while it runs, with the moment at which each node flushes next and what reached the
sink. -/
structure Simulation where
  network : Network
  deadlines : Table Address Nat := .empty
  source : Source
  results : Results := {}
  detect : Bool
  detectRate : Chance

namespace Simulation

/-- The address of the sink. -/
def sinkAddress : Address := .ofNat 0

/-- The accumulators of node `i`: the collecting one and, if sightings are reported, the detecting
one. -/
def accumulators (settings : Settings) (i : Nat) : List Accumulator :=
  let collect : Accumulator :=
    { id := Collect.jobId
      job := Collect.job (i % 256).toUInt8 0 settings.windowSecs
      interval := settings.flushInterval }
  let detect : Accumulator :=
    { id := Detect.jobId, job := Detect.job, interval := settings.flushInterval }
  if settings.detect then [collect, detect] else [collect]

/-- Bind some accumulators to a node. -/
def bindAll (n : Node) (accs : List Accumulator) : Node :=
  accs.foldl (fun n acc ↦ (n.bind acc).toOption.getD n) n

/-- Open node `i` of the line and bind its accumulators. -/
def openNode (settings : Settings) (sources : Sources) (net : Network) (i : Nat) : Network :=
  let config := { settings.tree with seed := settings.seed.map (· + (i + 1).toUInt64) }
  (net.openNode (.ofNat i) (i == 0) config (sources.node i)).modifyNode (.ofNat i)
    (bindAll · (accumulators settings i))

/-- Set a node's deadline to `now` and its next delay, or let it have none. -/
def schedule (sim : Simulation) (now : Nat) (address : Address) : Simulation :=
  match sim.network.nodes.get? address with
  | none => sim
  | some n =>
    let (delay, n) := n.nextFlushDelay
    { sim with
      network := sim.network.modifyNode address fun _ ↦ n
      deadlines := match delay with
        | some delay => sim.deadlines.insert address (now + delay.toNanos)
        | none => sim.deadlines.erase address }

/-- Build the line. -/
def build (settings : Settings) (sources : Sources) : Simulation :=
  let empty : Network :=
    { medium := { source := sources.medium, loss := .ofNumber settings.loss }
      board := .line settings.nodes }
  let sim : Simulation :=
    { network := (List.range settings.nodes).foldl (openNode settings sources) empty
      source := sources.sensing
      detect := settings.detect
      detectRate := .ofNumber settings.detectRate }
  sim.network.nodes.keys.foldl (·.schedule 0) sim

/-- Take in what reached the sink. -/
def absorb (results : Results) (outputs : List (Address × Output)) : Results :=
  outputs.foldl (fun results output ↦ match output with
    | (_, .consume job key value) => results.record job key value
    | _ => results) results

/-- Go on with what came of a step of the network. -/
def continueWith {α : Type} (sim : Simulation) (r : Reaction α Network (Address × Output)) :
    Simulation :=
  { sim with network := r.state, results := absorb sim.results r.outputs }

/-- Let a node take a step, if there is one at this address. -/
def act? {α : Type} (sim : Simulation) (address : Address)
    (step : Radio → Node → Reaction α Node Output) : Option (α × Simulation) :=
  (sim.network.act? address step).map fun r ↦ (r.answer, sim.continueWith r)

/-- Flush a node. -/
def flushNode (sim : Simulation) (address : Address) (urgent : Bool) : Bool × Simulation :=
  (sim.act? address fun radio n ↦ n.flush radio urgent).getD (false, sim)

/-- Give a node a fact. -/
def sowNode (sim : Simulation) (address : Address) (job : UInt8) (elapsed : Nat)
    (key value : Bytes) : Simulation :=
  { sim with
    network := sim.network.modifyNode address fun n ↦ (n.sow job elapsed key value).2 }

/-- One round of discovery. -/
def discover (sim : Simulation) : Simulation := sim.continueWith sim.network.discover

/-- If sightings are reported, a node perhaps sees an animal, which it reports at once. The clock
says how many seconds have passed when the node gives a fact to a job. -/
def watchAt (sim : Simulation) (clock : Address → UInt8 → Nat) (address : Address) : Simulation :=
  if sim.detect then
    let (seen, source) := sim.detectRate.draw sim.source
    if seen then
      let (animal, source) := source.between .word32 1 5
      (({ sim with source }.sowNode address Detect.jobId (clock address Detect.jobId) []
        [animal.toUInt8]).flushNode address true).2
    else { sim with source }
  else sim

/-- A node takes a reading from 15 to 25, and then watches out for animals. -/
def senseAt (clock : Address → UInt8 → Nat) (sim : Simulation) (address : Address) : Simulation :=
  let (reading, source) := sim.source.between .word32 15 25
  ({ sim with source }.sowNode address Collect.jobId (clock address Collect.jobId)
    [Collect.temperature] [reading.toUInt8]).watchAt clock address

/-- The addresses of the nodes that are not the sink. -/
def sensors (sim : Simulation) : List Address :=
  (sim.network.nodes.entries.filter fun e ↦ !e.2.gradient.isSink).map Prod.fst

/-- Every node but the sink senses while a clock runs. -/
def senseBy (sim : Simulation) (clock : Address → UInt8 → Nat) : Simulation :=
  sim.sensors.foldl (senseAt clock) sim

/-- Every node but the sink senses, so many seconds after the deployment was built. -/
def sense (sim : Simulation) (elapsed : Nat) : Simulation := sim.senseBy fun _ _ ↦ elapsed

/-- Flush some nodes whose deadline is no later than `now` and give them new deadlines; the answer
is how many had a frame taken. -/
def flushDueAmong (now : Nat) (sim : Simulation) : List Address → Nat × Simulation
  | [] => (0, sim)
  | address :: rest =>
    match sim.deadlines.get? address with
    | none => flushDueAmong now sim rest
    | some deadline =>
      if deadline ≤ now then
        let (issued, flushed) := sim.flushNode address false
        let (count, last) := flushDueAmong now (flushed.schedule now address) rest
        (if issued then count + 1 else count, last)
      else flushDueAmong now sim rest

/-- Flush every node whose deadline is no later than `now`. -/
def flushDue (sim : Simulation) (now : Nat) : Nat × Simulation :=
  flushDueAmong now sim sim.network.nodes.keys

/-- A number of rounds that no radio outlives: a frame that is passed on at once moves one node
nearer to the sink each time, and there are no more than this many addresses. -/
def pumpRounds : Nat := 65536

/-- Settle the radio until it is quiet; the answer is how many events there were. -/
def pump (sim : Simulation) : Nat × Simulation :=
  let settled := sim.network.settle pumpRounds
  (settled.answer.flatten.length, sim.continueWith settled)

end Simulation

end CollectionTree
