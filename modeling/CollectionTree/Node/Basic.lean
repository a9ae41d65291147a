import CollectionTree.Node.Backoff
import CollectionTree.Node.Config
import CollectionTree.Node.Schedule
import CollectionTree.Radio.Signal
import CollectionTree.Store.Accumulator
import CollectionTree.Topology.Board
import CollectionTree.Topology.Gradient
import CollectionTree.Wire.Frame

/-!
# Nodes

A node owns accumulators that share its ledger and counters, follows the hop-count gradient to a
parent, and sends what its accumulators hold to that parent, one frame at a time. Frames from other
nodes are folded into its own accumulators. The sink consumes what it holds instead of sending it.

A node never acts on its surroundings: each step takes what the node can see of its radio and
answers with a `Reaction`, whose outputs say what the node wants done.
-/

namespace CollectionTree

/-- What a node wants done. -/
inductive Output where
  /-- Start to announce a hop count. -/
  | start (hop : UInt8)
  /-- Announce another hop count. -/
  | announce (hop : UInt8)
  /-- Stop announcing and close the radio. -/
  | stop
  /-- Send a frame, which the radio takes or refuses. -/
  | offer (frame : Outgoing) (accepted : Bool)
  /-- Use a record that reached the sink. -/
  | consume (job : UInt8) (key value : Bytes)
  deriving DecidableEq, Repr

/-- What comes of a step: an answer, the state afterwards, and what is wanted done, in order. -/
structure Reaction (α σ ω : Type) where
  answer : α
  state : σ
  outputs : List ω := []

/-- Why a node refuses a request. -/
inductive NodeError where
  | duplicateAccumulator (id : UInt8)
  | unknownAccumulator (id : UInt8)
  | closed
  deriving DecidableEq, Repr

/-- The wording of an error. -/
def NodeError.message : NodeError → String
  | duplicateAccumulator id => s!"accumulator {id.toNat} already bound"
  | unknownAccumulator id => s!"accumulator {id.toNat} not bound"
  | closed => "tree closed"

/-- One node of the collection tree, with its accumulators in the order in which they were bound.
All its records are charged to one ledger. -/
structure Node where
  address : Address
  gradient : Gradient
  accumulators : List Accumulator := []
  ledger : Ledger
  counters : Counters := {}
  config : NodeConfig
  gate : Gate := {}
  source : Source
  closed : Bool := false

namespace Node

/-- Run an operation on each of some accumulators in order, all with one ledger and counters. -/
def runEach (operation : Store → Store) (ledger : Ledger) (counters : Counters) :
    List Accumulator → List Accumulator × Ledger × Counters
  | [] => ([], ledger, counters)
  | acc :: rest =>
    let store := operation { toAccumulator := acc, ledger, counters }
    let (others, ledger, counters) := runEach operation store.ledger store.counters rest
    (store.toAccumulator :: others, ledger, counters)

/-- Run an operation on the first of some accumulators that has this id, if there is one. -/
def runFirst? {α : Type} (id : UInt8) (operation : Store → α × Store) (ledger : Ledger)
    (counters : Counters) : List Accumulator → Option (α × List Accumulator × Ledger × Counters)
  | [] => none
  | acc :: rest =>
    if acc.id = id then
      let (answer, store) := operation { toAccumulator := acc, ledger, counters }
      some (answer, store.toAccumulator :: rest, store.ledger, store.counters)
    else
      (runFirst? id operation ledger counters rest).map fun (answer, others, books) ↦
        (answer, acc :: others, books)

/-- Run an operation on every accumulator in binding order. -/
def onEach (operation : Store → Store) (n : Node) : Node :=
  let (accumulators, ledger, counters) := runEach operation n.ledger n.counters n.accumulators
  { n with accumulators, ledger, counters }

/-- Run an operation on the accumulator with this id, if it is bound. -/
def onStore? {α : Type} (id : UInt8) (operation : Store → α × Store) (n : Node) :
    Option (α × Node) :=
  (runFirst? id operation n.ledger n.counters n.accumulators).map
    fun (answer, accumulators, ledger, counters) ↦
      (answer, { n with accumulators, ledger, counters })

/-- Start a node: the sink is routed at once, every other node waits to hear a neighbour. -/
def opened (address : Address) (isSink : Bool) (config : NodeConfig) (source : Source) :
    Reaction Unit Node Output :=
  let gradient := Gradient.initial isSink
  { answer := ()
    state :=
      { address, gradient, config, source, ledger := { limit := config.ramLimit } }
    outputs := [.start gradient.advertised] }

/-- The bound accumulator with this id. -/
def accumulator? (n : Node) (id : UInt8) : Option Accumulator := n.accumulators.find? (·.id == id)

/-- Bind an accumulator, whose records are charged to the node from now on. -/
def bind (n : Node) (acc : Accumulator) : Except NodeError Node :=
  if n.closed then .error .closed
  else if (n.accumulator? acc.id).isSome then .error (.duplicateAccumulator acc.id)
  else .ok { n with
    accumulators := n.accumulators ++ [acc]
    ledger := n.ledger.forceCharge acc.footprint }

/-- Hand back the accumulator with this id, with its records and without its charge. -/
def unbind (n : Node) (id : UInt8) : Option (Accumulator × Node) :=
  (n.accumulator? id).map fun acc ↦
    (acc, { n with
      accumulators := n.accumulators.eraseP (·.id == id)
      ledger := n.ledger.refund acc.footprint })

/-- Give the accumulator with this id a fact sensed after so many seconds; the answer is how many
records were taken in. -/
def sow (n : Node) (id : UInt8) (elapsed : Nat) (key value : Bytes) : Except NodeError Nat × Node :=
  match n.onStore? id (·.sow elapsed key value) with
  | some (stored, n) => (.ok stored, n)
  | none => (.error (.unknownAccumulator id), n)

/-- Make every record ready that is on its way in a frame. -/
def releasePending (n : Node) : Node :=
  { n with accumulators := n.accumulators.map Accumulator.releasePending }

/-- Remove every record that bears one of these marks. -/
def cleanup (n : Node) (flags : Flags) : Node := n.onEach fun store ↦ (store.cleanup flags).2

/-- Let each of some accumulators in order add one segment of its ready records to a frame. -/
def gatherAll (urgentOnly : Bool) :
    Wire.FrameBuilder → List Accumulator → Wire.FrameBuilder × List Accumulator
  | builder, [] => (builder, [])
  | builder, acc :: rest =>
    let (gathered, builder) := builder.appendWith fun room ↦ (acc.gather room urgentOnly).swap
    let (builder, others) := gatherAll urgentOnly builder rest
    (builder, gathered.getD acc :: others)

/-- Build a frame of the ready records, which are then on their way in it. -/
def buildFrame (n : Node) (urgent : Bool) : Wire.FrameBuilder × Node :=
  let start : Wire.FrameBuilder := { urgency := .ofBool urgent, maxPayload := n.config.maxPayload }
  let (builder, accumulators) := gatherAll urgent start n.accumulators
  (builder, { n with accumulators })

/-- Send the ready records to the parent. Where the radio refuses the frame, they stay ready; where
there are none, nothing is sent. The answer is whether a frame was taken. -/
def send (n : Node) (radio : Radio) (parent : Address) (urgent : Bool) :
    Reaction Bool Node Output :=
  let (builder, gathered) := n.buildFrame urgent
  if builder.isWorthSending then
    let frame : Outgoing := ⟨parent, builder.finish, n.config.maxRetries⟩
    if radio.accepts frame then ⟨true, gathered, [.offer frame true]⟩
    else ⟨false, gathered.releasePending, [.offer frame false]⟩
  else ⟨false, gathered, []⟩

/-- The records of some accumulators, as handed to whoever uses them. -/
def consumption (accumulators : List Accumulator) : List Output :=
  accumulators.flatMap fun acc ↦ acc.records.map fun r ↦ .consume acc.id r.key r.value

/-- Draw whether an urgent flush is skipped. -/
def backOff (n : Node) : Bool × Node :=
  let (skip, gate, source) := n.gate.shouldSkip n.counters.timedOut n.counters.sent n.source
  (skip, { n with gate, source })

/-- Move the ready records one hop toward the sink, or at the sink use them all up. The answer is
whether a frame was taken by the radio; where it was not, no record is lost. An urgent flush takes
urgent records only, and may be skipped under congestion. -/
def flush (n : Node) (radio : Radio) (urgent : Bool) : Reaction Bool Node Output :=
  if n.closed then ⟨false, n, []⟩
  else if n.gradient.isSink then
    ⟨false, n.cleanup .all, consumption n.accumulators⟩
  else
    match n.gradient.parent with
    | none => ⟨false, n, []⟩
    | some parent =>
      if radio.busy then ⟨false, n, []⟩
      else if urgent then
        let (skip, n) := n.backOff
        if skip then ⟨false, n, []⟩ else n.send radio parent urgent
      else n.send radio parent urgent

/-- Fold a received frame into the accumulators that it has a segment for. -/
def receive (n : Node) (payload : Bytes) : Node :=
  match Wire.Frame.parse payload with
  | .error _ => n
  | .ok frame =>
    n.onEach fun store ↦
      let segment := frame.segmentFor store.id
      if segment.isEmpty then store else (store.feed segment frame.isUrgent).2

/-- React to the radio: confirmed records are removed, given-up ones are ready again, and received
ones are taken in and, if urgent, passed on at once. -/
def onSignal (n : Node) (radio : Radio) (signal : Signal) : Reaction Unit Node Output :=
  if n.closed then ⟨(), n, []⟩
  else
    match signal with
    | .sent _ _ =>
      ⟨(), { n with counters := n.counters.addSent }.cleanup .pendingOnly, []⟩
    | .timedOut _ _ =>
      ⟨(), { n with counters := n.counters.addTimedOut }.releasePending, []⟩
    | .received _ payload =>
      let received := { n with counters := n.counters.addReceived }.receive payload
      let flushed := received.flush radio true
      ⟨(), flushed.state, flushed.outputs⟩

/-- React to discovery: a better neighbour becomes the parent, and the new hop count is announced.
-/
def onBeacon (n : Node) (beacon : Beacon) : Reaction Unit Node Output :=
  if n.closed then ⟨(), n, []⟩
  else
    match beacon with
    | .heard neighbor hop =>
      let (adopted, gradient) := n.gradient.consider neighbor hop
      ⟨(), { n with gradient }, if adopted then [.announce gradient.advertised] else []⟩
    | .tick => ⟨(), { n with counters := n.counters.addCycle }, []⟩

/-- The time to the next flush by the clock; none at the sink or with nothing bound. -/
def nextFlushDelay (n : Node) : Option Duration × Node :=
  let (delay, source) :=
    (FlushSchedule.ofRole n.gradient.isSink).nextDelay (n.accumulators.map (·.interval)) n.source
  (delay, { n with source })

/-- Drop every record and stop; a node that was closed stays as it is. -/
def close (n : Node) : Reaction Unit Node Output :=
  if n.closed then ⟨(), n, []⟩
  else ⟨(), { n.cleanup .all with closed := true }, [.stop]⟩

/-- How many records bear one of these marks. -/
def size (n : Node) (flags : Flags) : Nat :=
  n.accumulators.foldr (fun acc count ↦ acc.size flags + count) 0

/-- What the node reports. -/
def stats (n : Node) : Stats := ⟨n.counters, n.ledger.allocated⟩

end Node

end CollectionTree
