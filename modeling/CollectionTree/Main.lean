import CollectionTree.CommandLine.Usage
import CollectionTree.Log.Line
import CollectionTree.Simulation.ReportDocument

/-!
# The program

Reads the settings, runs a deployment by the clock, and prints what the sink knows at the end. All
that is decided is decided elsewhere; here the clock is read, files are read and lines are printed.
-/

namespace CollectionTree

/-- Where log lines go, the greatest rank of a level that is logged, and the moment, in nanoseconds,
from which time is counted. -/
structure Console where
  format : Log.Format
  threshold : Nat
  start : Nat

/-- The nanoseconds since the start. -/
def Console.now (console : Console) : IO Nat := return (← IO.monoNanosNow) - console.start

/-- Log an event. -/
def Console.log (console : Console) (event : Log.Event) : IO Unit := do
  if event.level.rank ≤ console.threshold then
    let millis := (← console.now) / 1000000
    let time := s!"{millis / 1000}." ++ (toString (1000 + millis % 1000)).drop 1
    IO.println (console.format.line time event)

/-- Log that something worth knowing happened. -/
def Console.info (console : Console) (message : String) : IO Unit :=
  console.log { level := .info, message }

/-- Log the counts of every node and of the radio. -/
def Console.stats (console : Console) (sim : Simulation) : IO Unit :=
  sim.statsLines.forM fun message ↦
    console.log { level := .info, component := some "stats", message }

/-- The moments at which the turns of a deployment come next. Flushing is a turn with the pumping of
the radio. -/
structure Clock where
  discover : Nat := 0
  sense : Nat := 0
  pump : Nat := 0
  report : Nat := 0

/-- Take the turns that have come at some moment. -/
def takeTurns (console : Console) (settings : Settings) (now : Nat) (clock : Clock)
    (sim : Simulation) : IO (Clock × Simulation) := do
  let mut clock := clock
  let mut sim := sim
  if clock.discover ≤ now then
    sim := sim.discover
    clock := { clock with discover := clock.discover + settings.beaconInterval.toNanos }
  if clock.sense ≤ now then
    sim := sim.sense (now / nanosPerSecond)
    clock := { clock with sense := clock.sense + settings.sowInterval.toNanos }
  if clock.pump ≤ now then
    sim := ((sim.flushDue now).2.pump).2
    clock := { clock with pump := clock.pump + settings.pumpInterval.toNanos }
  if clock.report ≤ now then
    console.stats sim
    clock := { clock with report := clock.report + settings.statsInterval.toNanos }
  return (clock, sim)

/-- Run a deployment until its time is over, if it has an end. -/
partial def runClock (console : Console) (settings : Settings) (ending : Option Nat) (clock : Clock)
    (sim : Simulation) : IO Simulation := do
  let now ← console.now
  if ending.any (· ≤ now) then return sim
  let (clock, sim) ← takeTurns console settings now clock sim
  let next := min (min clock.discover clock.sense) (min clock.pump clock.report)
  let next := (ending.map (min next)).getD next
  IO.sleep ((next - (← console.now) + 999999) / 1000000).toUInt32
  runClock console settings ending clock sim

/-- A seed from the system's own randomness. -/
def freshSeed : IO UInt64 := do
  let bytes ← IO.getRandomBytes 8
  return bytes.toList.foldl (fun seed byte ↦ seed * 256 + byte.toUInt64) 0

/-- Where the draws of a deployment come from. -/
def sourcesOf (settings : Settings) : IO Sources := do
  match settings.seed with
  | some seed => return .ofSeed seed
  | none => return .ofSeed (← freshSeed)

/-- The settings of the file, the environment and the arguments. -/
def loadSettings (args : Arguments) : IO Settings := do
  let file ← try pure (some (← IO.FS.readBinFile args.path).toList) catch _ => pure none
  let names := ["MESH_AGG_NODES", "MESH_AGG_LOSS", "MESH_AGG_SEED"]
  let values ← names.mapM fun name ↦ IO.getEnv name
  return args.apply (.load file fun name ↦ ((names.zip values).lookup name).join)

/-- Run the program with arguments that were taken. -/
def run (args : Arguments) (threshold : Nat) : IO UInt32 := do
  let format := Log.Format.forTerminal "mesh-agg" (← IO.getEnv "TERM")
  let console : Console := { format, threshold, start := ← IO.monoNanosNow }
  console.info ("Starting " ++ versionText)
  let settings ← loadSettings args
  if let some fault := settings.fault? then
    let message := "Invalid configuration: " ++ fault.message
    console.log { level := .error, component := some "config", message }
    IO.eprintln ("Error: " ++ fault.message)
    return 1
  let sim := Simulation.build settings (← sourcesOf settings)
  let sim ← runClock console settings (args.duration.map Duration.toNanos) {} sim
  console.info "Simulation duration elapsed"
  console.stats sim
  IO.println sim.finish.document.pretty
  console.info "mesh-agg shutdown complete"
  return 0

end CollectionTree

open CollectionTree in
/-- Run the program. -/
def main (args : List String) : IO UInt32 := do
  match Arguments.parse args with
  | .error e =>
    if e.exitCode = 0 then IO.println e.message else IO.eprintln e.message
    return e.exitCode.toUInt32
  | .ok args =>
    match Log.thresholdOf? args.logLevel with
    | some threshold => run args threshold
    | none =>
      IO.eprintln "Error: invalid filter directive"
      return 1
