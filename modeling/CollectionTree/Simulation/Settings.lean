import CollectionTree.Duration
import CollectionTree.Node.Config
import CollectionTree.Number.Shortest

/-!
# Settings of a simulation

The settings of a simulated deployment, their defaults, and the check that refuses settings with
which no simulation can run. Of several faults the check names the first in its own order.
-/

namespace CollectionTree

/-- How a deployment is simulated. The sink is one of the nodes; loss and rate are probabilities;
the periods are in milliseconds, the one of flushes being that which each job asks for, and the
window of readings is in seconds. Every node's settings are made from `tree`. -/
structure Settings where
  nodes : Nat := 5
  loss : Binary64 := .ofDecimal false 1 (-1)
  seed : Option UInt64 := none
  detect : Bool := true
  detectRate : Binary64 := .ofDecimal false 5 (-2)
  beaconMillis : Nat := 1000
  sowMillis : Nat := 1000
  flushMillis : Nat := 10000
  pumpMillis : Nat := 20
  statsMillis : Nat := 15000
  windowSecs : Nat := 600
  tree : NodeConfig := {}
  deriving DecidableEq, Repr

/-- A period that must not be zero. -/
inductive Period where
  | beacon
  | sow
  | pump
  | stats
  deriving DecidableEq, Repr

/-- The name of a period's setting. -/
def Period.name : Period → String
  | beacon => "beacon_interval_ms"
  | sow => "sow_interval_ms"
  | pump => "pump_interval_ms"
  | stats => "stats_interval_ms"

/-- Why no simulation can run with some settings. -/
inductive SettingsError where
  | tooFewNodes (nodes : Nat)
  | lossOutOfRange (loss : Binary64)
  | detectRateOutOfRange (rate : Binary64)
  | payloadTooSmall (maxPayload : Nat)
  | zeroPeriod (period : Period)
  deriving DecidableEq, Repr

/-- The wording of an error. -/
def SettingsError.message : SettingsError → String
  | tooFewNodes nodes => s!"need at least 2 nodes (sink and one sensor), got {nodes}"
  | lossOutOfRange loss => "loss must be within 0..=1, got " ++ loss.text
  | detectRateOutOfRange rate => "detect_rate must be within 0..=1, got " ++ rate.text
  | payloadTooSmall maxPayload => s!"max_payload {maxPayload} cannot carry a single record"
  | zeroPeriod period => period.name ++ " must be positive"

namespace Settings

/-- The milliseconds of a period. -/
def millisOf (s : Settings) : Period → Nat
  | .beacon => s.beaconMillis
  | .sow => s.sowMillis
  | .pump => s.pumpMillis
  | .stats => s.statsMillis

/-- The first fault that keeps a simulation from running, if there is one. -/
def fault? (s : Settings) : Option SettingsError :=
  if s.nodes < 2 then some (.tooFewNodes s.nodes)
  else if !s.loss.inUnit then some (.lossOutOfRange s.loss)
  else if !s.detectRate.inUnit then some (.detectRateOutOfRange s.detectRate)
  else if s.tree.maxPayload < Wire.minFrameLength then some (.payloadTooSmall s.tree.maxPayload)
  else
    ([.beacon, .sow, .pump, .stats].find? fun period ↦ s.millisOf period == 0).map .zeroPeriod

/-- Refuse settings with a fault. -/
def validate (s : Settings) : Except SettingsError Unit :=
  match s.fault? with
  | some fault => .error fault
  | none => .ok ()

/-- The time between rounds of discovery. -/
def beaconInterval (s : Settings) : Duration := .ofMillis s.beaconMillis

/-- The time between readings. -/
def sowInterval (s : Settings) : Duration := .ofMillis s.sowMillis

/-- The time between flushes that each job asks for. -/
def flushInterval (s : Settings) : Duration := .ofMillis s.flushMillis

/-- The time between settlings of the radio. -/
def pumpInterval (s : Settings) : Duration := .ofMillis s.pumpMillis

/-- The time between reports. -/
def statsInterval (s : Settings) : Duration := .ofMillis s.statsMillis

/-- The length of a window of readings. -/
def window (s : Settings) : Duration := .ofSecs s.windowSecs

end Settings

end CollectionTree
