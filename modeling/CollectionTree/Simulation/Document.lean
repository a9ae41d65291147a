import CollectionTree.Bytes
import CollectionTree.Document.Yaml.Value
import CollectionTree.Node.Document
import CollectionTree.Simulation.Settings

/-!
# Where the settings of a simulation come from

Settings are read from a YAML file, whose settings all count for nothing if one of them is wrong.
Some can be set in the environment too, which comes before the file; a variable that cannot be read
there is passed over.
-/

namespace CollectionTree.Settings

open Document

section

variable {V : Type} [Document V]

/-- A field that holds a time in milliseconds, or another number that may be as large as a word. -/
def wordField (name : String) (set : Nat → Settings → Settings) : Field V Settings :=
  ⟨name, fun v settings ↦ return set (← wholeUpTo? maxWord v) settings⟩

/-- The fields of a simulation's settings. -/
def fields : List (Field V Settings) :=
  [⟨"nodes", fun v s ↦ return { s with nodes := ← wholeUpTo? 65535 v }⟩,
    ⟨"loss", fun v s ↦ return { s with loss := ← number? v }⟩,
    ⟨"seed", fun v s ↦
      return { s with seed := (← optional? (wholeUpTo? maxWord) v).map (·.toUInt64) }⟩,
    ⟨"detect", fun v s ↦ return { s with detect := ← truth? v }⟩,
    ⟨"detect_rate", fun v s ↦ return { s with detectRate := ← number? v }⟩,
    wordField "beacon_interval_ms" fun n s ↦ { s with beaconMillis := n },
    wordField "sow_interval_ms" fun n s ↦ { s with sowMillis := n },
    wordField "flush_interval_ms" fun n s ↦ { s with flushMillis := n },
    wordField "pump_interval_ms" fun n s ↦ { s with pumpMillis := n },
    wordField "stats_interval_ms" fun n s ↦ { s with statsMillis := n },
    wordField "window_secs" fun n s ↦ { s with windowSecs := n },
    ⟨"tree", fun v s ↦ return { s with tree := ← NodeConfig.read? v }⟩]

/-- Read settings; what is not there has its default. -/
def read? (v : V) : Option Settings := readRecord? fields {} v

end

/-- The settings that a file holds. -/
def ofFile? (content : Bytes) : Option Settings := do
  let text ← String.fromUTF8? ⟨content.toArray⟩
  let document ← Yaml.Value.parse? text
  read? document

/-- Set what the environment sets. -/
def override (lookup : String → Option String) (s : Settings) : Settings :=
  let nodes := lookup "MESH_AGG_NODES" >>= fun v ↦ readUnsigned? 65535 v.toList
  let loss := lookup "MESH_AGG_LOSS" >>= fun v ↦ Binary64.read? v.toList
  let seed := lookup "MESH_AGG_SEED" >>= fun v ↦ readUnsigned? maxWord v.toList
  { s with
    nodes := nodes.getD s.nodes
    loss := loss.getD s.loss
    seed := (seed.map (·.toUInt64)).or s.seed }

/-- The settings of a file, if there is one, and of the environment. -/
def load (file : Option Bytes) (lookup : String → Option String) : Settings :=
  ((file >>= ofFile?).getD {}).override lookup

end CollectionTree.Settings
