/-!
# Activity counters

What a node did so far, counted, and the line in which it reports the counts together with the bytes
that its records hold.
-/

namespace CollectionTree

/-- How often a node did each thing that it counts. A frame is sent when it is confirmed and timed
out when it is given up; facts are mapped to records, records emitted to a store and reduced into
one that is stored already; cycles are rounds of discovery. -/
structure Counters where
  sent : Nat := 0
  received : Nat := 0
  timedOut : Nat := 0
  mapped : Nat := 0
  emitted : Nat := 0
  reduced : Nat := 0
  cycles : Nat := 0
  deriving DecidableEq, Repr

namespace Counters

/-- One more frame was confirmed. -/
def addSent (c : Counters) : Counters := { c with sent := c.sent + 1 }

/-- One more frame was received. -/
def addReceived (c : Counters) : Counters := { c with received := c.received + 1 }

/-- One more frame was given up. -/
def addTimedOut (c : Counters) : Counters := { c with timedOut := c.timedOut + 1 }

/-- One more fact was mapped. -/
def addMapped (c : Counters) : Counters := { c with mapped := c.mapped + 1 }

/-- One more record was offered. -/
def addEmitted (c : Counters) : Counters := { c with emitted := c.emitted + 1 }

/-- One more record was folded into another. -/
def addReduced (c : Counters) : Counters := { c with reduced := c.reduced + 1 }

/-- One more round of discovery passed. -/
def addCycle (c : Counters) : Counters := { c with cycles := c.cycles + 1 }

end Counters

/-- The counts at one moment, with the bytes held by stored records. -/
structure Stats where
  counters : Counters
  ram : Nat
  deriving DecidableEq, Repr

/-- The line in which a node reports its counts. -/
def Stats.line (stats : Stats) : String :=
  let c := stats.counters
  s!"sent={c.sent} recv={c.received} timedout={c.timedOut} map={c.mapped} " ++
    s!"emit={c.emitted} reduce={c.reduced} cycles={c.cycles} ram={stats.ram}"

end CollectionTree
