import CollectionTree.Bytes
import CollectionTree.Topology.Address

/-!
# What passes between a node and its radio

A node hands its radio one frame at a time and later hears what became of it; in between it hears
frames from others.
-/

namespace CollectionTree

/-- A frame handed to a radio for a neighbour, and how often the radio may send it again. -/
structure Outgoing where
  target : Address
  payload : Bytes
  maxRetries : UInt8
  deriving DecidableEq, Repr

/-- What a radio tells its node. -/
inductive Signal where
  /-- A frame came from a neighbour. -/
  | received (sender : Address) (payload : Bytes)
  /-- The frame under way was acknowledged after being sent again so often. -/
  | sent (target : Address) (retries : Nat)
  /-- The frame under way was given up after being sent again so often. -/
  | timedOut (target : Address) (retries : Nat)
  deriving DecidableEq, Repr

/-- Why a radio refuses a frame. -/
inductive TransportError where
  | busy
  | closed
  | emptyPayload
  deriving DecidableEq, Repr

/-- The wording of an error. -/
def TransportError.message : TransportError → String
  | busy => "transport busy"
  | closed => "transport closed"
  | emptyPayload => "empty payload"

/-- What a node can find out about its radio before it hands over a frame: whether an earlier one is
still under way, and whether the radio would take the frame. -/
structure Radio where
  busy : Bool
  accepts : Outgoing → Bool

end CollectionTree
