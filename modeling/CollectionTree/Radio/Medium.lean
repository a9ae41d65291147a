import CollectionTree.Radio.Signal
import CollectionTree.Random.Chance

/-!
# A shared lossy medium

The medium carries at most one frame for each open node. Pumping it settles every frame under way,
in ascending order of senders: each attempt is lost with a fixed chance, the first that is not
delivers the frame and is acknowledged, and a frame whose attempts are all lost is given up. No
attempt at a destination that is not open succeeds.
-/

namespace CollectionTree

/-- What the medium counted: attempts to send a frame and those that were lost, frames that arrived
and frames that were given up. -/
structure MediumStats where
  attempts : Nat := 0
  lost : Nat := 0
  delivered : Nat := 0
  timedOut : Nat := 0
  deriving DecidableEq, Repr

/-- The radio medium that all nodes share: the draws for losses and their chance, the nodes whose
radio is open, and the frame under way from each node. -/
structure Medium where
  source : Source
  loss : Chance
  opened : OrderedSet Address := .empty
  inFlight : Table Address Outgoing := .empty
  stats : MediumStats := {}

/-- How often an event happens in a row, up to `tries` times. -/
def Chance.streak (chance : Chance) : (tries : Nat) → Source → Nat × Source
  | 0, source => (0, source)
  | tries + 1, source =>
    let (happened, source) := chance.draw source
    if happened then
      let (count, source) := chance.streak tries source
      (count + 1, source)
    else (0, source)

namespace Medium

/-- Open a node's radio. -/
def attach (m : Medium) (node : Address) : Medium := { m with opened := m.opened.add node }

/-- Close a node's radio, which withdraws its frame if one is under way. -/
def detach (m : Medium) (node : Address) : Medium :=
  { m with opened := m.opened.erase node, inFlight := m.inFlight.erase node }

/-- Whether a frame from this node is under way. -/
def isBusy (m : Medium) (node : Address) : Bool := m.inFlight.contains node

/-- How many frames are under way. -/
def pending (m : Medium) : Nat := m.inFlight.size

/-- Take a frame from a node. A closed radio is noticed before an empty frame, and that before an
earlier frame that is still under way. -/
def submit (m : Medium) (sender : Address) (frame : Outgoing) : Except TransportError Medium :=
  if !m.opened.contains sender then .error .closed
  else if frame.payload.isEmpty then .error .emptyPayload
  else if m.isBusy sender then .error .busy
  else .ok { m with inFlight := m.inFlight.insert sender frame }

/-- The medium as a node sees it. -/
def radio (m : Medium) (node : Address) : Radio where
  busy := m.isBusy node
  accepts frame := (m.submit node frame).isOk

/-- How many of so many attempts are lost before one succeeds: all of them, without a draw, if the
destination is not open. -/
def losses (m : Medium) (target : Address) (tries : Nat) : Nat × Source :=
  if m.opened.contains target then m.loss.streak tries m.source else (tries, m.source)

/-- Settle one frame: what its receiver and its sender are told. -/
def settle (m : Medium) (sender : Address) (frame : Outgoing) :
    List (Address × Signal) × Medium :=
  let tries := frame.maxRetries.toNat + 1
  let (lost, source) := m.losses frame.target tries
  if lost < tries then
    ([(frame.target, .received sender frame.payload), (sender, .sent frame.target lost)],
      { m with
        source
        stats := { m.stats with
          attempts := m.stats.attempts + (lost + 1)
          lost := m.stats.lost + lost
          delivered := m.stats.delivered + 1 } })
  else
    ([(sender, .timedOut frame.target frame.maxRetries.toNat)],
      { m with
        source
        stats := { m.stats with
          attempts := m.stats.attempts + tries
          lost := m.stats.lost + tries
          timedOut := m.stats.timedOut + 1 } })

/-- Settle some frames in order. -/
def settleAll (m : Medium) : List (Address × Outgoing) → List (Address × Signal) × Medium
  | [] => ([], m)
  | (sender, frame) :: rest =>
    let (signals, next) := m.settle sender frame
    let (more, last) := next.settleAll rest
    (signals ++ more, last)

/-- Settle every frame under way. -/
def pump (m : Medium) : List (Address × Signal) × Medium :=
  { m with inFlight := .empty }.settleAll m.inFlight.entries

/-- A frame is taken exactly from an open node with nothing under way, and if it is not empty. -/
theorem submit_isOk_iff (m : Medium) (sender : Address) (frame : Outgoing) :
    (m.submit sender frame).isOk ↔
      m.opened.contains sender ∧ frame.payload ≠ [] ∧ m.isBusy sender = false := by
  unfold submit
  split
  · simp_all [Except.isOk, Except.toBool]
  · split
    · simp_all [Except.isOk, Except.toBool]
    · split <;> simp_all [Except.isOk, Except.toBool]

/-- Settling a frame keeps what is under way. -/
@[simp] theorem inFlight_settle (m : Medium) (sender : Address) (frame : Outgoing) :
    (m.settle sender frame).2.inFlight = m.inFlight := by
  simp only [settle]
  split <;> rfl

private theorem inFlight_settleAll (m : Medium) (frames : List (Address × Outgoing)) :
    (m.settleAll frames).2.inFlight = m.inFlight := by
  induction frames generalizing m with
  | nil => rfl
  | cons head rest ih => simp [settleAll, ih]

/-- Pumping leaves nothing under way. -/
@[simp] theorem inFlight_pump (m : Medium) : m.pump.2.inFlight = .empty := by
  simp [pump, inFlight_settleAll]

end Medium

end CollectionTree
