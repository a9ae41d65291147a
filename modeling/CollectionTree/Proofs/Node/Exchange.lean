import CollectionTree.Proofs.Node.Sending
import CollectionTree.Workload.Bytewise

/-!
# A node and its radio over time

An exchange is a node together with the frame that its radio has taken and not yet told the fate of.
Anything may happen to the node in any order: facts, flushes, frames from others, beacons and
questions about the next flush. The radio may refuse a frame whenever it likes, but while a frame is
outstanding it is busy, and it tells the fate of the outstanding frame only.

The invariant is `MarksOutstanding`: the records on their way are those that the outstanding frame
carries. `marksOutstanding_run` says that it holds after every sequence of events.
-/

namespace CollectionTree

/-- A node, and the frame that the radio took last until its fate is told. -/
structure Exchange where
  node : Node
  outstanding : Option Outgoing

/-- What may happen to a node. -/
inductive Event where
  /-- It is given a fact sensed after so many seconds. -/
  | sow (id : UInt8) (elapsed : Nat) (key value : Bytes)
  /-- It flushes, on a schedule or ahead of it, and sees this of its radio. -/
  | flush (radio : Radio) (urgent : Bool)
  /-- A payload arrives, and it sees this of its radio when it passes on what is urgent. -/
  | received (radio : Radio) (sender : Address) (payload : Bytes)
  /-- The outstanding frame was acknowledged. -/
  | sent (radio : Radio) (retries : Nat)
  /-- The outstanding frame was given up. -/
  | timedOut (radio : Radio) (retries : Nat)
  /-- Discovery tells it something. -/
  | beacon (beacon : Beacon)
  /-- It is asked when it flushes next. -/
  | nextDelay

namespace Exchange

/-- The exchange after a step of the node. -/
def after {α : Type} (e : Exchange) (reaction : Reaction α Node Output) : Exchange where
  node := reaction.state
  outstanding := (Node.takenFrame? reaction.outputs).or e.outstanding

/-- The exchange after the node was told the fate of the outstanding frame. -/
def settled (e : Exchange) (radio : Radio) (signal : Outgoing → Signal) : Exchange :=
  match e.outstanding with
  | none => e
  | some frame => { node := (e.node.onSignal radio (signal frame)).state, outstanding := none }

/-- The exchange after an event. -/
def step (e : Exchange) : Event → Exchange
  | .sow id elapsed key value => { e with node := (e.node.sow id elapsed key value).2 }
  | .flush radio urgent => e.after (e.node.flush radio urgent)
  | .received radio sender payload => e.after (e.node.onSignal radio (.received sender payload))
  | .sent radio retries => e.settled radio fun frame ↦ .sent frame.target retries
  | .timedOut radio retries => e.settled radio fun frame ↦ .timedOut frame.target retries
  | .beacon beacon => e.after (e.node.onBeacon beacon)
  | .nextDelay => { e with node := e.node.nextFlushDelay.2 }

/-- Whether the radio may do this: it is busy while a frame is outstanding, and tells the fate of an
outstanding frame only. -/
def Allows (e : Exchange) : Event → Prop
  | .flush radio _ | .received radio _ _ => e.outstanding.isSome = true → radio.busy = true
  | .sent _ _ | .timedOut _ _ => e.outstanding.isSome = true
  | .sow _ _ _ _ | .beacon _ | .nextDelay => True

instance (e : Exchange) : DecidablePred e.Allows
  | .flush _ _ => by unfold Allows; infer_instance
  | .received _ _ _ => by unfold Allows; infer_instance
  | .sent _ _ => by unfold Allows; infer_instance
  | .timedOut _ _ => by unfold Allows; infer_instance
  | .sow _ _ _ _ => by unfold Allows; infer_instance
  | .beacon _ => by unfold Allows; infer_instance
  | .nextDelay => by unfold Allows; infer_instance

/-- The exchange after some events. -/
def run (e : Exchange) (events : List Event) : Exchange := events.foldl step e

/-- Whether the radio may do all of this in this order. -/
def AllowsAll (e : Exchange) : List Event → Prop
  | [] => True
  | event :: rest => e.Allows event ∧ (e.step event).AllowsAll rest

instance decidableAllowsAll (e : Exchange) : (events : List Event) → Decidable (e.AllowsAll events)
  | [] => isTrue trivial
  | event :: rest =>
    have := decidableAllowsAll (e.step event) rest
    inferInstanceAs (Decidable (_ ∧ _))

/-- The entries of the outstanding frame for an owner. -/
def outstandingFor (e : Exchange) (owner : UInt8) : List Wire.Entry :=
  match e.outstanding with
  | none => []
  | some frame => Wire.entriesFor frame.payload owner

/-- An open node that is not the sink before it ever sent anything. -/
structure Fresh (e : Exchange) : Prop where
  idle : e.outstanding = none
  opened : e.node.closed = false
  inner : e.node.gradient.isSink = false
  distinct : e.node.DistinctIds
  keeps : e.node.KeepsIdentity
  clear : ∀ acc ∈ e.node.accumulators, Accumulator.pending acc.records = []

/-- The records on their way are, accumulator by accumulator and in order, those that the
outstanding frame carries; without an outstanding frame there are none. -/
def MarksOutstanding (e : Exchange) : Prop :=
  match e.outstanding with
  | none => ∀ acc ∈ e.node.accumulators, Accumulator.pending acc.records = []
  | some frame => ∀ acc ∈ e.node.accumulators,
      (Accumulator.pending acc.records).map Record.key =
        (Wire.entriesFor frame.payload acc.id).map Wire.Entry.key

/-- What every event keeps, with the marks seen by id. -/
structure Sound (e : Exchange) : Prop where
  opened : e.node.closed = false
  inner : e.node.gradient.isSink = false
  distinct : e.node.DistinctIds
  keeps : e.node.KeepsIdentity
  marks : ∀ id, e.node.pendingKeys id = (e.outstandingFor id).map Wire.Entry.key

variable {e : Exchange}

/-- Nothing is on its way from a fresh node. -/
theorem Fresh.sound (fresh : e.Fresh) : e.Sound where
  opened := fresh.opened
  inner := fresh.inner
  distinct := fresh.distinct
  keeps := fresh.keeps
  marks id := by
    simp only [outstandingFor, fresh.idle, List.map_nil, Node.pendingKeys, List.map_eq_nil_iff]
    cases bound : e.node.accumulator? id with
    | none => simp [Node.recordsFor, bound, Accumulator.pending]
    | some acc =>
      have clear := fresh.clear acc (e.node.mem_accumulators_of_accumulator? bound).1
      simpa [Node.recordsFor, bound] using clear

private theorem Sound.marksOutstanding (sound : e.Sound) : e.MarksOutstanding := by
  unfold MarksOutstanding
  have marks : ∀ acc ∈ e.node.accumulators, (Accumulator.pending acc.records).map Record.key =
      (e.outstandingFor acc.id).map Wire.Entry.key := by
    intro acc hacc
    rw [← sound.marks acc.id, Node.pendingKeys, Node.recordsFor_of_mem sound.distinct hacc]
  simp only [outstandingFor] at marks
  split
  · next idle => simpa [idle] using marks
  · next frame outstanding => simpa [outstanding] using marks

/-- Nothing is on its way for any id while no frame is outstanding. -/
theorem Sound.clear (sound : e.Sound) (idle : e.outstanding = none) (id : UInt8) :
    Accumulator.pending (e.node.recordsFor id) = [] := by
  have marks := sound.marks id
  simpa [outstandingFor, idle, Node.pendingKeys] using marks

/-! ## One event -/

/-- A flush, by a radio that is busy while a frame is outstanding, leaves everything as it is or has
a first frame taken, and then marks the records that this frame carries. -/
theorem Sound.flush_cases (sound : e.Sound) {radio : Radio}
    (busy : e.outstanding.isSome = true → radio.busy = true) (urgent : Bool) :
    ((e.after (e.node.flush radio urgent)).outstanding = e.outstanding ∧
        ∀ id, (e.node.flush radio urgent).state.recordsFor id = e.node.recordsFor id) ∨
      (e.outstanding = none ∧ ∃ frame : Outgoing,
        (e.after (e.node.flush radio urgent)).outstanding = some frame ∧
        ∀ id, Wire.entriesFor frame.payload id <+:
            Accumulator.ready urgent (e.node.recordsFor id) ∧
          (e.node.flush radio urgent).state.recordsFor id =
            Accumulator.markReady urgent (Wire.entriesFor frame.payload id).length
              (e.node.recordsFor id)) := by
  have idle (free : radio.busy = false) : e.outstanding = none := by
    cases outstanding : e.outstanding with
    | none => rfl
    | some frame =>
      rw [busy (by simp [outstanding])] at free
      cases free
  have step := Node.flushed_flush sound.distinct radio urgent
  generalize e.node.flush radio urgent = reaction at step
  cases step with
  | idle gate source => exact .inl ⟨rfl, fun _ ↦ rfl⟩
  | consumed sink => exact absurd sink (by simp [sound.inner])
  | taken gate source inner route free accepted carries loaded =>
    exact .inr ⟨idle free, _, rfl, fun id ↦
      ⟨carries.ready_recordsFor id, Node.recordsFor_markAll ..⟩⟩
  | refused gate source inner free filled rejected =>
    refine .inl ⟨rfl, fun id ↦ ?_⟩
    have clear := sound.clear (idle free) id
    have free : ∀ r ∈ e.node.recordsFor id, r.isPending = false := by
      simpa [Accumulator.pending, List.filter_eq_nil_iff] using clear
    refine (e.node.recordsFor_releasePending id).trans ?_
    rw [List.map_congr_left fun r hr ↦ Record.unmark_pending_of_not (free r hr)]
    exact List.map_id _

/-- A flush by a radio that is busy while a frame is outstanding. -/
theorem Sound.flush (sound : e.Sound) {radio : Radio}
    (busy : e.outstanding.isSome = true → radio.busy = true) (urgent : Bool) :
    (e.after (e.node.flush radio urgent)).Sound := by
  have bindings := Node.bindings_flush sound.distinct radio urgent
  have keeps := Node.flush_keeps sound.distinct radio urgent
  refine ⟨keeps.2.trans sound.opened, keeps.1 ▸ sound.inner,
    (Node.distinctIds_of_bindings_eq bindings).2 sound.distinct,
    (Node.keepsIdentity_of_bindings_eq bindings).2 sound.keeps, fun id ↦ ?_⟩
  rcases sound.flush_cases busy urgent with ⟨outstanding, records⟩ | ⟨idle, frame, taken, marked⟩
  · have marks := sound.marks id
    rw [Node.pendingKeys, outstandingFor] at marks ⊢
    rw [outstanding, after, records, marks]
  · obtain ⟨ready, records⟩ := marked id
    rw [Node.pendingKeys, outstandingFor, taken, after, records, ← Record.map_key_map_entry,
      Accumulator.pending_markReady urgent _ (sound.clear idle id),
      ← List.prefix_iff_eq_take.1 ready]

/-- A node that was told the fate of its frame, and has nothing on its way afterwards. -/
theorem Sound.cleared (sound : e.Sound) {n : Node} (bindings : n.bindings = e.node.bindings)
    (closed : n.closed = e.node.closed) (gradient : n.gradient = e.node.gradient)
    (clear : ∀ id, n.pendingKeys id = []) : Sound { node := n, outstanding := none } where
  opened := closed.trans sound.opened
  inner := gradient ▸ sound.inner
  distinct := (Node.distinctIds_of_bindings_eq bindings).2 sound.distinct
  keeps := (Node.keepsIdentity_of_bindings_eq bindings).2 sound.keeps
  marks := clear

private theorem Sound.sow (sound : e.Sound) (id : UInt8) (elapsed : Nat) (key value : Bytes) :
    (e.step (.sow id elapsed key value)).Sound := by
  have bindings := e.node.bindings_sow id elapsed key value
  have marks (other : UInt8) := Node.pendingKeys_sow sound.keeps id elapsed key value other
  have same := e.node.sow_keeps id elapsed key value
  exact ⟨same.2.trans sound.opened, same.1 ▸ sound.inner,
    (Node.distinctIds_of_bindings_eq bindings).2 sound.distinct,
    (Node.keepsIdentity_of_bindings_eq bindings).2 sound.keeps,
    fun other ↦ (marks other).trans (sound.marks other)⟩

/-- Taking a payload in leaves the marks sound. -/
theorem Sound.takingIn (sound : e.Sound) (payload : Bytes) :
    Sound { e with node := e.node.takingIn payload } := by
  have bindings := e.node.bindings_takingIn payload
  exact ⟨(e.node.closed_takingIn payload).trans sound.opened,
    (e.node.gradient_takingIn payload) ▸ sound.inner,
    (Node.distinctIds_of_bindings_eq bindings).2 sound.distinct,
    (Node.keepsIdentity_of_bindings_eq bindings).2 sound.keeps,
    fun id ↦ (Node.pendingKeys_takingIn sound.keeps payload id).trans (sound.marks id)⟩

/-- A payload is taken in before what is urgent is passed on. -/
theorem step_received (opened : e.node.closed = false) (radio : Radio) (sender : Address)
    (payload : Bytes) :
    e.step (.received radio sender payload) =
      after { e with node := e.node.takingIn payload }
        ((e.node.takingIn payload).flush radio true) := by
  simp only [step, Node.onSignal_received opened]
  rfl

/-- A confirmation ends the outstanding frame. -/
theorem step_sent (opened : e.node.closed = false) {frame : Outgoing}
    (outstanding : e.outstanding = some frame) (radio : Radio) (retries : Nat) :
    e.step (.sent radio retries) = ⟨e.node.confirmed, none⟩ := by
  simp only [step, settled, outstanding, Node.onSignal_sent opened]

/-- Giving the frame up ends it too. -/
theorem step_timedOut (opened : e.node.closed = false) {frame : Outgoing}
    (outstanding : e.outstanding = some frame) (radio : Radio) (retries : Nat) :
    e.step (.timedOut radio retries) = ⟨e.node.givenUp, none⟩ := by
  simp only [step, settled, outstanding, Node.onSignal_timedOut opened]

/-- A beacon changes where the node stands, but not whether it is the sink, and starts no frame. -/
theorem step_beacon (opened : e.node.closed = false) (beacon : Beacon) :
    ∃ gradient counters, gradient.isSink = e.node.gradient.isSink ∧
      e.step (.beacon beacon) = { e with node := { e.node with gradient, counters } } := by
  cases beacon with
  | heard neighbor hop =>
    refine ⟨_, e.node.counters, e.node.gradient.isSink_consider neighbor hop, ?_⟩
    have silent : Node.takenFrame? (if (e.node.gradient.consider neighbor hop).1 then
        [.announce (e.node.gradient.consider neighbor hop).2.advertised] else []) = none := by
      split <;> rfl
    simp only [step, Node.onBeacon_heard opened, after, silent]
    rfl
  | tick =>
    refine ⟨e.node.gradient, e.node.counters.addCycle, rfl, ?_⟩
    simp only [step, Node.onBeacon_tick opened]
    rfl

/-- Every event that the radio may bring about leaves the marks sound. -/
theorem Sound.step (sound : e.Sound) {event : Event} (allowed : e.Allows event) :
    (e.step event).Sound := by
  cases event with
  | sow id elapsed key value => exact sound.sow id elapsed key value
  | flush radio urgent => exact sound.flush allowed urgent
  | received radio sender payload =>
    rw [step_received sound.opened]
    exact (sound.takingIn payload).flush allowed true
  | sent radio retries =>
    obtain ⟨frame, outstanding⟩ := Option.isSome_iff_exists.1 allowed
    rw [step_sent sound.opened outstanding]
    exact sound.cleared e.node.bindings_confirmed rfl rfl e.node.pendingKeys_confirmed
  | timedOut radio retries =>
    obtain ⟨frame, outstanding⟩ := Option.isSome_iff_exists.1 allowed
    rw [step_timedOut sound.opened outstanding]
    exact sound.cleared e.node.bindings_givenUp rfl rfl e.node.pendingKeys_givenUp
  | beacon beacon =>
    obtain ⟨gradient, counters, isSink, after⟩ := step_beacon sound.opened beacon
    rw [after]
    exact ⟨sound.opened, isSink.trans sound.inner, sound.distinct, sound.keeps, sound.marks⟩
  | nextDelay => exact ⟨sound.opened, sound.inner, sound.distinct, sound.keeps, sound.marks⟩

/-! ## Every sequence of events -/

private theorem Sound.run (sound : e.Sound) {events : List Event} (allowed : e.AllowsAll events) :
    (e.run events).Sound := by
  induction events generalizing e with
  | nil => exact sound
  | cons event rest ih => exact ih (sound.step allowed.1) allowed.2

/-- After every sequence of events the records on their way are exactly those that the outstanding
frame carries. So its confirmation removes exactly these records, and giving it up makes exactly
these ready again. -/
theorem marksOutstanding_run (fresh : e.Fresh) {events : List Event}
    (allowed : e.AllowsAll events) :
    (e.run events).MarksOutstanding ∧
      ∀ frame, (e.run events).outstanding = some frame → ∀ radio retries,
        ((e.run events).step (.sent radio retries)).node.accumulators =
          (e.run events).node.accumulators.map (fun acc ↦
            { acc with records := acc.records.filter fun r ↦ !r.isPending }) ∧
        ((e.run events).step (.timedOut radio retries)).node.accumulators =
          (e.run events).node.accumulators.map fun acc ↦
            { acc with records := acc.records.map fun r ↦
              if r.isPending then r.unmark .pendingOnly else r } := by
  have sound := fresh.sound.run allowed
  refine ⟨sound.marksOutstanding, fun frame outstanding radio retries ↦ ⟨?_, ?_⟩⟩
  · rw [step_sent sound.opened outstanding]
    simp [Node.confirmed, Node.accumulators_cleanup]
  · have unmark (r : Record) :
        r.unmark .pendingOnly = if r.isPending then r.unmark .pendingOnly else r := by
      split
      · rfl
      · next free => exact Record.unmark_pending_of_not (by simpa using free)
    rw [step_timedOut sound.opened outstanding]
    simp only [← unmark]
    rfl

/-! ## A routed node -/

/-- Summing words up leaves keys and marks alone. -/
theorem keepsIdentity_wordSum : Bytewise.wordSum.KeepsIdentity := by
  intro r value
  simp only [Bytewise.wordSum]
  split <;> exact ⟨rfl, rfl⟩

/-- A node with a parent that adds up words, before it sent anything. -/
def routedAdder : Exchange where
  node :=
    { address := .ofNat 2, gradient := ⟨some (.ofNat 1), 0, false⟩
      accumulators := [{ id := 1, job := Bytewise.wordSum }], ledger := {}, config := {}
      source := .ofSeed 3 }
  outstanding := none

/-- A radio that takes every frame. -/
def willing : Radio := ⟨false, fun _ ↦ true⟩

/-- A radio with a frame under way. -/
def occupied : Radio := ⟨true, fun _ ↦ false⟩

/-- The adder is fresh. -/
theorem fresh_routedAdder : routedAdder.Fresh where
  idle := rfl
  opened := rfl
  inner := rfl
  distinct := by simp [routedAdder, Node.DistinctIds]
  keeps := by simpa [routedAdder, Node.KeepsIdentity] using keepsIdentity_wordSum
  clear := by simp [routedAdder, Accumulator.pending]

/-- A value on its way to the parent, to which a further one was added meanwhile. -/
def addedInFlight : List Event :=
  [.sow 1 0 [110] [1, 0, 0, 0], .flush willing false, .sow 1 0 [110] [2, 0, 0, 0],
    .flush occupied false]

/-- A value added in flight leaves the record on its way, which the outstanding frame carries with
its old value. -/
theorem marksOutstanding_addedInFlight :
    (routedAdder.run addedInFlight).outstanding =
        some ⟨.ofNat 1, [0, 1, 1, 9, 1, 4, 110, 1, 0, 0, 0], 4⟩ ∧
      (routedAdder.run addedInFlight).MarksOutstanding :=
  ⟨by decide, (marksOutstanding_run fresh_routedAdder (by decide)).1⟩

end Exchange
end CollectionTree
