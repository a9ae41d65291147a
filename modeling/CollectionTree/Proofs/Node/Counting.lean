import CollectionTree.Proofs.Node.Sending
import Mathlib.Algebra.Group.Prod

/-!
# Frames counted at one node

A node counts a frame when its radio tells of it, and at no other time: what a node takes in,
flushes or removes leaves its counts of frames alone.
-/

namespace CollectionTree

/-- The frames counted: confirmed, received, and given up. -/
def Counters.frames (c : Counters) : Nat × Nat × Nat := (c.sent, c.received, c.timedOut)

/-- What a signal adds to the frames counted. -/
def Signal.frames : Signal → Nat × Nat × Nat
  | .sent _ _ => (1, 0, 0)
  | .received _ _ => (0, 1, 0)
  | .timedOut _ _ => (0, 0, 1)

namespace Store

private theorem frames_emit (store : Store) (candidate : Record) :
    (store.emit candidate).2.counters.frames = store.counters.frames := by
  unfold emit
  split
  · rfl
  · split <;> rfl

private theorem frames_emitAll (store : Store) (candidates : List Record) :
    (store.emitAll candidates).2.counters.frames = store.counters.frames := by
  induction candidates generalizing store with
  | nil => rfl
  | cons candidate rest ih => exact (ih _).trans (store.frames_emit candidate)

end Store

namespace Node

variable {n : Node}

private theorem frames_onEach {operation : Store → Store}
    (keeps : ∀ store, (operation store).counters.frames = store.counters.frames) (n : Node) :
    (n.onEach operation).counters.frames = n.counters.frames := by
  have from' (ledger : Ledger) (counters : Counters) (accs : List Accumulator) :
      (runEach operation ledger counters accs).2.2.frames = counters.frames := by
    induction accs generalizing ledger counters with
    | nil => rfl
    | cons acc rest ih => exact (ih _ _).trans (keeps ⟨acc, ledger, counters⟩)
  exact from' n.ledger n.counters n.accumulators

/-- Cleaning up counts no frame. -/
theorem frames_cleanup (n : Node) (flags : Flags) :
    (n.cleanup flags).counters.frames = n.counters.frames := by
  refine frames_onEach (fun store ↦ ?_) n
  rfl

/-- A confirmation counts one confirmed frame. -/
theorem frames_confirmed (n : Node) :
    n.confirmed.counters.frames = n.counters.frames + (1, 0, 0) :=
  frames_cleanup { n with counters := n.counters.addSent } .pendingOnly

/-- Giving up counts one given-up frame. -/
theorem frames_givenUp (n : Node) :
    n.givenUp.counters.frames = n.counters.frames + (0, 0, 1) := rfl

/-- Taking a payload in counts one received frame. -/
theorem frames_takingIn (n : Node) (payload : Bytes) :
    (n.takingIn payload).counters.frames = n.counters.frames + (0, 1, 0) := by
  rw [takingIn, receive_eq]
  exact frames_onEach (fun store ↦ store.frames_emitAll _)
    { n with counters := n.counters.addReceived }

/-- A flush counts no frame. -/
theorem frames_flush (distinct : n.DistinctIds) (radio : Radio) (urgent : Bool) :
    (n.flush radio urgent).state.counters.frames = n.counters.frames := by
  have step := flushed_flush distinct radio urgent
  generalize n.flush radio urgent = reaction at step ⊢
  cases step with
  | consumed => exact n.frames_cleanup .all
  | idle | taken | refused => rfl

/-- A fact counts no frame. -/
theorem frames_sow (n : Node) (id : UInt8) (elapsed : Nat) (key value : Bytes) :
    (n.sow id elapsed key value).2.counters.frames = n.counters.frames := by
  have step := n.sown_sow id elapsed key value
  generalize (n.sow id elapsed key value).2 = n' at step ⊢
  cases step with
  | unbound missing => rfl
  | @taken store _ found bindings here elsewhere rest =>
    obtain ⟨before, after, -, rfl⟩ := rest
    obtain ⟨acc, -, rfl⟩ := Option.map_eq_some_iff.1 found
    exact Store.frames_emitAll ⟨acc, n.ledger, n.counters.addMapped⟩ _

/-- A flush has at most one frame taken. -/
theorem takenFrames_flush (distinct : n.DistinctIds) (radio : Radio) (urgent : Bool) :
    takenFrames (n.flush radio urgent).outputs =
      (takenFrame? (n.flush radio urgent).outputs).toList := by
  have step := flushed_flush distinct radio urgent
  generalize n.flush radio urgent = reaction at step ⊢
  cases step with
  | idle => rfl
  | consumed =>
    have none : takenFrames (consumption n.accumulators) = [] := by
      rw [takenFrames, List.filterMap_eq_nil_iff]
      intro o ho
      obtain ⟨acc, -, ho⟩ := List.mem_flatMap.1 ho
      obtain ⟨r, -, rfl⟩ := List.mem_map.1 ho
      rfl
    rw [none, takenFrame?_consumption]
    rfl
  | taken | refused => rfl

/-- A frame is taken only from a node that has none under way. -/
theorem free_of_takenFrame? (distinct : n.DistinctIds) {radio : Radio} {urgent : Bool}
    {frame : Outgoing} (taken : takenFrame? (n.flush radio urgent).outputs = some frame) :
    radio.busy = false := by
  have step := flushed_flush distinct radio urgent
  generalize n.flush radio urgent = reaction at step taken
  cases step with
  | idle => cases taken
  | consumed =>
    rw [takenFrame?_consumption] at taken
    cases taken
  | taken gate source inner route free accepted carries loaded => exact free
  | refused => cases taken

/-- Beacons have no frame taken. -/
theorem takenFrames_onBeacon (n : Node) (beacon : Beacon) :
    takenFrames (n.onBeacon beacon).outputs = [] := by
  unfold onBeacon
  split
  · rfl
  · split
    · simp only
      split <;> rfl
    · rfl

end Node
end CollectionTree
