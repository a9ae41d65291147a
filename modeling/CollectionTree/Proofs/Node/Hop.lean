import CollectionTree.Proofs.Node.Acts
import CollectionTree.Proofs.Store.Knowledge
import CollectionTree.Proofs.Store.OnePerKey

/-!
# Urgency over one hop

A frame is urgent or not as a whole, while a store marks each of its records. `urgent_hop` says what
a hop makes of these marks where the receiver has room for the frame: a record that is carried is
urgent there exactly if it left urgent in an urgent frame, or if its key was urgent there before. An
urgent record that leaves by the schedule arrives without its mark.
-/

namespace CollectionTree

namespace Store

/-- An arrival makes its key urgent exactly if the payload is urgent. -/
theorem urgentAbout_arrivals (payload : Bytes) (owner : UInt8) (key : Bytes) :
    urgentAbout key (arrivals payload owner) = true ↔
      Wire.flaggedUrgent payload = true ∧
        key ∈ (Wire.entriesFor payload owner).map Wire.Entry.key := by
  simp only [urgentAbout, arrivals, List.any_map, List.any_eq_true, Function.comp_apply,
    isUrgent_candidateOf, Record.about, key_candidateOf, Bool.and_eq_true, beq_iff_eq,
    List.mem_map]
  constructor
  · rintro ⟨e, he, about, urgent⟩
    exact ⟨urgent, e, he, about⟩
  · rintro ⟨urgent, e, he, about⟩
    exact ⟨e, he, about, urgent⟩

end Store

namespace Node

variable {n : Node}

/-- The ledger has room for everything in a payload that is about new keys. -/
def HasRoomFor (n : Node) (payload : Bytes) : Prop :=
  n.ledger.allocated + (n.accumulators.map fun acc ↦
    Record.footprints (Store.newTo acc.records (Store.arrivals payload acc.id))).sum ≤ n.ledger.cap

instance (n : Node) (payload : Bytes) : Decidable (n.HasRoomFor payload) :=
  inferInstanceAs (Decidable (_ ≤ _))

/-- Where there is room for a payload, no accumulator is refused anything when its turn comes. -/
theorem accepted_of_hasRoomFor (keeps : n.KeepsIdentity) {payload : Bytes}
    (room : n.HasRoomFor payload) {store : Store} (turn : store ∈ n.turns (Store.taking payload)) :
    store.accepted (Store.arrivals payload store.id) = Store.arrivals payload store.id := by
  have from' {ledger : Ledger} {counters : Counters} {accs : List Accumulator}
      (keeps : ∀ acc ∈ accs, acc.job.KeepsIdentity)
      (room : ledger.allocated + (accs.map fun acc ↦ Record.footprints
        (Store.newTo acc.records (Store.arrivals payload acc.id))).sum ≤ ledger.cap)
      (turn : store ∈ turnsFrom (Store.taking payload) ledger counters accs) :
      store.accepted (Store.arrivals payload store.id) = Store.arrivals payload store.id := by
    induction accs generalizing ledger counters with
    | nil => cases turn
    | cons acc rest ih =>
      rw [List.forall_mem_cons] at keeps
      rw [List.map_cons, List.sum_cons, ← Nat.add_assoc] at room
      obtain ⟨all, left⟩ :=
        Store.accepted_of_room ⟨acc, ledger, counters⟩ keeps.1 room
      rcases List.mem_cons.1 turn with rfl | later
      · exact all
      · exact ih keeps.2 left later
  exact from' keeps room turn

/-- Whether a record about a key is held as urgent for an id. -/
def holdsUrgent (n : Node) (id : UInt8) (key : Bytes) : Bool :=
  Store.urgentAbout key (n.recordsFor id)

/-- Where there is room for a payload, its entries for a bound id are all known afterwards, and the
urgent keys are those that were urgent and, if the payload is urgent, those of its entries. -/
theorem holdsUrgent_receive (keeps : n.KeepsIdentity) {payload : Bytes}
    (room : n.HasRoomFor payload) {id : UInt8} (bound : n.accumulator? id ≠ none) (key : Bytes) :
    (key ∈ ((n.receive payload).recordsFor id).map Record.key ↔
        key ∈ (n.recordsFor id).map Record.key ∨
          key ∈ (Wire.entriesFor payload id).map Wire.Entry.key) ∧
      ((n.receive payload).holdsUrgent id key = true ↔
        n.holdsUrgent id key = true ∨ Wire.flaggedUrgent payload = true ∧
          key ∈ (Wire.entriesFor payload id).map Wire.Entry.key) := by
  rw [receive_eq, holdsUrgent, holdsUrgent]
  rcases n.onEach_cases (Store.taking payload) (Store.id_taking payload) id with
    ⟨-, none, -⟩ | ⟨store, turn, rfl, before, after⟩
  · exact absurd none bound
  · have all := n.accepted_of_hasRoomFor keeps room (List.mem_of_find?_eq_some turn)
    have keepsHere : store.job.KeepsIdentity :=
      keeps _ (n.mem_accumulators_of_accumulator? before).1
    simp only [recordsFor, before, after, Option.map_some, Option.getD_some, Store.taking]
    constructor
    · rw [Store.mem_keys_emitAll keepsHere, all, Store.map_key_arrivals]
    · rw [Store.urgentAbout_emitAll keepsHere, all, Store.urgentAbout_append, Bool.or_eq_true,
        Store.urgentAbout_arrivals]

/-- A flush of a node that is not the sink changes no view of the records that marking them as
pending does not change. -/
theorem map_recordsFor_flush (distinct : n.DistinctIds) (inner : n.gradient.isSink = false)
    {α : Type} (view : Record → α) (mark : ∀ r, view (r.mark .pendingOnly) = view r)
    (unmark : ∀ r, view (r.unmark .pendingOnly) = view r) (radio : Radio) (urgent : Bool)
    (id : UInt8) :
    ((n.flush radio urgent).state.recordsFor id).map view = (n.recordsFor id).map view := by
  have step := flushed_flush distinct radio urgent
  generalize n.flush radio urgent = reaction at step ⊢
  cases step with
  | idle gate source => rfl
  | consumed sink => cases inner.symm.trans sink
  | taken gate source inner route free accepted carries loaded =>
    rw [recordsFor_markAll, Accumulator.map_markReady mark]
  | refused gate source inner free filled rejected =>
    have released := recordsFor_releasePending { n with gate, source } id
    simp only [releasePending] at released
    rw [released, List.map_map]
    exact List.map_congr_left fun r _ ↦ unmark r

/-- What a node knows after it was told of a payload that it has room for: the urgent flush that
follows marks records as pending at most. -/
theorem holdsUrgent_onSignal (distinct : n.DistinctIds) (keeps : n.KeepsIdentity)
    (opened : n.closed = false) (inner : n.gradient.isSink = false) {payload : Bytes}
    (room : n.HasRoomFor payload) {id : UInt8} (bound : n.accumulator? id ≠ none) (radio : Radio)
    (sender : Address) (key : Bytes) :
    (key ∈ ((n.onSignal radio (.received sender payload)).state.recordsFor id).map Record.key ↔
        key ∈ (n.recordsFor id).map Record.key ∨
          key ∈ (Wire.entriesFor payload id).map Wire.Entry.key) ∧
      ((n.onSignal radio (.received sender payload)).state.holdsUrgent id key = true ↔
        n.holdsUrgent id key = true ∨ Wire.flaggedUrgent payload = true ∧
          key ∈ (Wire.entriesFor payload id).map Wire.Entry.key) := by
  have distinct' : (n.takingIn payload).DistinctIds :=
    (distinctIds_of_bindings_eq (n.bindings_takingIn payload)).2 distinct
  have inner' : (n.takingIn payload).gradient.isSink = false := by
    rw [gradient_takingIn, inner]
  have keys := map_recordsFor_flush distinct' inner' Record.key (fun _ ↦ rfl) (fun _ ↦ rfl) radio
    true id
  have marks := map_recordsFor_flush distinct' inner' (fun r ↦ (r.key, r.isUrgent))
    (fun r ↦ congrArg (Prod.mk r.key) r.isUrgent_mark_pending)
    (fun r ↦ congrArg (Prod.mk r.key) r.isUrgent_unmark_pending) radio true id
  rw [onSignal_received opened, holdsUrgent, Store.urgentAbout_congr marks key, keys]
  exact holdsUrgent_receive (n := { n with counters := n.counters.addReceived }) keeps room bound
    key

/-! ## Records that are carried -/

/-- The records that a payload carries for an id, as they are when they are gathered for it: the
first ready ones, as many as there are entries. -/
def loaded (n : Node) (urgent : Bool) (payload : Bytes) (id : UInt8) : List Record :=
  ((n.recordsFor id).filter (·.eligible urgent)).take (Wire.entriesFor payload id).length

private theorem Carries.map_entry_loaded {urgent : Bool} {payload : Bytes}
    (carries : Carries urgent n.accumulators payload) (id : UInt8) :
    (n.loaded urgent payload id).map Record.entry = Wire.entriesFor payload id := by
  rw [loaded, List.map_take]
  exact (List.prefix_iff_eq_take.1 (carries.ready_recordsFor id)).symm

/-- An urgent flush carries urgent records only. -/
theorem isUrgent_of_mem_loaded {payload : Bytes} {id : UInt8} {r : Record}
    (carried : r ∈ n.loaded true payload id) : r.isUrgent = true := by
  have ready := (List.mem_filter.1 (List.mem_of_mem_take carried)).2
  simp only [Record.eligible, Bool.not_true, Bool.false_or, Bool.and_eq_true] at ready
  exact ready.2

/-- A frame that a node's flush has taken reaches another node that has the same ids bound and room
for it. Every record that it carries is then held there. It is urgent exactly if the flush was
urgent and so was the record when it was gathered, or if its key was urgent there before. -/
theorem urgent_hop {urgent : Bool} {radio : Radio} {frame : Outgoing} (distinct : n.DistinctIds)
    (sent : takenFrame? (n.flush radio urgent).outputs = some frame) {receiver : Node}
    (distinct' : receiver.DistinctIds) (keeps : receiver.KeepsIdentity)
    (opened : receiver.closed = false) (inner : receiver.gradient.isSink = false)
    (bound : ∀ acc ∈ n.accumulators, receiver.accumulator? acc.id ≠ none)
    (room : receiver.HasRoomFor frame.payload) (radio' : Radio) (sender : Address) {after : Node}
    (arrived : (receiver.onSignal radio' (.received sender frame.payload)).state = after)
    (id : UInt8) :
    (n.loaded urgent frame.payload id).map Record.entry = Wire.entriesFor frame.payload id ∧
      ∀ r ∈ n.loaded urgent frame.payload id,
        r.key ∈ (after.recordsFor id).map Record.key ∧
          (after.holdsUrgent id r.key = true ↔
            (urgent = true ∧ r.isUrgent = true) ∨ receiver.holdsUrgent id r.key = true) := by
  obtain ⟨-, carries⟩ := sent_of_takenFrame? distinct sent
  have entries := carries.map_entry_loaded id
  refine ⟨entries, fun r carried ↦ ?_⟩
  have entry : r.entry ∈ Wire.entriesFor frame.payload id := by
    rw [← entries]
    exact List.mem_map_of_mem carried
  have among : r.key ∈ (Wire.entriesFor frame.payload id).map Wire.Entry.key :=
    List.mem_map_of_mem entry
  obtain ⟨acc, hacc, rfl⟩ := carries.bound id (List.ne_nil_of_mem entry)
  obtain ⟨keys, urgency⟩ := holdsUrgent_onSignal distinct' keeps opened inner room (bound acc hacc)
    radio' sender r.key
  rw [arrived] at keys urgency
  refine ⟨keys.2 (.inr among), ?_⟩
  rw [urgency, carries.flagged, or_comm]
  refine or_congr_left ⟨fun flagged ↦ ⟨flagged.1, ?_⟩, fun both ↦ ⟨both.1, among⟩⟩
  obtain rfl := flagged.1
  exact isUrgent_of_mem_loaded carried

/-! ## An urgent hop and one by the schedule -/

/-- A node that has both jobs of `twoJobs` and bytes left for two small records only. -/
def relay : Node where
  address := .ofNat 1
  gradient := ⟨some (.ofNat 0), 1, false⟩
  config := {}
  source := .ofList []
  ledger := { allocated := 21, limit := some 41 }
  accumulators :=
    [{ id := 2, job := Bytewise.latest, records := [⟨[98], [9, 9], .storedOnly⟩,
        ⟨[100], [5], ⟨true, true, false⟩⟩] },
      { id := 1, job := Bytewise.latest }]

/-- What `twoJobs` sends urgently. -/
def alarms : Outgoing :=
  ⟨.ofNat 1, [1, 2, 1, 6, 1, 1, 97, 1, 2, 11, 1, 2, 98, 2, 3, 1, 1, 101, 6], 4⟩

/-- A record of the relay that was not urgent becomes urgent by an urgent value for its key. -/
theorem urgent_hop_twoJobs :
    (twoJobs.DistinctIds ∧ takenFrame? (twoJobs.flush idleRadio true).outputs = some alarms ∧
      relay.DistinctIds ∧ relay.KeepsIdentity ∧ relay.closed = false ∧
      relay.gradient.isSink = false ∧
      (∀ acc ∈ twoJobs.accumulators, relay.accumulator? acc.id ≠ none) ∧
      relay.HasRoomFor alarms.payload) ∧
    ((relay.onSignal idleRadio (.received (.ofNat 2) alarms.payload)).state.recordsFor 2).map
      (fun r ↦ (r.key, r.isUrgent)) = [([101], true), ([98], true), ([100], true)] ∧
    (twoJobs.loaded true alarms.payload 2).map Record.entry = Wire.entriesFor alarms.payload 2 ∧
      ∀ r ∈ twoJobs.loaded true alarms.payload 2,
        r.key ∈ ((relay.onSignal idleRadio
            (.received (.ofNat 2) alarms.payload)).state.recordsFor 2).map Record.key ∧
          ((relay.onSignal idleRadio
              (.received (.ofNat 2) alarms.payload)).state.holdsUrgent 2 r.key = true ↔
            (true = true ∧ r.isUrgent = true) ∨ relay.holdsUrgent 2 r.key = true) := by
  have distinct : twoJobs.DistinctIds := by
    unfold DistinctIds
    decide
  have sent : takenFrame? (twoJobs.flush idleRadio true).outputs = some alarms := by
    decide +kernel
  have distinct' : relay.DistinctIds := by
    unfold DistinctIds
    decide
  have keeps : relay.KeepsIdentity := by
    simp [KeepsIdentity, relay, Store.keepsIdentity_latest]
  have bound : ∀ acc ∈ twoJobs.accumulators, relay.accumulator? acc.id ≠ none := by
    simp [twoJobs, relay, accumulator?]
  have room : relay.HasRoomFor alarms.payload := by decide +kernel
  exact ⟨⟨distinct, sent, distinct', keeps, rfl, rfl, bound, room⟩, by decide +kernel,
    urgent_hop distinct sent distinct' keeps rfl rfl bound room idleRadio (.ofNat 2) rfl 2⟩

/-- A node with one job that was just started and has heard of a parent. -/
def started (address parent : Nat) : Node :=
  (Node.opened (.ofNat address) false {} (.ofList [])).state.performed
    [.bind { id := 1, job := Bytewise.alarm }, .beacon (.heard (.ofNat parent) 0)]

/-- What is sent by the schedule after an urgent record was stored. -/
def scheduled : Outgoing := ⟨.ofNat 1, [0, 1, 1, 6, 1, 1, 97, 1], 4⟩

/-- An urgent record that leaves by the schedule, as all ready records do then, is not urgent where
it arrives: the frame says so of all that it carries. -/
theorem scheduled_hop_loses_urgency :
    takenFrame? (((started 2 1).performed [.sow 1 0 [97] [1]]).flush idleRadio false).outputs =
      some scheduled ∧
    (((started 2 1).performed [.sow 1 0 [97] [1]]).loaded false scheduled.payload 1).map
      (fun r ↦ (r.key, r.isUrgent)) = [([97], true)] ∧
    (started 1 0).HasRoomFor scheduled.payload ∧
    (((started 1 0).onSignal idleRadio
      (.received (.ofNat 2) scheduled.payload)).state.recordsFor 1).map
        (fun r ↦ (r.key, r.isUrgent)) = [([97], false)] ∧
    ¬∀ r ∈ ((started 2 1).performed [.sow 1 0 [97] [1]]).loaded false scheduled.payload 1,
      ((started 1 0).onSignal idleRadio
          (.received (.ofNat 2) scheduled.payload)).state.holdsUrgent 1 r.key = true ↔
        r.isUrgent = true ∨ (started 1 0).holdsUrgent 1 r.key = true := by
  decide +kernel

end Node
end CollectionTree
