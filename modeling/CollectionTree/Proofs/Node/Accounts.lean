import CollectionTree.Proofs.Node.Sending
import Mathlib.Data.List.Nodup

/-!
# What is on its way at a node

A node may have a settled frame of which it has not been told the fate yet, and already a second
frame under way. `Node.Accounted` says that the keys on their way are those that the two frames
carry, and that the second carries one that the first does not. Facts, flushes, arrivals and the
fate of the first frame keep it, as long as there is no second frame by then.
-/

namespace CollectionTree

/-- The keys that a frame carries for an owner; none without a frame. -/
def carriedKeys (frame : Option Outgoing) (owner : UInt8) : List Bytes :=
  match frame with
  | none => []
  | some frame => (Wire.entriesFor frame.payload owner).map Wire.Entry.key

/-- Without a frame no key is carried. -/
@[simp] theorem carriedKeys_none (owner : UInt8) : carriedKeys none owner = [] := rfl

namespace Node

/-- What holds of a node with a settled frame of which it has not been told the fate, and a frame
under way: the keys on their way are those of the two frames, and the second carries a key that the
first does not. -/
structure Accounted (n : Node) (waiting flying : Option Outgoing) : Prop where
  opened : n.closed = false
  distinct : n.DistinctIds
  keeps : n.KeepsIdentity
  nodup : ∀ id, ((n.recordsFor id).map Record.key).Nodup
  marks : ∀ id key, key ∈ n.pendingKeys id ↔
    key ∈ carriedKeys waiting id ∨ key ∈ carriedKeys flying id
  apart : ∀ f g, waiting = some f → flying = some g →
    ∃ id, ∃ key ∈ carriedKeys (some g) id, key ∉ carriedKeys (some f) id
  sink : n.gradient.isSink = true → waiting = none ∧ flying = none

variable {n : Node} {waiting flying : Option Outgoing}

/-- An open node, with distinct keys and with jobs that keep keys and marks, before it sent
anything. -/
structure Unsent (n : Node) : Prop where
  opened : n.closed = false
  distinct : n.DistinctIds
  keeps : n.KeepsIdentity
  nodup : ∀ acc ∈ n.accumulators, (acc.records.map Record.key).Nodup
  clear : ∀ acc ∈ n.accumulators, Accumulator.pending acc.records = []

/-- A node that was just opened has sent nothing. -/
theorem unsent_opened (address : Address) (isSink : Bool) (config : NodeConfig)
    (source : Source) : (Node.opened address isSink config source).state.Unsent where
  opened := rfl
  distinct := List.nodup_nil
  keeps _ mem := nomatch mem
  nodup _ mem := nomatch mem
  clear _ mem := nomatch mem

/-- Binding an empty accumulator sends nothing. -/
theorem Unsent.bind (h : n.Unsent) {acc : Accumulator} (keeps : acc.job.KeepsIdentity)
    (empty : acc.records = []) : ((n.bind acc).toOption.getD n).Unsent := by
  cases bound : n.bind acc with
  | error cause => exact h
  | ok n' =>
    have distinct := distinctIds_bind h.distinct bound
    obtain ⟨-, rfl⟩ := bind_eq_ok bound
    refine ⟨h.opened, distinct, fun other mem ↦ ?_, fun other mem ↦ ?_, fun other mem ↦ ?_⟩
    · rcases List.mem_append.1 mem with mem | mem
      · exact h.keeps other mem
      · rwa [List.mem_singleton.1 mem]
    · rcases List.mem_append.1 mem with mem | mem
      · exact h.nodup other mem
      · simp [List.mem_singleton.1 mem, empty]
    · rcases List.mem_append.1 mem with mem | mem
      · exact h.clear other mem
      · simp [List.mem_singleton.1 mem, empty, Accumulator.pending]

/-- A node that has sent nothing is accounted for. -/
theorem Unsent.accounted (h : n.Unsent) : n.Accounted none none := by
  have holds {P : List Record → Prop} (empty : P [])
      (h : ∀ acc ∈ n.accumulators, P acc.records) (id : UInt8) : P (n.recordsFor id) := by
    cases bound : n.accumulator? id with
    | none => simpa [recordsFor, bound] using empty
    | some acc =>
      have mem := (n.mem_accumulators_of_accumulator? bound).1
      simpa [recordsFor, bound] using h acc mem
  have clear := holds (P := fun records ↦ Accumulator.pending records = []) rfl h.clear
  have nodup := holds (P := fun records ↦ (records.map Record.key).Nodup) .nil h.nodup
  refine ⟨h.opened, h.distinct, h.keeps, nodup, fun id key ↦ by simp [pendingKeys, clear id], ?_,
    fun _ ↦ ⟨rfl, rfl⟩⟩
  intro frame other waits
  cases waits

/-- A node in which only the books, the place in the tree or the draws changed. -/
theorem Accounted.congr (h : n.Accounted waiting flying) {n' : Node}
    (same : n'.accumulators = n.accumulators) (opened : n'.closed = n.closed)
    (isSink : n'.gradient.isSink = n.gradient.isSink) : n'.Accounted waiting flying := by
  have records (id : UInt8) : n'.recordsFor id = n.recordsFor id := by
    rw [recordsFor, accumulator?, same]
    rfl
  refine ⟨opened.trans h.opened, ?_, ?_, fun id ↦ records id ▸ h.nodup id, fun id key ↦ ?_,
    h.apart, isSink ▸ h.sink⟩
  · rw [DistinctIds, same]
    exact h.distinct
  · rw [KeepsIdentity, same]
    exact h.keeps
  · rw [pendingKeys, records]
    exact h.marks id key

/-- A node whose records changed, but neither their keys nor which of them are on their way. -/
theorem Accounted.of_pendingKeys (h : n.Accounted waiting flying) (n' : Node)
    (opened : n'.closed = n.closed) (gradient : n'.gradient = n.gradient)
    (bindings : n'.bindings = n.bindings) (nodup : ∀ id, ((n'.recordsFor id).map Record.key).Nodup)
    (keys : ∀ id, n'.pendingKeys id = n.pendingKeys id) : n'.Accounted waiting flying :=
  ⟨opened.trans h.opened, (distinctIds_of_bindings_eq bindings).2 h.distinct,
    (keepsIdentity_of_bindings_eq bindings).2 h.keeps, nodup,
    fun id key ↦ keys id ▸ h.marks id key, h.apart, gradient ▸ h.sink⟩

/-- A fact keeps the account of frames. -/
theorem Accounted.sow (h : n.Accounted waiting flying) (id : UInt8) (elapsed : Nat)
    (key value : Bytes) : (n.sow id elapsed key value).2.Accounted waiting flying := by
  have same := n.sow_keeps id elapsed key value
  apply h.of_pendingKeys _ same.2 same.1 (n.bindings_sow ..)
  · intro other
    exact (n.took_sow id elapsed key value other).nodup h.keeps (h.nodup other)
  · exact pendingKeys_sow h.keeps id elapsed key value

/-- A payload that is taken in keeps the account of frames. -/
theorem Accounted.takingIn (h : n.Accounted waiting flying) (payload : Bytes) :
    (n.takingIn payload).Accounted waiting flying := by
  apply h.of_pendingKeys _ (n.closed_takingIn payload) (n.gradient_takingIn payload)
    (n.bindings_takingIn payload)
  · intro id
    have took := took_receive { n with counters := n.counters.addReceived } payload id
    exact took.nodup h.keeps (h.nodup id)
  · exact pendingKeys_takingIn h.keeps payload

/-- The keys on their way are those of records on their way. -/
theorem mem_pendingKeys {id : UInt8} {key : Bytes} :
    key ∈ n.pendingKeys id ↔ ∃ r ∈ n.recordsFor id, r.isPending = true ∧ r.key = key := by
  simp [pendingKeys, Accumulator.pending, and_assoc]

/-- The keys that a frame carries are those of its entries for the owner. -/
theorem mem_carriedKeys {frame : Outgoing} {id : UInt8} {key : Bytes} :
    key ∈ carriedKeys (some frame) id ↔
      ∃ entry ∈ Wire.entriesFor frame.payload id, entry.key = key := by
  simp [carriedKeys]

/-- A key that a new frame carries was not on its way before. -/
theorem Accounted.not_mem_pendingKeys (h : n.Accounted waiting flying) {urgent : Bool}
    {payload : Bytes} (carries : Carries urgent n.accumulators payload) {id : UInt8}
    {entry : Wire.Entry} (mem : entry ∈ Wire.entriesFor payload id) :
    entry.key ∉ n.pendingKeys id := by
  intro pending
  obtain ⟨r, hr, marked, same⟩ := mem_pendingKeys.1 pending
  obtain ⟨s, hs, rfl⟩ := List.mem_map.1 ((carries.ready_recordsFor id).subset mem)
  obtain ⟨hs, eligible⟩ := List.mem_filter.1 hs
  obtain rfl : r = s := List.inj_on_of_nodup_map (h.nodup id) hr hs same
  rw [Record.not_isPending_of_eligible eligible] at marked
  cases marked

/-- Nothing is on its way at a node without frames. -/
theorem Accounted.pendingKeys_eq_nil (h : n.Accounted none none) (id : UInt8) :
    n.pendingKeys id = [] := by
  rw [List.eq_nil_iff_forall_not_mem]
  intro key mem
  simpa using (h.marks id key).1 mem

private theorem Accounted.consumed (h : n.Accounted none none) :
    (n.cleanup .all).Accounted none none := by
  have records (id : UInt8) := n.recordsFor_cleanup .all id
  refine h.of_pendingKeys (n.cleanup .all) rfl rfl (n.bindings_cleanup .all)
    (fun id ↦ ?_) fun id ↦ ?_
  · rw [records]
    exact (h.nodup id).sublist (List.filter_sublist.map _)
  · rw [h.pendingKeys_eq_nil, List.eq_nil_iff_forall_not_mem]
    intro key mem
    obtain ⟨r, hr, marked, rfl⟩ := mem_pendingKeys.1 mem
    rw [records] at hr
    have before := mem_pendingKeys.2 ⟨r, (List.mem_filter.1 hr).1, marked, rfl⟩
    simp [h.pendingKeys_eq_nil] at before

/-- A frame that is taken carries keys that were not on their way. -/
theorem Accounted.taken (h : n.Accounted waiting none) {gate : Gate} {source : Source}
    {urgent : Bool} (frame : Outgoing) (inner : n.gradient.isSink = false)
    (carries : Carries urgent n.accumulators frame.payload)
    (loaded : ∃ owner, Wire.entriesFor frame.payload owner ≠ []) :
    Accounted { n with
      gate, source
      accumulators := markAll urgent (Wire.entriesFor frame.payload) n.accumulators }
      waiting (some frame) where
  opened := h.opened
  distinct := by simpa [DistinctIds, markAll, Function.comp_def] using h.distinct
  keeps := by simpa [KeepsIdentity, markAll] using h.keeps
  nodup id := by
    rw [recordsFor_markAll, ← Record.map_key_map_entry, Accumulator.map_entry_markReady,
      Record.map_key_map_entry]
    exact h.nodup id
  marks id key := by
    rw [mem_pendingKeys_markAll carries, h.marks id key]
    simp [carriedKeys]
  apart f g first second := by
    obtain rfl := Option.some.inj second
    obtain ⟨owner, loaded⟩ := loaded
    obtain ⟨entry, mem⟩ := List.exists_mem_of_ne_nil _ loaded
    refine ⟨owner, entry.key, mem_carriedKeys.2 ⟨entry, mem, rfl⟩, fun carried ↦ ?_⟩
    refine h.not_mem_pendingKeys carries mem ((h.marks owner entry.key).2 (.inl ?_))
    rwa [first]
  sink sink := absurd sink (by simp [inner])

/-- A flush, where the radio is busy while a frame is under way and otherwise takes every frame. -/
theorem Accounted.flushed (h : n.Accounted waiting flying) {radio : Radio} {urgent : Bool}
    (busy : radio.busy = flying.isSome)
    (willing : ∀ frame, frame.payload ≠ [] → radio.busy = false → radio.accepts frame = true)
    {reaction : Reaction Bool Node Output} (step : Flushed n radio urgent reaction) :
    reaction.state.Accounted waiting ((takenFrame? reaction.outputs).or flying) := by
  cases step with
  | idle gate source => exact h.congr rfl rfl rfl
  | consumed sink =>
    obtain ⟨rfl, rfl⟩ := h.sink sink
    rw [takenFrame?_consumption]
    exact h.consumed
  | @taken gate source parent payload inner route free accepted carries loaded =>
    obtain rfl : flying = none := by simpa [free] using busy.symm
    exact h.taken ⟨parent, payload, n.config.maxRetries⟩ inner carries loaded
  | refused gate source inner free filled rejected =>
    rw [willing _ filled free] at rejected
    cases rejected

/-- The node was told the fate of its frame. -/
def SettledAs (n n' : Node) : Prop := n' = n.confirmed ∨ n' = n.givenUp

/-- What a completion removes or makes ready again is what was on its way. -/
theorem SettledAs.not_mem_iff {n n' : Node} (settled : n.SettledAs n') {id : UInt8} {r : Record}
    (hr : r ∈ n.recordsFor id) : r ∉ n'.recordsFor id ↔ r.isPending = true := by
  rcases settled with rfl | rfl
  · rw [recordsFor_confirmed]
    simp [hr]
  · rw [recordsFor_givenUp]
    constructor
    · intro gone
      cases marked : r.isPending with
      | true => rfl
      | false =>
        exact absurd (List.mem_map.2 ⟨r, hr, Record.unmark_pending_of_not marked⟩) gone
    · rintro marked mem
      obtain ⟨s, -, rfl⟩ := List.mem_map.1 mem
      simp at marked

/-- Once the fate of a frame was told it is no longer waited for. -/
theorem Accounted.settled (h : n.Accounted waiting none) {n' : Node} (settled : n.SettledAs n') :
    n'.Accounted none none := by
  have clear (id : UInt8) : n'.pendingKeys id = [] := by
    rcases settled with rfl | rfl
    · exact n.pendingKeys_confirmed id
    · exact n.pendingKeys_givenUp id
  have bindings : n'.bindings = n.bindings := by
    rcases settled with rfl | rfl
    · exact n.bindings_confirmed
    · exact n.bindings_givenUp
  refine ⟨?_, (distinctIds_of_bindings_eq bindings).2 h.distinct,
    (keepsIdentity_of_bindings_eq bindings).2 h.keeps, fun id ↦ ?_, fun id key ↦ ?_,
    (fun _ _ none ↦ nomatch none), fun _ ↦ ⟨rfl, rfl⟩⟩
  · rcases settled with rfl | rfl <;> exact h.opened
  · rcases settled with rfl | rfl
    · rw [recordsFor_confirmed]
      exact (h.nodup id).sublist (List.filter_sublist.map _)
    · have keys : (n.givenUp.recordsFor id).map Record.key = (n.recordsFor id).map Record.key := by
        simp [recordsFor_givenUp, Record.unmark]
      rw [keys]
      exact h.nodup id
  · simp [clear]

end Node

end CollectionTree
