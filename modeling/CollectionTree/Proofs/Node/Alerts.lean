import CollectionTree.Proofs.Node.Forwarding
import CollectionTree.Proofs.Node.Sightings
import CollectionTree.Proofs.Store.Transfer

/-!
# Sightings that are passed on at once

A node that is not the sink passes an urgent sighting on as soon as it learns of it, if nothing of
it is on its way. A frame has room for one sighting at least, so as long as a node learns of one
sighting at a time, none is left behind: `Forwards.alert`.
-/

namespace CollectionTree
namespace Node

/-- An urgent frame with at most one sighting. -/
structure Alert (frame : Outgoing) : Prop where
  urgent : Wire.flaggedUrgent frame.payload = true
  single : (carriedKeys (some frame) Detect.jobId).length ≤ 1

/-- No sighting is urgent. -/
def Slow (n : Node) : Prop := ∀ r ∈ n.recordsFor Detect.jobId, r.isUrgent = false

/-- Every urgent sighting is on its way. -/
def Swift (n : Node) : Prop :=
  ∀ r ∈ n.recordsFor Detect.jobId, r.isUrgent = true → r.isPending = true

variable {n n' : Node} {size : Nat} {frame : Option Outgoing} {key : Bytes}
  {candidates : List Record}

/-- Where no sighting is urgent, every urgent one is on its way. -/
theorem Slow.swift (h : n.Slow) : n.Swift := by
  intro r hr urgent
  rw [h r hr] at urgent
  cases urgent

/-- Where nothing is on its way, nothing urgent is left. -/
theorem Swift.slow (h : n.Swift) (forwards : n.Forwards size none) : n.Slow := by
  intro r hr
  have none : Accumulator.pending (n.recordsFor Detect.jobId) = [] := forwards.clear Detect.jobId
  cases urgent : r.isUrgent with
  | false => rfl
  | true =>
    have mem : r ∈ Accumulator.pending (n.recordsFor Detect.jobId) :=
      List.mem_filter.2 ⟨hr, h r hr urgent⟩
    rw [none] at mem
    cases mem

/-- A confirmation takes away all that was urgent. -/
theorem Swift.confirmed (h : n.Swift) : n.confirmed.Slow := by
  intro r hr
  rw [recordsFor_confirmed] at hr
  obtain ⟨hr, free⟩ := List.mem_filter.1 hr
  cases urgent : r.isUrgent with
  | false => rfl
  | true => simp [h r hr urgent] at free

/-- Without urgent records no sighting is urgent. -/
theorem slow_of_isUrgent_eq_false
    (calm : ∀ acc ∈ n.accumulators, ∀ r ∈ acc.records, r.isUrgent = false) : n.Slow := by
  intro r hr
  obtain ⟨acc, hacc, -, hr⟩ := exists_of_mem_recordsFor hr
  exact calm acc hacc r hr

private theorem Slow.not_holdsUrgent (h : n.Slow) (key : Bytes) :
    n.holdsUrgent Detect.jobId key = false := by
  simpa [holdsUrgent, Store.urgentAbout] using fun r hr _ ↦ h r hr

/-- Where nothing was urgent, what came in as urgent is all that is urgent. -/
theorem Learns.holdsUrgent (h : n.Learns candidates n') (slow : n.Slow) (key : Bytes) :
    n'.holdsUrgent Detect.jobId key = Store.urgentAbout key candidates := by
  have before := slow.not_holdsUrgent key
  obtain ⟨store, keeps, all, held, after⟩ := h
  rw [Node.holdsUrgent, held] at before
  rw [Node.holdsUrgent, after, Store.urgentAbout_emitAll keeps, all, Store.urgentAbout_append,
    before, Bool.false_or]

private theorem holdsUrgent_of_mem {r : Record} (hr : r ∈ n.recordsFor Detect.jobId)
    (urgent : r.isUrgent = true) : n.holdsUrgent Detect.jobId r.key = true :=
  Store.urgentAbout_iff.2 ⟨r, hr, rfl, urgent⟩

/-- One thing comes in at a time, so one sighting at most may be sent at once. -/
theorem Learns.length_ready_le (h : n.Learns candidates n') (slow : n.Slow)
    (books : n'.Books shapeOf) (single : candidates.length ≤ 1) :
    (Accumulator.ready true (n'.recordsFor Detect.jobId)).length ≤ 1 := by
  have distinct := (Accumulator.keys_ready_sublist true (n'.recordsFor Detect.jobId)).nodup
    (books.nodup_recordsFor Detect.jobId)
  have among : (Accumulator.ready true (n'.recordsFor Detect.jobId)).map Wire.Entry.key ⊆
      candidates.map Record.key := by
    intro key mem
    obtain ⟨e, he, rfl⟩ := List.mem_map.1 mem
    obtain ⟨r, hr, rfl⟩ := List.mem_map.1 he
    obtain ⟨hr, eligible⟩ := List.mem_filter.1 hr
    have urgent : r.isUrgent = true := by
      simpa [Record.eligible] using (Bool.and_eq_true_iff.1 eligible).2
    have came := holdsUrgent_of_mem hr urgent
    rw [h.holdsUrgent slow] at came
    obtain ⟨c, hc, same, -⟩ := Store.urgentAbout_iff.1 came
    exact List.mem_map.2 ⟨c, hc, same⟩
  have few := (distinct.subperm among).length_le
  rw [List.length_map, List.length_map] at few
  exact few.trans single

namespace Forwards

/-- Only sightings are ever urgent. -/
theorem isUrgent_eq_false (h : n.Forwards size frame) (slow : n.Slow) :
    ∀ acc ∈ n.accumulators, ∀ r ∈ acc.records, r.isUrgent = false := by
  intro acc hacc r hr
  have held : r ∈ n.recordsFor acc.id := by
    rwa [recordsFor_of_mem h.distinct hacc]
  rcases h.eq_jobId_of_mem held with id | id
  · exact h.routine r (id ▸ held)
  · exact slow r (id ▸ held)

/-- Nothing but sightings is ever sent at once. -/
theorem ready_eq_nil_of_ne (h : n.Forwards size frame) {id : UInt8} (other : id ≠ Detect.jobId) :
    Accumulator.ready true (n.recordsFor id) = [] := by
  rw [Accumulator.ready, List.map_eq_nil_iff, List.filter_eq_nil_iff]
  intro r hr
  rcases h.eq_jobId_of_mem hr with rfl | same
  · simp [Record.eligible, h.routine r hr]
  · exact absurd same other

/-- A frame that is sent at once carries the only sighting that there is to send. -/
theorem carriedKeys_of_ships (h : n.Forwards size frame) {f : Outgoing} (ships : n.Ships true f)
    (single : (Accumulator.ready true (n.recordsFor Detect.jobId)).length ≤ 1) :
    carriedKeys (some f) Detect.jobId =
      (Accumulator.ready true (n.recordsFor Detect.jobId)).map Wire.Entry.key := by
  have front := ships.front Detect.jobId
  have some : carriedKeys (some f) Detect.jobId ≠ [] := by
    obtain ⟨id, loaded⟩ := ships.loaded
    have here := ships.front id
    by_cases detects : id = Detect.jobId
    · exact detects ▸ loaded
    · rw [h.ready_eq_nil_of_ne detects] at here
      exact absurd (List.prefix_nil.1 here) loaded
  have long := List.length_pos_iff.2 some
  have short := front.length_le
  apply front.eq_of_length
  rw [List.length_map] at short ⊢
  omega

/-- A frame of 9 bytes has room for whatever may be sent at once. -/
theorem length_of_mem_ready_le (h : n.Forwards size frame) (roomy : 9 ≤ size) {id : UInt8}
    {e : Wire.Entry} (he : e ∈ Accumulator.ready true (n.recordsFor id)) : e.length ≤
      min (size - Wire.frameHeaderLength) Wire.maxFieldLength - Wire.segmentHeaderLength := by
  by_cases detects : id = Detect.jobId
  · have long : Wire.encodedLength (shapeOf id).key (shapeOf id).value = 5 := by
      rw [detects]
      decide
    rw [h.length_of_mem_ready he, long]
    simp only [Wire.frameHeaderLength, Wire.maxFieldLength, Wire.segmentHeaderLength]
    omega
  · rw [h.ready_eq_nil_of_ne detects] at he
    cases he

section Alert

variable (h : n.Forwards size none) (inner : n.gradient.isSink = false)
  (routed : n.gradient.isRouted = true) {radio : Radio} (free : radio.busy = false)
  (willing : ∀ f : Outgoing, f.payload ≠ [] → radio.busy = false → radio.accepts f = true)
  (roomy : 9 ≤ size) (single : (Accumulator.ready true (n.recordsFor Detect.jobId)).length ≤ 1)

include h inner routed free willing roomy single

/-- The one sighting that there is to send at once is sent. -/
theorem exists_carries (urgent : n.holdsUrgent Detect.jobId key = true) :
    ∃ f, takenFrame? (n.flush radio true).outputs = some f ∧
      key ∈ carriedKeys (some f) Detect.jobId := by
  have clear : ∀ r ∈ n.recordsFor Detect.jobId, r.isPending = false := by
    simpa [Accumulator.pending, List.filter_eq_nil_iff] using h.clear Detect.jobId
  obtain ⟨r, hr, same, urgent⟩ := Store.urgentAbout_iff.1 urgent
  have eligible : r.eligible true = true := by simp [Record.eligible, clear r hr, urgent]
  have ready : r.entry ∈ Accumulator.ready true (n.recordsFor Detect.jobId) :=
    List.mem_map.2 ⟨r, List.mem_filter.2 ⟨hr, eligible⟩, rfl⟩
  obtain ⟨f, taken⟩ := Option.isSome_iff_exists.1 (h.isSome_takenFrame? inner routed free willing
    (fun _ _ he ↦ h.length_of_mem_ready_le roomy he) (List.ne_nil_of_mem ready))
  refine ⟨f, taken, ?_⟩
  rw [h.carriedKeys_of_ships ((h.flush free willing true).2 f taken) single]
  exact List.mem_map.2 ⟨r.entry, ready, same⟩

/-- A node that has nothing on its way and at most one sighting to send at once leaves none behind.
-/
theorem swift_flush : (n.flush radio true).state.Swift := by
  intro r hr urgent
  -- Flushing changes neither keys nor urgency, so the sighting is the one that was sent.
  have views := map_recordsFor_flush h.distinct inner (fun r ↦ (r.key, r.isUrgent))
    (fun r ↦ congrArg (Prod.mk r.key) r.isUrgent_mark_pending)
    (fun r ↦ congrArg (Prod.mk r.key) r.isUrgent_unmark_pending) radio true Detect.jobId
  have before := holdsUrgent_of_mem hr urgent
  rw [holdsUrgent, Store.urgentAbout_congr views] at before
  obtain ⟨f, taken, carried⟩ := h.exists_carries inner routed free willing roomy single before
  have after := (h.flush free willing true).1
  rw [taken] at after
  have marked : r.key ∈ (n.flush radio true).state.pendingKeys Detect.jobId := by
    rw [after.marks]
    exact carried
  obtain ⟨s, hs, pending, same⟩ := mem_pendingKeys.1 marked
  obtain rfl : s = r :=
    List.inj_on_of_nodup_map (after.books.nodup_recordsFor Detect.jobId) hs hr same
  exact pending

/-- Such a node sends the sighting, alone in its frame. -/
theorem alert :
    (n.flush radio true).state.Swift ∧
      (∀ f, takenFrame? (n.flush radio true).outputs = some f → Alert f) ∧
      ∀ key, n.holdsUrgent Detect.jobId key = true →
        ∃ f, takenFrame? (n.flush radio true).outputs = some f ∧
          key ∈ carriedKeys (some f) Detect.jobId := by
  refine ⟨h.swift_flush inner routed free willing roomy single, fun f taken ↦ ?_, fun _ urgent ↦
    h.exists_carries inner routed free willing roomy single urgent⟩
  have ships := (h.flush free willing true).2 f taken
  refine ⟨ships.flagged, ?_⟩
  rw [h.carriedKeys_of_ships ships single, List.length_map]
  exact single

end Alert

end Forwards

/-- A node without frames that learns of one sighting at most and is flushed leaves none behind: the
sink hands it over, and any other node sends it. -/
theorem Learns.passesOn {m : Node} (learns : n.Learns candidates m) (slow : n.Slow)
    (h : m.Forwards size none) (watches : m.Watches) (routed : m.gradient.isRouted = true)
    {radio : Radio} (free : radio.busy = false)
    (willing : ∀ f : Outgoing, f.payload ≠ [] → radio.busy = false → radio.accepts f = true)
    (roomy : 9 ≤ size) (single : candidates.length ≤ 1) :
    let flushed := m.flush radio true
    flushed.state.Swift ∧ (∀ f, takenFrame? flushed.outputs = some f → Alert f) ∧
      ∀ key, Store.urgentAbout key candidates = true →
        (∃ f, takenFrame? flushed.outputs = some f ∧ key ∈ carriedKeys (some f) Detect.jobId) ∨
          Hands flushed.outputs key := by
  intro flushed
  cases sink : m.gradient.isSink with
  | true =>
    have consumed : flushed = ⟨false, m.cleanup .all, consumption m.accumulators⟩ := by
      simp [flushed, Node.flush, h.opened, sink]
    have empty : flushed.state.contents = [] :=
      (h.contents_flush radio true (h.flush free willing true).1).1 sink
    refine ⟨fun r hr ↦ ?_, fun f taken ↦ ?_, fun key urgent ↦ .inr ?_⟩
    · rw [recordsFor_of_contents_eq_nil empty] at hr
      cases hr
    · rw [consumed, takenFrame?_consumption] at taken
      cases taken
    · obtain ⟨c, hc, same, -⟩ := Store.urgentAbout_iff.1 urgent
      rw [consumed]
      apply (hands_consumption h.distinct).2
      exact learns.mem_sightings.2 (.inr (List.mem_map.2 ⟨c, hc, same⟩))
  | false =>
    have few := learns.length_ready_le slow watches.books single
    obtain ⟨swift, alert, sent⟩ := h.alert sink routed free willing roomy few
    refine ⟨swift, alert, fun key urgent ↦ .inl (sent key ?_)⟩
    rwa [learns.holdsUrgent slow]

end Node
end CollectionTree
