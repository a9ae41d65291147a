import CollectionTree.Proofs.Store.Emission
import CollectionTree.Proofs.Wire.Decoding

/-!
# What a received payload does to a store

A store takes in one candidate for every entry that the payload carries for it, and nothing else of
the payload touches it: `feed_segmentFor` says so whatever the payload's bytes are.
-/

namespace CollectionTree

namespace Store

/-- The candidate that an entry makes. -/
def candidateOf (urgent : Bool) (entry : Wire.Entry) : Record :=
  if urgent then Record.urgent ⟨entry.key, entry.value, {}⟩ else ⟨entry.key, entry.value, {}⟩

/-- A candidate has the entry that it was made of. -/
@[simp] theorem entry_candidateOf (urgent : Bool) (entry : Wire.Entry) :
    (candidateOf urgent entry).entry = entry := by
  unfold candidateOf
  split <;> rfl

/-- A candidate has the key of its entry. -/
@[simp] theorem key_candidateOf (urgent : Bool) (entry : Wire.Entry) :
    (candidateOf urgent entry).key = entry.key :=
  congrArg Wire.Entry.key (entry_candidateOf urgent entry)

/-- A candidate is urgent if the frame was. -/
@[simp] theorem isUrgent_candidateOf (urgent : Bool) (entry : Wire.Entry) :
    (candidateOf urgent entry).isUrgent = urgent := by
  unfold candidateOf
  split <;> simp_all [Record.isUrgent, Record.urgent, Record.mark, Flags.union, Flags.urgentOnly]

/-- Every entry whose lengths one byte can state makes a candidate. -/
theorem candidates_eq_map {urgent : Bool} {entries : List Wire.Entry}
    (stated : ∀ e ∈ entries, e.key.length + e.value.length ≤ Wire.maxFieldLength) :
    candidates urgent entries = entries.map (candidateOf urgent) := by
  induction entries with
  | nil => rfl
  | cons e rest ih =>
    have made : Record.ofEntry e = .ok ⟨e.key, e.value, {}⟩ :=
      (Record.make_eq_ok_iff ..).2 ⟨stated e (by simp), rfl⟩
    have later := ih fun d hd ↦ stated d (by simp [hd])
    unfold candidates at later ⊢
    rw [List.filterMap_cons, made]
    simp only [later, List.map_cons, List.cons.injEq, and_true]
    rfl

/-- The candidates that a payload has for the owner of some records. -/
def arrivals (payload : Bytes) (owner : UInt8) : List Record :=
  (Wire.entriesFor payload owner).map (candidateOf (Wire.flaggedUrgent payload))

/-- The arrivals for an owner are the entries that the payload has for it. -/
@[simp] theorem map_entry_arrivals (payload : Bytes) (owner : UInt8) :
    (arrivals payload owner).map Record.entry = Wire.entriesFor payload owner := by
  simp [arrivals, Function.comp_def]

/-- The arrivals for an owner have the keys that the payload has for it. -/
theorem map_key_arrivals (payload : Bytes) (owner : UInt8) :
    (arrivals payload owner).map Record.key =
      (Wire.entriesFor payload owner).map Wire.Entry.key := by
  simp [arrivals, Function.comp_def]

/-- What holds of all entries for an owner holds of what arrives. -/
theorem forall_mem_arrivals {P : Wire.Entry → Prop} {payload : Bytes} {owner : UInt8}
    (h : ∀ e ∈ Wire.entriesFor payload owner, P e) : ∀ c ∈ arrivals payload owner, P c.entry := by
  rw [← map_entry_arrivals] at h
  intro c hc
  exact h c.entry (List.mem_map.2 ⟨c, hc, rfl⟩)

/-- The store after it took in a payload. -/
def taking (payload : Bytes) (store : Store) : Store :=
  (store.emitAll (arrivals payload store.id)).2

/-- The segment that is found for a store is what it takes in of the payload. -/
theorem feed_segmentFor (store : Store) {payload : Bytes} {frame : Wire.Frame}
    (parsed : Wire.Frame.parse payload = .ok frame) :
    (if (frame.segmentFor store.id).isEmpty then store
      else (store.feed (frame.segmentFor store.id) frame.isUrgent).2) = store.taking payload := by
  have urgent : Wire.flaggedUrgent payload = frame.isUrgent := by simp [Wire.flaggedUrgent, parsed]
  have stated := Wire.stated_entriesFor payload store.id
  unfold taking arrivals
  rw [← candidates_eq_map stated, urgent]
  simp only [Wire.entriesFor, parsed]
  rcases frame.owner_segmentFor store.id with none | ⟨header, decoded, owner⟩
  · simp [none, Wire.Segment.parse, Wire.SegmentHeader.decode, bind, Except.bind, candidates,
      emitAll]
  · have nonempty : (frame.segmentFor store.id).isEmpty = false := by
      cases h : frame.segmentFor store.id with
      | nil => simp [h, Wire.SegmentHeader.decode] at decoded
      | cons head rest => rfl
    simp only [nonempty, feed, decoded, owner]
    cases Wire.Segment.parse (frame.segmentFor store.id) >>= Wire.Segment.entries with
    | error cause => simp [candidates, emitAll]
    | ok entries => simp

/-- Taking a payload in keeps the id. -/
@[simp] theorem id_taking (payload : Bytes) (store : Store) :
    (store.taking payload).id = store.id :=
  id_emitAll ..

/-- Taking a payload in keeps the job. -/
@[simp] theorem job_taking (payload : Bytes) (store : Store) :
    (store.taking payload).job = store.job :=
  job_emitAll ..

/-- A payload without entries for a store leaves it alone. -/
theorem taking_of_entriesFor_eq_nil {payload : Bytes} {store : Store}
    (h : Wire.entriesFor payload store.id = []) : store.taking payload = store := by
  simp [taking, arrivals, h, emitAll]

end Store
end CollectionTree
