import CollectionTree.Proofs.Node.Sending
import CollectionTree.Workload.Bytewise

/-!
# What a node makes of arbitrary bytes

Whatever the radio delivers, each accumulator takes in the records of the first segment for it that
the walk over the payload reaches, or nothing where that segment is broken. What comes after that
segment has no part in what is taken in, and an accumulator that takes nothing in might as well not
be bound.

The main statement is `Node.takesIn_addressed`. The accumulators share one ledger, so what comes
after a segment can still decide whether there is room for its records: `Node.crowded_out`.
-/

namespace CollectionTree

namespace Wire

/-- How many bytes of a payload are up to the end of the segment that starts with the last so many:
its header, and as much as it declares. -/
def endOf (payload bytes : Bytes) (header : SegmentHeader) : Nat :=
  payload.length - bytes.length + max segmentHeaderLength header.declared

/-- A header is read from its two bytes. -/
theorem decode_congr {bytes more : Bytes} {count : Nat} (covers : segmentHeaderLength ≤ count)
    (same : more.take count = bytes.take count) :
    SegmentHeader.decode more = SegmentHeader.decode bytes := by
  have front (bytes : Bytes) : SegmentHeader.decode bytes =
      SegmentHeader.decode (bytes.take count) := by
    obtain ⟨rest, rfl⟩ : ∃ rest, count = rest + 2 :=
      ⟨count - 2, by simp only [segmentHeaderLength] at covers; omega⟩
    rcases bytes with _ | ⟨first, _ | ⟨second, behind⟩⟩
    · rfl
    · simp
    · rfl
  rw [front more, same, ← front bytes]

end Wire

namespace Store

private theorem flaggedUrgent_of_firstFor {payload bytes : Bytes} {owner : UInt8}
    {header : Wire.SegmentHeader} (h : Wire.firstFor payload owner = some (header, bytes)) :
    Wire.flaggedUrgent payload = (payload.headD 0 != 0) := by
  match payload with
  | [] | [_] =>
    simp [Wire.firstFor, Wire.Frame.parse, Wire.FrameHeader.decode, bind, Except.bind] at h
  | urgency :: count :: body => exact Wire.Urgency.isUrgent_ofByte urgency

/-- The candidates of a payload for an owner are made of the first segment for it. -/
theorem arrivals_of_reads {payload bytes : Bytes} {owner : UInt8} {header : Wire.SegmentHeader}
    {reading : Option (List Wire.Entry)} (h : Wire.firstFor payload owner = some (header, bytes))
    (reads : Wire.Reads header bytes reading) :
    arrivals payload owner = (reading.getD []).map (candidateOf (payload.headD 0 != 0)) := by
  rw [arrivals, Wire.entriesFor_of_reads h reads, flaggedUrgent_of_firstFor h]

/-- What comes after the first segment for an owner does not change the candidates for it. -/
theorem arrivals_congr {payload payload' bytes : Bytes} {owner : UInt8}
    {header : Wire.SegmentHeader} (h : Wire.firstFor payload owner = some (header, bytes))
    (same : payload'.take (Wire.endOf payload bytes header) =
      payload.take (Wire.endOf payload bytes header)) :
    arrivals payload' owner = arrivals payload owner := by
  obtain ⟨reading, reads⟩ := Wire.exists_reads header bytes
  obtain ⟨front, rfl, later⟩ := Wire.firstFor_append h
  have reach : Wire.endOf (front ++ bytes) bytes header =
      front.length + max Wire.segmentHeaderLength header.declared := by
    simp [Wire.endOf]
  rw [reach, List.take_length_add_append] at same
  have split : payload' = front ++ payload'.drop front.length := by
    have start : payload'.take front.length = front := by
      have := congrArg (List.take front.length) same
      simpa [List.take_take] using this
    conv => lhs; rw [← List.take_append_drop front.length payload', start]
  generalize payload'.drop front.length = more at split
  subst split
  rw [List.take_length_add_append, List.append_cancel_left_eq] at same
  have again := (Wire.decode_congr (Nat.le_max_left ..) same).trans (Wire.decode_of_firstFor h)
  obtain ⟨found, urgent⟩ := later more again
  rw [arrivals, arrivals, Wire.entriesFor_of_reads h reads,
    Wire.entriesFor_of_reads found (reads.congr same), urgent]

end Store

namespace Node

/-- Where an operation leaves the accumulators with some ids alone, their turns can be left out. -/
theorem onEach_filter {operation : Store → Store} {idle : UInt8 → Bool}
    (keeps : ∀ store, (operation store).id = store.id)
    (still : ∀ store, idle store.id = true → operation store = store) (n : Node) :
    { n with accumulators := n.accumulators.filter fun acc ↦ !idle acc.id }.onEach operation =
      { n.onEach operation with
        accumulators := (n.onEach operation).accumulators.filter fun acc ↦ !idle acc.id } := by
  have each (ledger : Ledger) (counters : Counters) (accs : List Accumulator) :
      runEach operation ledger counters (accs.filter fun acc ↦ !idle acc.id) =
        ((runEach operation ledger counters accs).1.filter fun acc ↦ !idle acc.id,
          (runEach operation ledger counters accs).2) := by
    induction accs generalizing ledger counters with
    | nil => rfl
    | cons acc rest ih =>
      have id := keeps { toAccumulator := acc, ledger, counters }
      by_cases skipped : idle acc.id = true
      · have same := still { toAccumulator := acc, ledger, counters } skipped
        simp [runEach, skipped, ih, same]
      · simp [runEach, skipped, ih, id]
  simp only [onEach, each]

/-- An open node that receives a payload takes it in and then flushes urgent records. A payload of
fewer than two bytes is counted and otherwise ignored; any other is offered to each accumulator in
turn. An accumulator that the walk reaches no segment for stays as it is. With a first segment for
it, what that amounts to decides: where it is broken the accumulator stays as it is, and otherwise
each of its records is emitted in order, urgent exactly if the first byte is not zero. Another
payload that agrees up to the end of that segment comes to the same; what the accumulator then holds
differs at most with the candidates that the ledger refuses. The accumulators that take nothing in
make no difference to the others, the ledger and the counters. -/
theorem takesIn_addressed (n : Node) (opened : n.closed = false) (radio : Radio) (sender : Address)
    (payload : Bytes) :
    n.onSignal radio (.received sender payload) =
      ⟨(), ((n.takingIn payload).flush radio true).state,
        ((n.takingIn payload).flush radio true).outputs⟩ ∧
    (payload.length < 2 → n.takingIn payload = { n with counters := n.counters.addReceived }) ∧
    n.takingIn payload =
      { n with counters := n.counters.addReceived }.onEach (Store.taking payload) ∧
    (∀ store : Store, Wire.firstFor payload store.id = none → store.taking payload = store) ∧
    (∀ (store : Store) (header : Wire.SegmentHeader) (bytes : Bytes),
      Wire.firstFor payload store.id = some (header, bytes) →
      (∃ reading, Wire.Reads header bytes reading) ∧
      (∀ reading, Wire.Reads header bytes reading → store.taking payload =
        reading.elim store fun entries ↦
          (store.emitAll (entries.map (Store.candidateOf (payload.headD 0 != 0)))).2) ∧
      ∀ payload', payload'.take (Wire.endOf payload bytes header) =
          payload.take (Wire.endOf payload bytes header) →
        store.taking payload' = store.taking payload ∧
        ∀ other : Store, other.toAccumulator = store.toAccumulator →
          other.accepted (Store.arrivals payload store.id) =
            store.accepted (Store.arrivals payload store.id) →
          (other.taking payload').toAccumulator = (store.taking payload).toAccumulator) ∧
    ∀ idle : UInt8 → Bool, (∀ id, idle id = true → ∀ header bytes,
        Wire.firstFor payload id = some (header, bytes) → Wire.Reads header bytes none) →
      { n with accumulators := n.accumulators.filter fun acc ↦ !idle acc.id }.takingIn payload =
        { n.takingIn payload with
          accumulators := (n.takingIn payload).accumulators.filter fun acc ↦ !idle acc.id } := by
  have unreached (store : Store) (h : Wire.firstFor payload store.id = none) :
      store.taking payload = store :=
    Store.taking_of_entriesFor_eq_nil (Wire.entriesFor_of_firstFor_eq_none h)
  have reached (store : Store) {header : Wire.SegmentHeader} {bytes : Bytes}
      (h : Wire.firstFor payload store.id = some (header, bytes))
      {reading : Option (List Wire.Entry)} (reads : Wire.Reads header bytes reading) :
      store.taking payload = reading.elim store fun entries ↦
        (store.emitAll (entries.map (Store.candidateOf (payload.headD 0 != 0)))).2 := by
    rw [Store.taking, Store.arrivals_of_reads h reads]
    cases reading <;> rfl
  refine ⟨onSignal_received opened radio sender payload, ?_, receive_eq _ payload, unreached, ?_,
    ?_⟩
  · intro short
    rcases payload with _ | ⟨first, _ | ⟨second, behind⟩⟩
    · rfl
    · rfl
    · simp only [List.length_cons] at short
      omega
  · intro store header bytes h
    refine ⟨Wire.exists_reads header bytes, fun reading reads ↦ reached store h reads, ?_⟩
    intro payload' same
    have arrivals := Store.arrivals_congr h same
    refine ⟨by rw [Store.taking, Store.taking, arrivals], fun other alike refused ↦ ?_⟩
    have id : other.id = store.id := congrArg Accumulator.id alike
    rw [Store.taking, Store.taking, Store.toAccumulator_emitAll, Store.toAccumulator_emitAll, id,
      arrivals, refused, alike]
  · intro idle broken
    have still (store : Store) (h : idle store.id = true) : store.taking payload = store := by
      cases found : Wire.firstFor payload store.id with
      | none => exact unreached store found
      | some first => exact reached store found (broken _ h _ _ found)
    rw [takingIn, takingIn, receive_eq, receive_eq]
    exact onEach_filter (Store.id_taking payload) still
      { n with counters := n.counters.addReceived }

/-- A node with room for one small record, bound to 2 and then to 1. -/
def roomForOne : Node where
  address := .ofNat 2
  gradient := .initial false
  accumulators := [{ id := 2, job := Bytewise.wordSum }, { id := 1, job := Bytewise.wordSum }]
  ledger := { limit := some 10 }
  config := {}
  source := .ofSeed 3

/-- A payload with a record for 2 that is not all there, and one for 1. -/
def brokenThenWhole : Bytes := [0, 2, 2, 6, 9, 1, 121, 9, 1, 6, 1, 1, 120, 7]

/-- The record for 1 is taken in, and nothing for 2. -/
theorem takesIn_addressed_brokenThenWhole :
    roomForOne.closed = false ∧
      (∀ store : Store, store.id = 2 → store.taking brokenThenWhole = store) ∧
      ∀ store : Store, store.id = 1 →
        store.taking brokenThenWhole = (store.emitAll [⟨[120], [7], {}⟩]).2 := by
  obtain ⟨-, -, -, -, reached, -⟩ :=
    takesIn_addressed roomForOne rfl ⟨false, fun _ ↦ true⟩ (.ofNat 1) brokenThenWhole
  have broken : Wire.Reads ⟨2, 6⟩ [2, 6, 9, 1, 121, 9, 1, 6, 1, 1, 120, 7] none :=
    @Wire.Reads.cut _ _ [] [9, 1, 121, 9] (by decide) (by decide) rfl (by decide) rfl
  have whole : Wire.Reads ⟨1, 6⟩ [1, 6, 1, 1, 120, 7] (some [⟨[120], [7]⟩]) :=
    .whole (by decide) (by decide) rfl
  refine ⟨rfl, fun store id ↦ ?_, fun store id ↦ ?_⟩
  · exact (reached store _ _ (by rw [id]; rfl)).2.1 none broken
  · exact (reached store _ _ (by rw [id]; rfl)).2.1 _ whole

/-- Bytes after the segment for 1, which make one for 2, take the room that the record for 1 needs.
-/
theorem crowded_out :
    let alone : Bytes := [0, 2, 1, 6, 1, 1, 120, 7]
    let crowded : Bytes := alone ++ [2, 6, 1, 1, 121, 9]
    Wire.firstFor crowded 1 = some (⟨1, 6⟩, [1, 6, 1, 1, 120, 7] ++ [2, 6, 1, 1, 121, 9]) ∧
      crowded.take (Wire.endOf crowded ([1, 6, 1, 1, 120, 7] ++ [2, 6, 1, 1, 121, 9]) ⟨1, 6⟩) =
        alone ∧
      (roomForOne.takingIn alone).recordsFor 1 = [⟨[120], [7], ⟨true, false, false⟩⟩] ∧
      (roomForOne.takingIn crowded).recordsFor 1 = [] := by
  decide +kernel

end Node

end CollectionTree
