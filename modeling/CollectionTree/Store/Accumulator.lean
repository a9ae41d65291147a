import CollectionTree.Duration
import CollectionTree.Store.Counters
import CollectionTree.Store.Job
import CollectionTree.Store.Ledger
import CollectionTree.Wire.Segment

/-!
# Accumulators and stores

An accumulator keeps the records of one job, at most one for each key as long as the job leaves keys
alone. A store is an accumulator together with the ledger that its records are charged to and the
counters that it reports to; several accumulators of one node share both.

A record enters by `Store.emit`, which folds it into the record about the same key or else puts a
copy in front. `Accumulator.gather` writes the records that are ready into a segment and marks them
pending; `Store.cleanup` removes records by their marks, and `Accumulator.releasePending` makes
pending ones ready again.
-/

namespace CollectionTree

/-- The flush interval of an accumulator that asks for no other. -/
def defaultFlushInterval : Duration := .ofSecs 30

/-- The records of one job, the newest key first. Segments are addressed by the id, and the job
would like to be flushed in every interval. -/
structure Accumulator where
  id : UInt8
  job : Job
  interval : Duration := defaultFlushInterval
  records : List Record := []

namespace Accumulator

/-- The bytes that the records cost. -/
def footprint (acc : Accumulator) : Nat := Record.footprints acc.records

/-- The first record about a key. -/
def find? (acc : Accumulator) (key : Bytes) : Option Record :=
  acc.records.find? (·.about key)

/-- How many records bear one of these marks. -/
def size (acc : Accumulator) (flags : Flags) : Nat := acc.records.countP (·.bears flags)

/-- Change the first record about a key, if there is one. -/
def modifyFirst? (key : Bytes) (change : Record → Record) : List Record → Option (List Record)
  | [] => none
  | r :: rest =>
    if r.about key then some (change r :: rest)
    else (modifyFirst? key change rest).map (r :: ·)

/-- Change the accumulator's first record about a key, if there is one. -/
def modify? (acc : Accumulator) (key : Bytes) (change : Record → Record) : Option Accumulator :=
  (modifyFirst? key change acc.records).map fun records ↦ { acc with records }

/-- Write the ready records, in order and up to the first that does not fit, and mark them pending.
-/
def gatherFrom (urgentOnly : Bool) :
    Wire.SegmentWriter → List Record → Wire.SegmentWriter × List Record
  | writer, [] => (writer, [])
  | writer, r :: rest =>
    if r.eligible urgentOnly then
      match writer.push? r.entry with
      | none => (writer, r :: rest)
      | some written =>
        let (last, marked) := gatherFrom urgentOnly written rest
        (last, r.mark .pendingOnly :: marked)
    else
      let (last, marked) := gatherFrom urgentOnly writer rest
      (last, r :: marked)

/-- Write the ready records into a segment of at most `room` bytes, in order and up to the first
that does not fit, and mark them pending. There is no segment if nothing was written. -/
def gather (acc : Accumulator) (room : Nat) (urgentOnly : Bool) : Bytes × Accumulator :=
  match Wire.SegmentWriter.open? room acc.id with
  | none => ([], acc)
  | some writer =>
    let (written, records) := gatherFrom urgentOnly writer acc.records
    (written.finish, { acc with records })

/-- Make the pending records ready again. -/
def releasePending (acc : Accumulator) : Accumulator :=
  { acc with records := acc.records.map (·.unmark .pendingOnly) }

/-- A key has a record to change exactly if it has a record. -/
theorem modifyFirst?_isSome_iff (key : Bytes) (change : Record → Record) (records : List Record) :
    (modifyFirst? key change records).isSome ↔ ∃ r ∈ records, r.key = key := by
  induction records with
  | nil => simp [modifyFirst?]
  | cons r rest ih =>
    by_cases h : r.key = key <;> simp [modifyFirst?, Record.about, h, ih]

end Accumulator

/-- An accumulator with the ledger and the counters that it uses. -/
structure Store extends Accumulator where
  ledger : Ledger := {}
  counters : Counters := {}

/-- What became of a record that was taken in. -/
inductive Emitted where
  /-- The key was new, and a copy was stored. -/
  | inserted
  /-- The key was known, and the value was folded into its record. -/
  | merged
  deriving DecidableEq, Repr

namespace Store

/-- A copy of a candidate as it is stored. -/
def storedCopy (candidate : Record) : Record :=
  (candidate.unmark .pendingOnly).mark .storedOnly

/-- Fold a candidate into the record about its key, or store a copy in front if there is none and
the ledger has room. -/
def emit (store : Store) (candidate : Record) : Except StoreError Emitted × Store :=
  let counters := store.counters.addEmitted
  match Accumulator.modifyFirst? candidate.key (store.job.fold candidate) store.records with
  | some records => (.ok .merged, { store with records, counters := counters.addReduced })
  | none =>
    match store.ledger.charge candidate.footprint with
    | .error cause => (.error cause, { store with counters })
    | .ok ledger =>
      (.ok .inserted,
        { store with records := storedCopy candidate :: store.records, ledger, counters })

/-- Take in candidates in order, and count those that were not refused. -/
def emitAll (store : Store) : List Record → Nat × Store
  | [] => (0, store)
  | candidate :: rest =>
    let (result, next) := store.emit candidate
    let (stored, last) := next.emitAll rest
    (if result.isOk then stored + 1 else stored, last)

/-- Map a fact sensed after so many seconds, take in what it becomes, and count what was stored. -/
def sow (store : Store) (elapsed : Nat) (key value : Bytes) : Nat × Store :=
  { store with counters := store.counters.addMapped }.emitAll (store.job.map elapsed key value)

/-- The candidates that the entries of a received segment make, all urgent if the frame is. Entries
too long for a record make none. -/
def candidates (urgent : Bool) (entries : List Wire.Entry) : List Record :=
  entries.filterMap fun entry ↦
    match Record.ofEntry entry with
    | .ok r => some (if urgent then r.urgent else r)
    | .error _ => none

/-- Take in the records of the segment at the front of `bytes`, all urgent if `urgent` is set. The
answer is how many bytes were dealt with: none if the segment is for another accumulator, all of
them if it is broken, and otherwise its declared length. A broken segment is not taken in at all. -/
def feed (store : Store) (bytes : Bytes) (urgent : Bool) : Nat × Store :=
  match Wire.SegmentHeader.decode bytes with
  | .error _ => (0, store)
  | .ok header =>
    if header.owner = store.id then
      match Wire.Segment.parse bytes >>= Wire.Segment.entries with
      | .error _ => (bytes.length, store)
      | .ok entries => (header.declared, (store.emitAll (candidates urgent entries)).2)
    else (0, store)

/-- Write the ready records into a segment of at most `room` bytes. -/
def gather (store : Store) (room : Nat) (urgentOnly : Bool) : Bytes × Store :=
  let (segment, acc) := store.toAccumulator.gather room urgentOnly
  (segment, { store with toAccumulator := acc })

/-- Make the pending records ready again, and count them. -/
def releasePending (store : Store) : Nat × Store :=
  (store.toAccumulator.size .pendingOnly,
    { store with toAccumulator := store.toAccumulator.releasePending })

/-- Change the first record about a key, and say whether there is one. -/
def modify (store : Store) (key : Bytes) (change : Record → Record) : Bool × Store :=
  match store.toAccumulator.modify? key change with
  | some acc => (true, { store with toAccumulator := acc })
  | none => (false, store)

/-- Remove the records that bear one of these marks, give their bytes back, and count them. -/
def cleanup (store : Store) (flags : Flags) : Nat × Store :=
  let (removed, kept) := store.records.partition (·.bears flags)
  (removed.length,
    { store with
      records := kept
      ledger := store.ledger.refund (Record.footprints removed) })

/-- An accumulator charged to a ledger that holds something already, whatever the ledger's cap. -/
def attach (acc : Accumulator) (ledger : Ledger) (counters : Counters) : Store :=
  { toAccumulator := acc, ledger := ledger.forceCharge acc.footprint, counters }

/-- An accumulator with a ledger and counters that nothing else uses. -/
def detached (acc : Accumulator) : Store := attach acc {} {}

/-- Emitting keeps the id. -/
@[simp] theorem id_emit (store : Store) (candidate : Record) :
    (store.emit candidate).2.id = store.id := by
  unfold emit
  split
  · rfl
  · split <;> rfl

/-- Emitting keeps the job. -/
@[simp] theorem job_emit (store : Store) (candidate : Record) :
    (store.emit candidate).2.job = store.job := by
  unfold emit
  split
  · rfl
  · split <;> rfl

end Store

end CollectionTree
