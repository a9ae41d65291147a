import CollectionTree.Proofs.Wire.RoundTrip
import CollectionTree.Store.Accumulator

/-!
# Which records a gathered segment marks

Gathering writes the first so many of the ready records and marks exactly those. The main statement
is `gather_spec`; the lemmas after it say what the marks are afterwards, and what is left of them
when they are taken back.
-/

namespace CollectionTree

namespace Record

/-- Marked for its frame a record is on its way. -/
@[simp] theorem isPending_mark_pending (r : Record) : (r.mark .pendingOnly).isPending = true := by
  simp [isPending, mark, Flags.union, Flags.pendingOnly]

/-- Released it is no longer. -/
@[simp] theorem isPending_unmark_pending (r : Record) :
    (r.unmark .pendingOnly).isPending = false := by
  simp [isPending, unmark, Flags.diff, Flags.pendingOnly]

/-- Marking a record for its frame keeps its urgency. -/
@[simp] theorem isUrgent_mark_pending (r : Record) :
    (r.mark .pendingOnly).isUrgent = r.isUrgent := by
  simp [isUrgent, mark, Flags.union, Flags.pendingOnly]

/-- Releasing a record keeps its urgency. -/
@[simp] theorem isUrgent_unmark_pending (r : Record) :
    (r.unmark .pendingOnly).isUrgent = r.isUrgent := by
  simp [isUrgent, unmark, Flags.diff, Flags.pendingOnly]

/-- A record is on its way if it bears that mark. -/
@[simp] theorem bears_pendingOnly (r : Record) : r.bears .pendingOnly = r.isPending := by
  simp [bears, isPending, Flags.intersects, Flags.pendingOnly]

/-- Releasing a marked record comes to releasing the unmarked one. -/
@[simp] theorem unmark_mark_pending (r : Record) :
    (r.mark .pendingOnly).unmark .pendingOnly = r.unmark .pendingOnly := by
  simp [unmark, mark, Flags.diff, Flags.union, Flags.pendingOnly]

/-- There is nothing to release about a record that is not on its way. -/
theorem unmark_pending_of_not {r : Record} (h : r.isPending = false) :
    r.unmark .pendingOnly = r := by
  obtain ⟨key, value, stored, urgent, pending⟩ := r
  obtain rfl : pending = false := h
  simp [unmark, Flags.diff, Flags.pendingOnly]

/-- What may be sent is not on its way. -/
theorem not_isPending_of_eligible {urgentOnly : Bool} {r : Record}
    (h : r.eligible urgentOnly = true) : r.isPending = false := by
  simp only [eligible, Bool.and_eq_true, Bool.not_eq_true'] at h
  exact h.1

/-- The entry of a record has its key. -/
@[simp] theorem entry_key (r : Record) : r.entry.key = r.key := rfl

/-- Keys of entries are those of the records. -/
@[simp] theorem map_key_map_entry (records : List Record) :
    (records.map entry).map Wire.Entry.key = records.map key := by
  simp [Function.comp_def]

end Record

namespace Accumulator

/-- The entries of the records that a flush may take, in order. -/
def ready (urgentOnly : Bool) (records : List Record) : List Wire.Entry :=
  (records.filter (·.eligible urgentOnly)).map Record.entry

/-- The records that are on their way, in order. -/
def pending (records : List Record) : List Record := records.filter (·.isPending)

/-- Mark the first so many of the records that a flush may take. -/
def markReady (urgentOnly : Bool) : Nat → List Record → List Record
  | 0, records => records
  | _ + 1, [] => []
  | count + 1, r :: rest =>
    if r.eligible urgentOnly then r.mark .pendingOnly :: markReady urgentOnly count rest
    else r :: markReady urgentOnly (count + 1) rest

/-- The accumulator with the first so many of its ready records marked. -/
def marked (acc : Accumulator) (urgentOnly : Bool) (count : Nat) : Accumulator :=
  { acc with records := markReady urgentOnly count acc.records }

/-- Marking keeps the id. -/
@[simp] theorem id_marked (acc : Accumulator) (urgentOnly : Bool) (count : Nat) :
    (acc.marked urgentOnly count).id = acc.id := rfl

/-- Marking keeps the job. -/
@[simp] theorem job_marked (acc : Accumulator) (urgentOnly : Bool) (count : Nat) :
    (acc.marked urgentOnly count).job = acc.job := rfl

/-- Marking none of the records changes nothing. -/
@[simp] theorem marked_zero (acc : Accumulator) (urgentOnly : Bool) :
    acc.marked urgentOnly 0 = acc := by
  simp [marked, markReady]

/-! ## Gathering -/

/-- The longest prefix of some entries that fits into so many bytes. -/
def fitting : Nat → List Wire.Entry → List Wire.Entry
  | _, [] => []
  | room, e :: rest => if e.length ≤ room then e :: fitting (room - e.length) rest else []

/-- What fits comes first. -/
theorem fitting_prefix (room : Nat) (entries : List Wire.Entry) :
    fitting room entries <+: entries := by
  induction entries generalizing room with
  | nil => exact List.nil_prefix
  | cons e rest ih =>
    rw [fitting]
    split
    · exact (List.prefix_cons_inj e).2 (ih _)
    · exact List.nil_prefix

/-- What fits into so many bytes has at most so many. -/
theorem length_encodeAll_fitting (room : Nat) (entries : List Wire.Entry) :
    (Wire.encodeAll (fitting room entries)).length ≤ room := by
  induction entries generalizing room with
  | nil => simp [fitting]
  | cons e rest ih =>
    rw [fitting]
    split
    · have := ih (room - e.length)
      simp only [Wire.encodeAll_cons, List.length_append, Wire.Entry.length_encode]
      omega
    · simp

/-- Every prefix that fits is a prefix of the longest. -/
theorem prefix_fitting {room : Nat} {entries some : List Wire.Entry} (h : some <+: entries)
    (fits : (Wire.encodeAll some).length ≤ room) : some <+: fitting room entries := by
  induction entries generalizing room some with
  | nil => simpa [fitting] using h
  | cons e rest ih =>
    cases some with
    | nil => exact List.nil_prefix
    | cons first more =>
      obtain ⟨rfl, tail⟩ := List.cons_prefix_cons.1 h
      simp only [Wire.encodeAll_cons, List.length_append, Wire.Entry.length_encode] at fits
      rw [fitting, if_pos (by omega)]
      exact (List.prefix_cons_inj first).2 (ih tail (by omega))

/-- The longest prefix of some entries that makes a segment of at most so many bytes. -/
structure LongestWithin (limit : Nat) (entries taken : List Wire.Entry) : Prop where
  /-- The first entries are taken. -/
  front : taken <+: entries
  /-- Their segment is short enough, if there is one. -/
  fits : taken ≠ [] → Wire.segmentHeaderLength + (Wire.encodeAll taken).length ≤ limit
  /-- The segment of any longer prefix is too long. -/
  longest : ∀ other, other <+: entries →
    Wire.segmentHeaderLength + (Wire.encodeAll other).length ≤ limit → other <+: taken

/-- There is one longest prefix only. -/
theorem LongestWithin.unique {limit : Nat} {entries taken other : List Wire.Entry}
    (h : LongestWithin limit entries taken) (h' : LongestWithin limit entries other) :
    taken = other := by
  have below {a b : List Wire.Entry} (ha : LongestWithin limit entries a)
      (hb : LongestWithin limit entries b) : a <+: b := by
    by_cases empty : a = []
    · rw [empty]
      exact List.nil_prefix
    · exact hb.longest a ha.front (ha.fits empty)
  exact (below h h').eq_of_length_le (below h' h).length_le

private theorem longestWithin_fitting (limit : Nat) (entries : List Wire.Entry) :
    LongestWithin limit entries (fitting (limit - Wire.segmentHeaderLength) entries) where
  front := fitting_prefix ..
  fits some := by
    have short := length_encodeAll_fitting (limit - Wire.segmentHeaderLength) entries
    obtain ⟨e, he⟩ := List.exists_mem_of_ne_nil _ some
    have wide := Wire.length_encodeAll_of_mem he
    rw [Wire.length_entry] at wide
    omega
  longest other front fits := prefix_fitting front (by omega)

/-- Writing adds the ready entries that fit, up to the first that does not, and marks their
records. -/
theorem gatherFrom_spec (urgentOnly : Bool) {writer : Wire.SegmentWriter}
    {entries : List Wire.Entry} (held : writer.Holds entries) (records : List Record) :
    (gatherFrom urgentOnly writer records).2 = markReady urgentOnly
        (fitting (writer.limit - writer.length) (ready urgentOnly records)).length records ∧
      (gatherFrom urgentOnly writer records).1.Holds
        (entries ++ fitting (writer.limit - writer.length) (ready urgentOnly records)) ∧
      (gatherFrom urgentOnly writer records).1.owner = writer.owner ∧
      (gatherFrom urgentOnly writer records).1.limit = writer.limit := by
  induction records generalizing writer entries with
  | nil => exact ⟨rfl, by simpa [gatherFrom, ready, fitting] using held, rfl, rfl⟩
  | cons r rest ih =>
    simp only [gatherFrom]
    by_cases eligible : r.eligible urgentOnly = true
    · rw [if_pos eligible]
      have head : ready urgentOnly (r :: rest) = r.entry :: ready urgentOnly rest := by
        simp [ready, eligible]
      have room := held.fits
      cases pushed : writer.push? r.entry with
      | none =>
        have long : ¬r.entry.length ≤ writer.limit - writer.length := by
          have refused : ¬(writer.push? r.entry).isSome := by simp [pushed]
          rw [Wire.SegmentWriter.push?_isSome_iff] at refused
          omega
        rw [head, fitting, if_neg long]
        exact ⟨rfl, by simpa using held, rfl, rfl⟩
      | some written =>
        obtain ⟨holds, owner, limit⟩ := held.push? pushed
        have length := Wire.SegmentWriter.length_of_push? pushed
        have short : r.entry.length ≤ writer.limit - writer.length := by
          have := holds.fits
          omega
        have left : written.limit - written.length =
            writer.limit - writer.length - r.entry.length := by omega
        obtain ⟨marks, holds, owner', limit'⟩ := ih holds
        rw [left] at marks holds
        rw [head, fitting, if_pos short]
        refine ⟨?_, ?_, owner'.trans owner, limit'.trans limit⟩
        · simp [markReady, eligible, marks]
        · simpa using holds
    · rw [if_neg eligible]
      have skip : ready urgentOnly (r :: rest) = ready urgentOnly rest := by
        simp [ready, eligible]
      obtain ⟨marks, holds, owner, limit⟩ := ih held
      rw [skip]
      refine ⟨?_, holds, owner, limit⟩
      generalize (fitting (writer.limit - writer.length)
        (ready urgentOnly rest)).length = count at marks ⊢
      cases count with
      | zero => simp [marks, markReady]
      | succ count => simp [markReady, eligible, marks]

/-- The ready entries that gathering into so many bytes writes. -/
def gathered (acc : Accumulator) (room : Nat) (urgentOnly : Bool) : List Wire.Entry :=
  fitting (min room Wire.maxFieldLength - Wire.segmentHeaderLength) (ready urgentOnly acc.records)

/-- What is gathered makes a segment. -/
theorem segmentSized_gathered (acc : Accumulator) (room : Nat) (urgentOnly : Bool) :
    Wire.SegmentSized (acc.gathered room urgentOnly) := by
  have short := length_encodeAll_fitting
    (min room Wire.maxFieldLength - Wire.segmentHeaderLength) (ready urgentOnly acc.records)
  simp only [Wire.SegmentSized, gathered, Wire.maxFieldLength, Wire.segmentHeaderLength] at short ⊢
  omega

/-- A gathered segment holds the first ready entries that fit, none of them making it empty, and
their records are the ones that are marked. -/
theorem gather_eq (acc : Accumulator) (room : Nat) (urgentOnly : Bool) :
    acc.gather room urgentOnly =
      (if acc.gathered room urgentOnly = [] then []
        else Wire.segmentOf acc.id (acc.gathered room urgentOnly),
        acc.marked urgentOnly (acc.gathered room urgentOnly).length) := by
  unfold gather
  cases opened : Wire.SegmentWriter.open? room acc.id with
  | none =>
    have small := (Wire.SegmentWriter.open?_eq_none_iff ..).1 opened
    have none : acc.gathered room urgentOnly = [] := by
      have left : min room Wire.maxFieldLength - Wire.segmentHeaderLength = 0 := by omega
      rw [gathered, left]
      cases ready urgentOnly acc.records with
      | nil => rfl
      | cons e rest => simp [fitting, Wire.length_entry]
    simp [none]
  | some writer =>
    obtain ⟨empty, owner, -⟩ := Wire.SegmentWriter.holds_open? opened
    have left : writer.limit - writer.length =
        min room Wire.maxFieldLength - Wire.segmentHeaderLength := by
      unfold Wire.SegmentWriter.open? at opened
      split at opened
      · simp at opened
      · obtain rfl := Option.some.inj opened
        rfl
    obtain ⟨marks, holds, owner', -⟩ := gatherFrom_spec urgentOnly empty acc.records
    rw [left] at marks holds
    have written := holds.finish
    rw [List.nil_append, owner', owner] at written
    simp only [written, marks]
    rfl

/-- A gathered segment holds the longest prefix of the ready entries that fits, and their records
are the ones that are marked. -/
theorem gather_spec (acc : Accumulator) (room : Nat) (urgentOnly : Bool) :
    ∃ taken,
      LongestWithin (min room Wire.maxFieldLength) (ready urgentOnly acc.records) taken ∧
      (acc.gather room urgentOnly).2 = acc.marked urgentOnly taken.length ∧
      (acc.gather room urgentOnly).1 = (if taken = [] then [] else Wire.segmentOf acc.id taken) ∧
      Wire.SegmentSized taken ∧ (acc.gather room urgentOnly).1.length ≤ room := by
  have longest := longestWithin_fitting (min room Wire.maxFieldLength)
    (ready urgentOnly acc.records)
  refine ⟨acc.gathered room urgentOnly, longest, by rw [gather_eq], by rw [gather_eq],
    acc.segmentSized_gathered room urgentOnly, ?_⟩
  rw [gather_eq]
  split
  · exact Nat.zero_le _
  · next some =>
    rw [Wire.length_segmentOf]
    exact (longest.fits some).trans (Nat.min_le_left ..)

/-! ## The marks afterwards -/

/-- Whatever the mark does not change of a record, marking leaves alone. -/
theorem map_markReady {α : Type} {view : Record → α}
    (kept : ∀ r, view (r.mark .pendingOnly) = view r) (urgentOnly : Bool) (count : Nat)
    (records : List Record) : (markReady urgentOnly count records).map view = records.map view := by
  induction records generalizing count with
  | nil => cases count <;> rfl
  | cons r rest ih =>
    cases count with
    | zero => rfl
    | succ count =>
      simp only [markReady]
      split <;> simp [ih, kept]

/-- Marking keeps the entries. -/
@[simp] theorem map_entry_markReady (urgentOnly : Bool) (count : Nat) (records : List Record) :
    (markReady urgentOnly count records).map Record.entry = records.map Record.entry :=
  map_markReady (fun _ ↦ rfl) urgentOnly count records

/-- The marked records are those that were marked before and the first so many ready ones. -/
theorem pending_markReady_perm (urgentOnly : Bool) (count : Nat) (records : List Record) :
    ((pending (markReady urgentOnly count records)).map Record.entry).Perm
      ((pending records).map Record.entry ++ (ready urgentOnly records).take count) := by
  induction records generalizing count with
  | nil => cases count <;> simp [markReady, pending, ready]
  | cons r rest ih =>
    cases count with
    | zero => simp [markReady]
    | succ count =>
      simp only [markReady]
      by_cases eligible : r.eligible urgentOnly = true
      · have free := Record.not_isPending_of_eligible eligible
        simpa [eligible, free, pending, ready] using ((ih count).cons r.entry).trans
          List.perm_middle.symm
      · by_cases marked : r.isPending = true
        · simpa [eligible, marked, pending, ready] using ih (count + 1)
        · simpa [eligible, marked, pending, ready] using ih (count + 1)

/-- Where nothing was marked, the marked records are the first so many ready ones, in order. -/
theorem pending_markReady (urgentOnly : Bool) (count : Nat) {records : List Record}
    (h : pending records = []) :
    (pending (markReady urgentOnly count records)).map Record.entry =
      (ready urgentOnly records).take count := by
  induction records generalizing count with
  | nil => cases count <;> rfl
  | cons r rest ih =>
    have free : r.isPending = false := by
      cases marked : r.isPending with
      | false => rfl
      | true => simp [pending, marked] at h
    have restFree : pending rest = [] := by simpa [pending, free] using h
    cases count with
    | zero => simp [markReady, h]
    | succ count =>
      simp only [markReady]
      by_cases eligible : r.eligible urgentOnly = true
      · have := ih count restFree
        simpa [pending, eligible, ready] using this
      · have := ih (count + 1) restFree
        simpa [pending, eligible, free, ready] using this

/-- Marks that are taken back leave the records as if they had never been set. -/
@[simp] theorem releasePending_marked (acc : Accumulator) (urgentOnly : Bool) (count : Nat) :
    (acc.marked urgentOnly count).releasePending = acc.releasePending := by
  have records : (markReady urgentOnly count acc.records).map (·.unmark .pendingOnly) =
      acc.records.map (·.unmark .pendingOnly) :=
    map_markReady Record.unmark_mark_pending urgentOnly count acc.records
  simp only [releasePending, marked, records]

/-- Where nothing is marked, there is nothing to take back. -/
theorem map_unmark_of_pending_eq_nil {records : List Record} (h : pending records = []) :
    records.map (·.unmark .pendingOnly) = records := by
  have free : ∀ r ∈ records, r.isPending = false := by
    simpa [pending, List.filter_eq_nil_iff] using h
  rw [List.map_congr_left fun r hr ↦ Record.unmark_pending_of_not (free r hr)]
  exact List.map_id _

/-- Where nothing is on its way, a flush by the schedule may take every record. -/
theorem ready_of_pending_eq_nil {records : List Record} (clear : pending records = []) :
    ready false records = records.map Record.entry := by
  have free : ∀ r ∈ records, r.isPending = false := by
    simpa [pending, List.filter_eq_nil_iff] using clear
  have all : records.filter (·.eligible false) = records :=
    List.filter_eq_self.2 fun r hr ↦ by simp [Record.eligible, free r hr]
  rw [ready, all]

/-- What marking keeps holds of the records that were marked and of the others. -/
theorem forall_mem_markReady {P : Record → Prop} (mark : ∀ r, P r → P (r.mark .pendingOnly))
    (urgentOnly : Bool) (count : Nat) {records : List Record} (h : ∀ r ∈ records, P r) :
    ∀ r ∈ markReady urgentOnly count records, P r := by
  induction records generalizing count with
  | nil =>
    cases count with
    | zero => exact h
    | succ count => exact h
  | cons r rest ih =>
    have head := h r List.mem_cons_self
    have tail : ∀ s ∈ rest, P s := fun s hs ↦ h s (List.mem_cons_of_mem _ hs)
    cases count with
    | zero => exact h
    | succ count =>
      simp only [markReady]
      split
      · exact List.forall_mem_cons.2 ⟨mark r head, ih count tail⟩
      · exact List.forall_mem_cons.2 ⟨head, ih (count + 1) tail⟩

end Accumulator

end CollectionTree
