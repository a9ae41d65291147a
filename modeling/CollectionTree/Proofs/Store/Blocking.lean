import CollectionTree.Proofs.Store.Charges
import CollectionTree.Proofs.Store.OnePerKey

/-!
# Records that block a store

A record may have 255 bytes of key and value, but a segment of at most 255 bytes spends four of them
on headers. A record of more than 251 bytes is taken in like any other and fits no segment, and as
gathering stops at the first record that does not fit, nothing behind such a record is ever written
by a scheduled flush. `gather_ne_nil_iff` says when a store can write anything, and
`Blocks.behind_run` that a blocked store stays blocked.
-/

namespace CollectionTree

namespace Record

/-- There are segments that can carry the record. -/
def Fits (r : Record) : Prop := Wire.segmentHeaderLength + r.entry.length ≤ Wire.maxFieldLength

instance : DecidablePred Fits := fun r ↦
  inferInstanceAs (Decidable (Wire.segmentHeaderLength + r.entry.length ≤ Wire.maxFieldLength))

private theorem length_entry (r : Record) : r.entry.length = 2 + r.length := by
  rw [Wire.length_entry]
  rfl

/-- The record's own header and the segment's have two bytes each. -/
theorem fits_iff (r : Record) : r.Fits ↔ r.length ≤ 251 := by
  rw [Fits, length_entry]
  simp only [Wire.segmentHeaderLength, Wire.maxFieldLength]
  omega

/-- What folding leaves of a record: its key, its length, and whether it is on its way. -/
def outline (r : Record) : Bytes × Nat × Bool := (r.key, r.length, r.isPending)

private theorem outline_eq_iff {r s : Record} :
    r.outline = s.outline ↔ r.key = s.key ∧ r.length = s.length ∧ r.isPending = s.isPending := by
  simp [outline]

private theorem outline_fold {job : Job} (keeps : job.KeepsIdentity) (length : job.KeepsLength)
    (candidate r : Record) : (job.fold candidate r).outline = r.outline := by
  apply outline_eq_iff.2
  have cost := length.footprint_fold candidate r
  rw [footprint, footprint] at cost
  exact ⟨keeps.key_fold candidate r, by omega, keeps.isPending_fold candidate r⟩

end Record

namespace Accumulator

/-- An entry that does not fit keeps out everything behind it. -/
theorem fitting_append_of_long {room : Nat} {e : Wire.Entry} (long : room < e.length)
    (front rest : List Wire.Entry) : fitting room (front ++ e :: rest) = fitting room front := by
  induction front generalizing room with
  | nil =>
    have stop : ¬e.length ≤ room := by omega
    simp [fitting, stop]
  | cons first more ih =>
    simp only [List.cons_append, fitting]
    by_cases short : first.length ≤ room
    · rw [if_pos short, if_pos short, ih (by omega)]
    · rw [if_neg short, if_neg short]

private theorem fitting_cons_eq_nil_iff {room : Nat} {e : Wire.Entry} {rest : List Wire.Entry} :
    fitting room (e :: rest) = [] ↔ room < e.length := by
  rw [fitting]
  by_cases short : e.length ≤ room
  · simp [short]
  · simp [short]
    omega

/-- Marks stay in the front part of the records if it has as many ready ones. -/
theorem markReady_append {urgentOnly : Bool} {count : Nat} {front : List Record}
    (enough : count ≤ (ready urgentOnly front).length) (rest : List Record) :
    markReady urgentOnly count (front ++ rest) = markReady urgentOnly count front ++ rest := by
  induction front generalizing count with
  | nil =>
    obtain rfl : count = 0 := by simpa [ready] using enough
    simp [markReady]
  | cons r more ih =>
    cases count with
    | zero => rfl
    | succ count =>
      by_cases eligible : r.eligible urgentOnly = true
      · have fewer : count ≤ (ready urgentOnly more).length := by
          simpa [ready, eligible] using enough
        simp only [List.cons_append, markReady, if_pos eligible, ih fewer]
      · have same : count + 1 ≤ (ready urgentOnly more).length := by
          simpa [ready, eligible] using enough
        simp only [List.cons_append, markReady, if_neg eligible, ih same]

variable {acc : Accumulator}

/-- Whatever the room, gathering passes over nothing: a ready record that no segment can carry keeps
out every record behind it. -/
theorem gathered_append {front behind : List Record} {r : Record}
    (records : acc.records = front ++ r :: behind) {urgentOnly : Bool}
    (eligible : r.eligible urgentOnly = true) (long : ¬r.Fits) (room : Nat) :
    acc.gathered room urgentOnly = gathered { acc with records := front } room urgentOnly := by
  have split : ready urgentOnly acc.records =
      ready urgentOnly front ++ r.entry :: ready urgentOnly behind := by
    simp [ready, records, eligible]
  have beyond : min room Wire.maxFieldLength - Wire.segmentHeaderLength < r.entry.length := by
    simp only [Record.Fits, Wire.segmentHeaderLength, Wire.maxFieldLength] at long ⊢
    omega
  rw [gathered, gathered, split, fitting_append_of_long beyond]

private theorem length_gathered_le (acc : Accumulator) (room : Nat) (urgentOnly : Bool) :
    (acc.gathered room urgentOnly).length ≤ (ready urgentOnly acc.records).length :=
  List.IsPrefix.length_le <| fitting_prefix ..

/-- Nor does gathering mark anything behind such a record. -/
theorem records_gather_append {front behind : List Record} {r : Record}
    (records : acc.records = front ++ r :: behind) {urgentOnly : Bool}
    (eligible : r.eligible urgentOnly = true) (long : ¬r.Fits) (room : Nat) :
    (acc.gather room urgentOnly).2.records =
      (gather { acc with records := front } room urgentOnly).2.records ++ r :: behind := by
  have enough := length_gathered_le { acc with records := front } room urgentOnly
  simp only [gather_eq, marked, gathered_append records eligible long, records]
  exact markReady_append enough _

/-- With nothing on its way, a scheduled gathering writes something in some room exactly if the
first record fits a segment. -/
theorem gather_ne_nil_iff (clear : pending acc.records = []) :
    (∃ room, (acc.gather room false).1 ≠ []) ↔ ∃ r, acc.records.head? = some r ∧ r.Fits := by
  have written (room : Nat) : (acc.gather room false).1 ≠ [] ↔ acc.gathered room false ≠ [] := by
    rw [gather_eq]
    by_cases none : acc.gathered room false = []
    · simp [none]
    · have header := Wire.length_segmentOf acc.id (acc.gathered room false)
      simp only [if_neg none]
      constructor
      · exact fun _ ↦ none
      · intro _ empty
        rw [empty, List.length_nil, Wire.segmentHeaderLength] at header
        omega
  simp only [written, gathered, ready_of_pending_eq_nil clear]
  cases acc.records with
  | nil => simp [fitting]
  | cons r rest =>
    simp only [List.map_cons, ne_eq, fitting_cons_eq_nil_iff, List.head?_cons, Option.some.injEq,
      exists_eq_left', Record.Fits]
    simp only [Record.length_entry, Wire.segmentHeaderLength, Wire.maxFieldLength]
    constructor
    · rintro ⟨room, short⟩
      omega
    · intro short
      exists 255
      omega

end Accumulator

namespace Store

/-! ## A blocked store over time -/

/-- Records like these are behind everything else that the store holds. -/
def Behind (stuck : List Record) (store : Store) : Prop :=
  stuck.map Record.outline <:+ store.records.map Record.outline

/-- The first of some records fits no segment, and none of them is on its way. -/
structure Blocks (stuck : List Record) : Prop where
  long : ∃ r, stuck.head? = some r ∧ ¬r.Fits
  free : ∀ r ∈ stuck, r.isPending = false

/-- What a store is asked for by flushes by the schedule, by the news of what became of their
frames, and by whoever adds to the store. -/
def Request.Scheduled : Request → Prop
  | .gather _ urgentOnly => urgentOnly = false
  | .cleanup flags => flags = .pendingOnly
  | .emit _ | .sow _ _ _ | .feed _ _ | .releasePending => True

variable {store : Store} {stuck : List Record}

private theorem Behind.of_suffix {store' : Store} (h : store.Behind stuck)
    (more : store.records.map Record.outline <:+ store'.records.map Record.outline) :
    store'.Behind stuck :=
  List.IsSuffix.trans h more

private theorem exists_of_behind (h : store.Behind stuck) :
    ∃ front behind, store.records = front ++ behind ∧
      behind.map Record.outline = stuck.map Record.outline := by
  obtain ⟨front, split⟩ := h
  obtain ⟨ahead, behind, records, -, same⟩ := List.map_eq_append_iff.1 split.symm
  exact ⟨ahead, behind, records, same⟩

private theorem Blocks.of_outline {behind : List Record} (h : Blocks stuck)
    (same : behind.map Record.outline = stuck.map Record.outline) : Blocks behind := by
  obtain ⟨r, first, long⟩ := h.long
  constructor
  · have heads := congrArg List.head? same
    rw [List.head?_map, List.head?_map, first, Option.map_some, Option.map_eq_some_iff] at heads
    obtain ⟨s, head, like⟩ := heads
    refine ⟨s, head, ?_⟩
    rw [Record.fits_iff] at long ⊢
    rw [(Record.outline_eq_iff.1 like).2.1]
    exact long
  · intro s hs
    have mem := List.mem_map_of_mem (f := Record.outline) hs
    rw [same] at mem
    obtain ⟨t, ht, like⟩ := List.mem_map.1 mem
    exact (Record.outline_eq_iff.1 like).2.2.symm.trans (h.free t ht)

/-- A scheduled gathering writes and marks only what is ahead of records that block. -/
theorem gather_of_blocks {front : List Record} (h : Blocks stuck)
    (records : store.records = front ++ stuck) (room : Nat) :
    store.gathered room false =
        Accumulator.gathered { store.toAccumulator with records := front } room false ∧
      ∃ marked, (store.gather room false).2.records = marked ++ stuck := by
  obtain ⟨r, first, long⟩ := h.long
  obtain ⟨behind, rfl⟩ := List.head?_eq_some_iff.1 first
  have eligible : r.eligible false = true := by simp [Record.eligible, h.free r]
  exact ⟨Accumulator.gathered_append records eligible long room, _,
    Accumulator.records_gather_append records eligible long room⟩

private theorem behind_emit (keeps : store.job.KeepsIdentity) (length : store.job.KeepsLength)
    (h : store.Behind stuck) (candidate : Record) : (store.emit candidate).2.Behind stuck := by
  apply h.of_suffix
  have step := emitStep_emit store candidate
  generalize store.emit candidate = outcome at step ⊢
  cases step with
  | merged records first about =>
    simp only [records, List.map_append, List.map_cons, Record.outline_fold keeps length]
    exact List.suffix_rfl
  | inserted absent charged => exact List.suffix_cons ..
  | refused absent full => exact List.suffix_rfl

private theorem Blocks.behind_gather (blocks : Blocks stuck) (h : store.Behind stuck) (room : Nat) :
    (store.gather room false).2.Behind stuck := by
  obtain ⟨front, behind, records, same⟩ := exists_of_behind h
  obtain ⟨-, marked, after⟩ := gather_of_blocks (blocks.of_outline same) records room
  rw [Behind, after, List.map_append, same]
  exact List.suffix_append ..

private theorem Blocks.behind_cleanup (blocks : Blocks stuck) (h : store.Behind stuck) :
    (store.cleanup .pendingOnly).2.Behind stuck := by
  obtain ⟨front, behind, records, same⟩ := exists_of_behind h
  have free := (blocks.of_outline same).free
  have kept : behind.filter (fun r ↦ !r.bears .pendingOnly) = behind :=
    List.filter_eq_self.2 fun r hr ↦ by simp [free r hr]
  rw [Behind, ← same]
  simp only [cleanup, List.partition_eq_filter_filter, records, Function.comp_def,
    List.filter_append, kept, List.map_append]
  exact List.suffix_append ..

private theorem Blocks.behind_releasePending (blocks : Blocks stuck) (h : store.Behind stuck) :
    store.releasePending.2.Behind stuck := by
  obtain ⟨front, behind, records, same⟩ := exists_of_behind h
  have free := (blocks.of_outline same).free
  have kept : behind.map (·.unmark .pendingOnly) = behind :=
    Accumulator.map_unmark_of_pending_eq_nil (List.filter_eq_nil_iff.2 (by simpa using free))
  rw [Behind, ← same]
  simp only [releasePending, Accumulator.releasePending, records, List.map_append, kept]
  exact List.suffix_append ..

/-- Records that block a store stay behind everything else, whatever the store is asked for by the
schedule. -/
theorem Blocks.behind_serve (blocks : Blocks stuck) (keeps : store.job.KeepsIdentity)
    (length : store.job.KeepsLength) (h : store.Behind stuck) {request : Request}
    (scheduled : request.Scheduled) : (store.serve request).Behind stuck := by
  cases request with
  | gather room urgentOnly =>
    obtain rfl : urgentOnly = false := scheduled
    exact blocks.behind_gather h room
  | cleanup flags =>
    obtain rfl : flags = .pendingOnly := scheduled
    exact blocks.behind_cleanup h
  | releasePending => exact blocks.behind_releasePending h
  | emit | sow | feed =>
    rw [serve_of_offers store rfl]
    apply And.right
    apply emitAll_induction (P := fun s ↦ s.job = store.job ∧ s.Behind stuck)
    · intro s hs c _
      exact ⟨(job_emit s c).trans hs.1, behind_emit (hs.1 ▸ keeps) (hs.1 ▸ length) hs.2 c⟩
    · exact ⟨rfl, h⟩

private theorem Blocks.behind_run (blocks : Blocks stuck) (keeps : store.job.KeepsIdentity)
    (length : store.job.KeepsLength) (h : store.Behind stuck) {requests : List Request}
    (scheduled : ∀ request ∈ requests, request.Scheduled) :
    (store.run (requests.map .asked)).Behind stuck := by
  induction requests generalizing store with
  | nil => exact h
  | cons request rest ih =>
    have job : (store.serve request).job = store.job := job_serve store request
    apply ih (job ▸ keeps) (job ▸ length)
    · exact blocks.behind_serve keeps length h (scheduled request List.mem_cons_self)
    · exact fun later mem ↦ scheduled later (List.mem_cons_of_mem _ mem)

/-- A blocked store writes none of the records that block it, and none of those behind them. -/
theorem Blocks.not_gathered (blocks : Blocks stuck) (h : store.Behind stuck)
    (distinct : (store.records.map Record.key).Nodup) (room : Nat) :
    ∀ r ∈ stuck, r.key ∉ (store.gathered room false).map Wire.Entry.key := by
  obtain ⟨front, behind, records, same⟩ := exists_of_behind h
  have part := (gather_of_blocks (blocks.of_outline same) records room).1
  intro r hr mem
  have ahead : r.key ∈ front.map Record.key := by
    rw [part] at mem
    have some : Accumulator.gathered { store.toAccumulator with records := front } room false <+:
      Accumulator.ready false front := Accumulator.fitting_prefix ..
    have ready := (some.sublist.map Wire.Entry.key).subset mem
    rw [Accumulator.ready, Record.map_key_map_entry] at ready
    exact (List.filter_sublist.map Record.key).subset ready
  have stays : r.key ∈ behind.map Record.key := by
    have keys : behind.map Record.key = stuck.map Record.key := by
      simpa [Function.comp_def, Record.outline] using congrArg (List.map Prod.fst) same
    rw [keys]
    exact List.mem_map_of_mem hr
  rw [records, List.map_append] at distinct
  exact (List.nodup_append.1 distinct).2.2 _ ahead _ stays rfl

/-! ## What a store can write -/

/-- Where every candidate fits a segment, every stored record does. -/
theorem fits_serve (length : store.job.KeepsLength) {request : Request}
    (offers : request.offers = true) (fit : ∀ e ∈ store.emissions request, e.candidate.Fits)
    (h : ∀ r ∈ store.records, r.Fits) : ∀ r ∈ (store.serve request).records, r.Fits := by
  have fits : ∀ c ∈ store.offered request, c.Fits := by
    intro c hc
    rw [← map_candidate_emissionsOf (store.offering request) (store.offered request)] at hc
    obtain ⟨e, he, rfl⟩ := List.mem_map.1 hc
    exact fit e he
  rw [serve_of_offers store offers]
  apply forall_mem_emitAll
  · intro c _ r short _
    have cost := length.footprint_fold c r
    rw [Record.footprint, Record.footprint] at cost
    rw [Record.fits_iff] at short ⊢
    change (store.job.fold c r).length ≤ 251
    omega
  · exact fits
  · exact h

private theorem fits_run (length : store.job.KeepsLength) {requests : List Request}
    (offers : ∀ request ∈ requests, request.offers = true)
    (fit : ∀ e ∈ store.emissionsAlong (requests.map .asked), e.candidate.Fits)
    (h : ∀ r ∈ store.records, r.Fits) :
    ∀ r ∈ (store.run (requests.map .asked)).records, r.Fits := by
  induction requests generalizing store with
  | nil => exact h
  | cons request rest ih =>
    have first := fits_serve length (offers request List.mem_cons_self)
      (fun e mem ↦ fit e (List.mem_append_left _ mem)) h
    have job : (store.serve request).job = store.job := job_serve store request
    apply ih (job ▸ length)
    · exact fun later mem ↦ offers later (List.mem_cons_of_mem _ mem)
    · exact fun e mem ↦ fit e (List.mem_append_right _ mem)
    · exact first

/-- A store that started without records and only took records in, with some of them stored and none
on its way, can write something exactly if its first record fits a segment. Where all candidates fit
and the job keeps lengths, it can. A record that does not fit blocks the records behind it for as
long as the store is served by the schedule: what is gathered is about none of their keys, whatever
the room. -/
theorem writes_iff_first_fits (empty : store.records = []) {requests : List Request}
    (offers : ∀ request ∈ requests, request.offers = true)
    (held : (store.run (requests.map .asked)).records ≠ [])
    (clear : Accumulator.pending (store.run (requests.map .asked)).records = []) :
    let reached := store.run (requests.map .asked)
    ((∃ room, (reached.gather room false).1 ≠ []) ↔
        ∃ r, reached.records.head? = some r ∧ r.Fits) ∧
      (store.job.KeepsLength →
        (∀ e ∈ store.emissionsAlong (requests.map .asked), e.candidate.Fits) →
        ∃ room, (reached.gather room false).1 ≠ []) ∧
      (store.job.KeepsIdentity → store.job.KeepsLength →
        ∀ front r behind, reached.records = front ++ r :: behind → ¬r.Fits →
        ∀ later : List Request, (∀ request ∈ later, request.Scheduled) →
        ∀ room, ∃ taken,
          ((reached.run (later.map .asked)).gather room false).1 =
              (if taken = [] then [] else Wire.segmentOf store.id taken) ∧
            ∀ s ∈ r :: behind, s.key ∉ taken.map Wire.Entry.key) := by
  intro reached
  have writes : (∃ room, (reached.gather room false).1 ≠ []) ↔
      ∃ r, reached.records.head? = some r ∧ r.Fits := Accumulator.gather_ne_nil_iff clear
  refine ⟨writes, ?_, ?_⟩
  · intro length fit
    have all := fits_run length offers fit (by simp [empty])
    apply writes.2
    obtain ⟨r, rest, records⟩ := List.exists_cons_of_ne_nil held
    exact ⟨r, by rw [records, List.head?_cons], all r (by simp [records])⟩
  · intro keeps length front r behind records long later scheduled room
    have free : ∀ s ∈ r :: behind, s.isPending = false := by
      have none : ∀ s ∈ reached.records, s.isPending = false := by
        simpa [Accumulator.pending, List.filter_eq_nil_iff] using clear
      intro s hs
      exact none s (records ▸ List.mem_append_right front hs)
    have blocks : Blocks (r :: behind) := ⟨⟨r, rfl, long⟩, free⟩
    have start : reached.Behind (r :: behind) := by
      rw [Behind, records, List.map_append]
      exact List.suffix_append ..
    have job : reached.job = store.job := job_run store _
    have last := blocks.behind_run (job ▸ keeps) (job ▸ length) start scheduled
    have one := ((OnePerKey.of_empty empty).run keeps (requests.map .asked)).run (job ▸ keeps)
      (later.map .asked)
    refine ⟨_, ?_, blocks.not_gathered last one.distinct room⟩
    simp only [gather, Accumulator.gather_eq, id_run, reached]

/-- A record of two bytes. -/
def shortRecord : Record := { key := [97], value := [1] }

/-- A record of 252 bytes, three fewer than a record may have and one more than a segment can carry.
-/
def longRecord : Record := { key := [110], value := List.replicate 251 0 }

/-- The long record is taken in before the short one, which is then in front of it. -/
def longFirst : List Request := [.emit longRecord, .emit shortRecord]

/-- The short record is sent and confirmed, and another one comes and goes. -/
def sentByTheSchedule : List Request :=
  [.gather 255 false, .cleanup .pendingOnly, .emit { key := [98], value := [2] },
    .gather 255 false, .cleanup .pendingOnly]

/-- The short record can be written while it is in front of the long one, and the long one is not
even written when nothing is left in front of it. -/
theorem writes_longFirst :
    latestValues.records = [] ∧
      (latestValues.run (longFirst.map .asked)).records ≠ [] ∧
      Accumulator.pending (latestValues.run (longFirst.map .asked)).records = [] ∧
      (∃ room, ((latestValues.run (longFirst.map .asked)).gather room false).1 ≠ []) ∧
      (∀ room, ∃ taken,
        (((latestValues.run (longFirst.map .asked)).run (sentByTheSchedule.map .asked)).gather
            room false).1 = (if taken = [] then [] else Wire.segmentOf 1 taken) ∧
          [110] ∉ taken.map Wire.Entry.key) := by
  have held : (latestValues.run (longFirst.map .asked)).records =
      [storedCopy shortRecord, storedCopy longRecord] := by decide +kernel
  have some : (latestValues.run (longFirst.map .asked)).records ≠ [] := by simp [held]
  have clear : Accumulator.pending (latestValues.run (longFirst.map .asked)).records = [] := by
    rw [held]
    decide +kernel
  have offers : ∀ request ∈ longFirst, request.offers = true := by decide
  have scheduled : ∀ request ∈ sentByTheSchedule, request.Scheduled := by
    simp [sentByTheSchedule, Request.Scheduled]
  obtain ⟨writes, -, blocked⟩ :=
    writes_iff_first_fits (rfl : latestValues.records = []) offers some clear
  refine ⟨rfl, some, clear, ?_, ?_⟩
  · apply writes.2
    rw [held]
    exact ⟨storedCopy shortRecord, rfl, by decide⟩
  · intro room
    obtain ⟨taken, written, others⟩ := blocked keepsIdentity_latest keepsLength_latest
      [storedCopy shortRecord] (storedCopy longRecord) [] held (by decide +kernel)
      sentByTheSchedule scheduled room
    exact ⟨taken, written, others (storedCopy longRecord) List.mem_cons_self⟩

/-- Not everything that is taken in can be written: behind a record of 252 bytes a store with
nothing on its way writes nothing, whatever the room. -/
theorem longRecord_blocks_shortRecord :
    Record.make [97] [1] = .ok shortRecord ∧
      Record.make [110] (List.replicate 251 0) = .ok longRecord ∧
      (latestValues.run (longFirst.reverse.map .asked)).records =
        [storedCopy longRecord, storedCopy shortRecord] ∧
      Accumulator.pending (latestValues.run (longFirst.reverse.map .asked)).records = [] ∧
      ∀ room, ((latestValues.run (longFirst.reverse.map .asked)).gather room false).1 = [] := by
  have short : Record.make [97] [1] = .ok shortRecord := (Record.make_eq_ok_iff ..).2 (by decide)
  have long : Record.make [110] (List.replicate 251 0) = .ok longRecord :=
    (Record.make_eq_ok_iff ..).2 (by decide +kernel)
  have held : (latestValues.run (longFirst.reverse.map .asked)).records =
      [storedCopy longRecord, storedCopy shortRecord] := by decide +kernel
  have clear : Accumulator.pending [storedCopy longRecord, storedCopy shortRecord] = [] := by
    decide +kernel
  refine ⟨short, long, held, held ▸ clear, ?_⟩
  by_contra writes
  obtain ⟨room, some⟩ := not_forall.1 writes
  obtain ⟨r, first, fits⟩ := (Accumulator.gather_ne_nil_iff (held ▸ clear)).1 ⟨room, some⟩
  rw [held, List.head?_cons, Option.some.injEq] at first
  subst first
  exact absurd fits (by decide +kernel)

end Store
end CollectionTree
