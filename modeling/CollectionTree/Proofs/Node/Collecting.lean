import CollectionTree.Proofs.Node.Books
import CollectionTree.Proofs.Workload.Tallies

/-!
# Readings at one node

What a node of a deployment holds under a key of the collecting job, and what each of its steps does
to that. `Collects` is the invariant: the records on their way are those of its frame, none is
urgent, and the ledger has room for whatever may come.
-/

namespace CollectionTree

/-! ## What is bound -/

/-- What may be bound to a node: the collecting job, and behind it perhaps the detecting one. -/
inductive Jobs : List (UInt8 × Job) → Prop
  | collecting (x y : UInt8) (windowSecs : Nat) :
      Jobs [(Collect.jobId, Collect.job x y windowSecs)]
  | detecting (x y : UInt8) (windowSecs : Nat) :
      Jobs [(Collect.jobId, Collect.job x y windowSecs), (Detect.jobId, Detect.job)]

/-- The lengths of what is bound to an id. -/
def shapeOf (id : UInt8) : Shape := if id = Collect.jobId then Collect.shape else Detect.shape

namespace Jobs

variable {bindings : List (UInt8 × Job)} {id : UInt8} {job : Job}

private theorem nodup (h : Jobs bindings) : (bindings.map Prod.fst).Nodup := by
  cases h with
  | collecting => exact List.nodup_singleton _
  | detecting => simp [Collect.jobId, Detect.jobId]

/-- Only the collecting and the detecting job may be bound. -/
theorem cases_of_mem (h : Jobs bindings) (bound : (id, job) ∈ bindings) :
    (id = Collect.jobId ∧ ∃ x y windowSecs, job = Collect.job x y windowSecs) ∨
      (id = Detect.jobId ∧ job = Detect.job) := by
  cases h with
  | collecting x y windowSecs =>
    obtain ⟨rfl, rfl⟩ := Prod.mk.inj (List.mem_singleton.1 bound)
    exact .inl ⟨rfl, x, y, windowSecs, rfl⟩
  | detecting x y windowSecs =>
    rcases List.mem_cons.1 bound with same | bound
    · obtain ⟨rfl, rfl⟩ := Prod.mk.inj same
      exact .inl ⟨rfl, x, y, windowSecs, rfl⟩
    · obtain ⟨rfl, rfl⟩ := Prod.mk.inj (List.mem_singleton.1 bound)
      exact .inr ⟨rfl, rfl⟩

private theorem shaped (h : Jobs bindings) (bound : (id, job) ∈ bindings) :
    job.Shaped (shapeOf id) := by
  rcases h.cases_of_mem bound with ⟨rfl, x, y, windowSecs, rfl⟩ | ⟨rfl, rfl⟩
  · exact (Collect.additive_job x y windowSecs ⟨0, 0, 0, 0⟩).shaped
  · exact Detect.shaped_job

/-- What either job makes of a fact has the right lengths. -/
theorem fits_map (h : Jobs bindings) (bound : (id, job) ∈ bindings) (elapsed : Nat)
    (key value : Bytes) : ∀ c ∈ job.map elapsed key value, (shapeOf id).Fits c.entry := by
  rcases h.cases_of_mem bound with ⟨rfl, x, y, windowSecs, rfl⟩ | ⟨rfl, rfl⟩
  · obtain ⟨readings, same, -⟩ := Collect.map_eq_records x y windowSecs elapsed key value
    show ∀ c ∈ Collect.map x y windowSecs elapsed key value, _
    rw [same]
    exact Collect.fits_map_record readings
  · exact Detect.fits_map elapsed key value

/-- The collecting job comes first, and what is behind it costs little. -/
theorem exists_collector {n : Node} (h : Jobs n.bindings) (books : n.Books shapeOf) :
    ∃ acc rest, n.accumulators = acc :: rest ∧ acc.id = Collect.jobId ∧
      (∃ x y windowSecs, acc.job = Collect.job x y windowSecs) ∧
      (rest.map Accumulator.footprint).sum ≤ Detect.shape.most := by
  have tidy := books.tidy
  generalize same : n.bindings = bindings at h
  cases h with
  | collecting x y windowSecs =>
    obtain ⟨acc, rest, accs, first, none⟩ := List.map_eq_cons_iff.1 same
    obtain rfl := List.map_eq_nil_iff.1 none
    obtain ⟨id, job⟩ := Prod.mk.inj first
    exact ⟨acc, [], accs, id, ⟨x, y, windowSecs, job⟩, Nat.zero_le _⟩
  | detecting x y windowSecs =>
    obtain ⟨acc, rest, accs, first, later⟩ := List.map_eq_cons_iff.1 same
    obtain ⟨other, none, rfl, second, none'⟩ := List.map_eq_cons_iff.1 later
    obtain rfl := List.map_eq_nil_iff.1 none'
    obtain ⟨id, job⟩ := Prod.mk.inj first
    obtain ⟨id', job'⟩ := Prod.mk.inj second
    refine ⟨acc, [other], accs, id, ⟨x, y, windowSecs, job⟩, ?_⟩
    have sighted := tidy other (by simp [accs])
    rw [id'] at sighted
    have few : other.footprint ≤ Detect.shape.most := sighted.footprint_le
    simpa using few

variable {n : Node}

/-- The two jobs have different ids. -/
theorem distinctIds (h : Jobs n.bindings) : n.DistinctIds := by
  have ids : n.accumulators.map (·.id) = n.bindings.map Prod.fst := by
    simp [Node.bindings, Function.comp_def]
  rw [Node.DistinctIds, ids]
  exact h.nodup

/-- Every bound job keeps to the lengths for its id. -/
theorem shaped_of_mem (h : Jobs n.bindings) :
    ∀ acc ∈ n.accumulators, acc.job.Shaped (shapeOf acc.id) :=
  fun acc hacc ↦ h.shaped (List.mem_map.2 ⟨acc, hacc, rfl⟩)

/-- A fact keeps the books of both jobs. -/
theorem books_sow (h : Jobs n.bindings) (books : n.Books shapeOf) (id : UInt8) (elapsed : Nat)
    (key value : Bytes) : (n.sow id elapsed key value).2.Books shapeOf := by
  refine books.sow h.shaped_of_mem fun acc hacc same ↦ ?_
  exact h.fits_map (List.mem_map.2 ⟨acc, hacc, by rw [same]⟩) elapsed key value

end Jobs

/-! ## The collecting accumulator at its turn -/

/-- The record is held by a store and not to be sent ahead of the schedule. -/
def Record.Routine (r : Record) : Prop := r.flags.stored = true ∧ r.isUrgent = false

namespace Store

/-- The store of the collecting job, in whose ledger others hold little. -/
structure Collecting (store : Store) : Prop where
  job : ∃ x y windowSecs, store.job = Collect.job x y windowSecs
  balanced : ∃ others ≤ Detect.shape.most, store.Balanced Collect.shape others
  routine : ∀ r ∈ store.records, r.Routine

variable {store : Store} {candidates : List Record}

private theorem Collecting.additive (h : store.Collecting) (key : Collect.Key) :
    store.job.Additive Collect.shape.Fits (Collect.tallyUnder key) := by
  obtain ⟨x, y, windowSecs, job⟩ := h.job
  rw [job]
  exact Collect.additive_job x y windowSecs key

private theorem Collecting.keeps (h : store.Collecting) : store.job.KeepsIdentity :=
  (h.additive ⟨0, 0, 0, 0⟩).keeps

/-- None of the records that come in is refused. -/
theorem Collecting.weigh_emitAll (h : store.Collecting)
    (fits : ∀ c ∈ candidates, Collect.shape.Fits c.entry) (key : Collect.Key) :
    weigh (Collect.tallyUnder key) (store.emitAll candidates).2.records =
      weigh (Collect.tallyUnder key) store.records +
        weigh (Collect.tallyUnder key) candidates := by
  obtain ⟨others, few, balanced⟩ := h.balanced
  have room : 2 * Collect.shape.most + others < ledgerModulus := by
    have most : 2 * Collect.shape.most + Detect.shape.most < ledgerModulus := by decide +kernel
    omega
  rw [Store.weigh_emitAll (h.additive key) balanced.tidy.fits fits,
    balanced.accepted (h.additive key).shaped fits room]

private theorem Collecting.routine_emitAll (h : store.Collecting)
    (calm : ∀ c ∈ candidates, c.isUrgent = false) :
    ∀ r ∈ (store.emitAll candidates).2.records, r.Routine := by
  have keeps := h.keeps
  refine forall_mem_emitAll ?_ ?_ h.routine
  · intro c hc r hr about
    refine ⟨?_, by rw [keeps.isUrgent_fold, hr.2, calm c hc]; rfl⟩
    have flags := (keeps r c.value).2
    rw [Job.fold, calm c hc]
    exact (congrArg Flags.stored flags).trans hr.1
  · intro c hc
    exact ⟨by simp [storedCopy, Record.mark, Flags.union, Flags.storedOnly],
      (isUrgent_storedCopy c).trans (calm c hc)⟩

private theorem pending_emitAll_of_eq_nil (keeps : store.job.KeepsIdentity)
    (quiet : Accumulator.pending store.records = []) (candidates : List Record) :
    Accumulator.pending (store.emitAll candidates).2.records = [] := by
  have keys := keys_pending_emitAll store keeps candidates
  rw [quiet] at keys
  exact List.map_eq_nil_iff.1 keys

end Store

/-! ## The invariant of a node -/

/-- What a frame carries for the collecting job. -/
def carried : Option Outgoing → List Wire.Entry
  | none => []
  | some frame => Wire.entriesFor frame.payload Collect.jobId

namespace Node

/-- What is stored under a key of the collecting job. -/
def stored (key : Collect.Key) (n : Node) : Collect.Tally :=
  weigh (Collect.tallyUnder key) (n.recordsFor Collect.jobId)

/-- A node of a deployment, with the frame of it that waits to be settled and the one that is under
way. -/
structure Collects (n : Node) (waiting flying : Option Outgoing) : Prop where
  opened : n.closed = false
  jobs : Jobs n.bindings
  books : n.Books shapeOf
  routine : ∀ r ∈ n.recordsFor Collect.jobId, r.Routine
  pending : (Accumulator.pending (n.recordsFor Collect.jobId)).map Record.entry =
    carried waiting ++ carried flying
  sink : n.gradient.isSink = true → carried waiting ++ carried flying = []

variable {n n' : Node} {waiting flying : Option Outgoing}

namespace Collects

/-- A node of a deployment has distinct ids. -/
theorem distinct (h : n.Collects waiting flying) : n.DistinctIds := h.jobs.distinctIds

/-- What changes nothing of all this. -/
theorem congr (h : n.Collects waiting flying)
    (records : n'.recordsFor Collect.jobId = n.recordsFor Collect.jobId)
    (bindings : n'.bindings = n.bindings) (books : n'.Books shapeOf)
    (closed : n'.closed = n.closed) (isSink : n'.gradient.isSink = n.gradient.isSink) :
    n'.Collects waiting flying where
  opened := closed.trans h.opened
  jobs := bindings ▸ h.jobs
  books := books
  routine := by
    rw [records]
    exact h.routine
  pending := by
    rw [records]
    exact h.pending
  sink sink := h.sink (isSink ▸ sink)

/-- The collecting accumulator is the first to take its turn. -/
theorem exists_turn (h : n.Collects waiting flying) :
    ∃ acc, n.accumulator? Collect.jobId = some acc ∧
      (∀ operation, n.turnFor? operation Collect.jobId = some ⟨acc, n.ledger, n.counters⟩) ∧
      ∀ counters, Store.Collecting ⟨acc, n.ledger, counters⟩ := by
  obtain ⟨acc, rest, accs, id, job, few⟩ := h.jobs.exists_collector h.books
  have found : n.accumulator? Collect.jobId = some acc := by simp [accumulator?, accs, id]
  have records : n.recordsFor Collect.jobId = acc.records := by simp [recordsFor, found]
  have tidy := h.books.tidy acc (by simp [accs])
  have charged := h.books.charged
  rw [id] at tidy
  rw [accs] at charged
  refine ⟨acc, found, ?_, ?_⟩
  · intro operation
    simp [turnFor?, turns, accs, turnsFrom, id]
  · intro counters
    exact ⟨job, ⟨_, few, tidy, charged, h.books.unlimited⟩, records ▸ h.routine⟩

/-- Records of the collecting job come in while none is on its way. -/
theorem emitted (h : n.Collects none flying) (quiet : carried flying = []) {acc : Accumulator}
    {counters : Counters} {candidates : List Record}
    (found : n.accumulator? Collect.jobId = some acc)
    (records : n'.recordsFor Collect.jobId =
      (Store.emitAll ⟨acc, n.ledger, counters⟩ candidates).2.records)
    (bindings : n'.bindings = n.bindings) (books : n'.Books shapeOf)
    (closed : n'.closed = n.closed)
    (fits : ∀ c ∈ candidates, Collect.shape.Fits c.entry)
    (calm : ∀ c ∈ candidates, c.isUrgent = false) :
    n'.Collects none flying ∧
      ∀ key, n'.stored key = n.stored key + weigh (Collect.tallyUnder key) candidates := by
  obtain ⟨acc', found', -, collecting⟩ := h.exists_turn
  obtain rfl : acc' = acc := Option.some.inj (found'.symm.trans found)
  have before : n.recordsFor Collect.jobId = acc'.records := by simp [recordsFor, found]
  have free : Accumulator.pending acc'.records = [] := by
    have pending := h.pending
    rw [quiet, before] at pending
    exact List.map_eq_nil_iff.1 pending
  refine ⟨⟨closed.trans h.opened, bindings ▸ h.jobs, books, ?_, ?_, ?_⟩, ?_⟩
  · rw [records]
    exact (collecting counters).routine_emitAll calm
  · rw [records, Store.pending_emitAll_of_eq_nil (collecting counters).keeps free, quiet]
    rfl
  · exact fun _ ↦ quiet
  · intro key
    rw [stored, stored, records, before]
    exact (collecting counters).weigh_emitAll fits key

/-- A payload is taken in while nothing is on its way; an urgent one has nothing for the job. -/
theorem receive (h : n.Collects none flying) (quiet : carried flying = []) {payload : Bytes}
    (fits : ∀ id, ∀ e ∈ Wire.entriesFor payload id, (shapeOf id).Fits e)
    (calm : Wire.flaggedUrgent payload = true → Wire.entriesFor payload Collect.jobId = []) :
    (n.receive payload).Collects none flying ∧
      ∀ key, (n.receive payload).stored key = n.stored key +
        weighEntries (Collect.tallyUnder key) (Wire.entriesFor payload Collect.jobId) := by
  obtain ⟨acc, found, turn, -⟩ := h.exists_turn
  have id : acc.id = Collect.jobId := (n.mem_accumulators_of_accumulator? found).2
  have records : (n.receive payload).recordsFor Collect.jobId =
      (Store.emitAll ⟨acc, n.ledger, n.counters⟩
        (Store.arrivals payload Collect.jobId)).2.records := by
    rw [receive_eq]
    rcases n.onEach_cases (Store.taking payload) (Store.id_taking payload) Collect.jobId with
      ⟨none, -, -⟩ | ⟨store, some, -, -, after⟩
    · rw [turn] at none
      cases none
    · rw [turn] at some
      obtain rfl := Option.some.inj some
      simp only [recordsFor, after, Option.map_some, Option.getD_some, Store.taking, id]
  have arrive : ∀ c ∈ Store.arrivals payload Collect.jobId, c.isUrgent = false := by
    intro c hc
    obtain ⟨e, he, rfl⟩ := List.mem_map.1 hc
    rw [Store.isUrgent_candidateOf]
    cases urgent : Wire.flaggedUrgent payload with
    | false => rfl
    | true =>
      rw [calm urgent] at he
      cases he
  have after := h.emitted quiet found records (n.bindings_receive payload)
    (h.books.receive h.jobs.shaped_of_mem fits) (n.closed_receive payload)
    (Store.forall_mem_arrivals (fits Collect.jobId)) arrive
  simpa only [weigh, Store.map_entry_arrivals] using after

/-- A payload of the right lengths is taken in, and what is stored grows by the readings that it
carries. -/
theorem takingIn (h : n.Collects none flying) (quiet : carried flying = []) {payload : Bytes}
    (fits : ∀ id, ∀ e ∈ Wire.entriesFor payload id, (shapeOf id).Fits e)
    (calm : Wire.flaggedUrgent payload = true → Wire.entriesFor payload Collect.jobId = []) :
    (n.takingIn payload).Collects none flying ∧
      ∀ key, (n.takingIn payload).stored key = n.stored key +
        weighEntries (Collect.tallyUnder key) (Wire.entriesFor payload Collect.jobId) := by
  have counted : Collects { n with counters := n.counters.addReceived } none flying :=
    h.congr rfl rfl (h.books.congr rfl rfl) rfl rfl
  exact counted.receive quiet fits calm

/-- What is sown for another job leaves the collecting one alone. -/
theorem sow_of_ne (h : n.Collects waiting flying) {id : UInt8} (other : Collect.jobId ≠ id)
    (elapsed : Nat) (key value : Bytes) :
    (n.sow id elapsed key value).2.Collects waiting flying ∧
      ∀ k, (n.sow id elapsed key value).2.stored k = n.stored k := by
  have records := n.recordsFor_sow_of_ne other elapsed key value
  have keeps := n.sow_keeps id elapsed key value
  have books := h.jobs.books_sow h.books id elapsed key value
  refine ⟨h.congr records (n.bindings_sow id elapsed key value) books keeps.2
    (congrArg Gradient.isSink keeps.1), fun k ↦ ?_⟩
  rw [stored, records, stored]

end Collects

/-- What the collecting job makes of a fact. -/
def collected (n : Node) (elapsed : Nat) (key value : Bytes) : List Record :=
  ((n.accumulator? Collect.jobId).map fun acc ↦ acc.job.map elapsed key value).getD []

namespace Collects

/-- What the collecting job makes of a fact is the records of readings. -/
theorem exists_readings (h : n.Collects waiting flying) (elapsed : Nat) (key value : Bytes) :
    ∃ readings : List Collect.Reading,
      n.collected elapsed key value = readings.map Collect.Reading.record := by
  obtain ⟨acc, found, -, collecting⟩ := h.exists_turn
  obtain ⟨x, y, windowSecs, job⟩ := (collecting n.counters).job
  obtain ⟨readings, same, -⟩ := Collect.map_eq_records x y windowSecs elapsed key value
  refine ⟨readings, ?_⟩
  rw [collected, found, Option.map_some, Option.getD_some, ← same]
  exact congrArg (fun job ↦ job.map elapsed key value) job

/-- A fact is taken in whole while nothing is on its way. -/
theorem sow (h : n.Collects none flying) (quiet : carried flying = []) (elapsed : Nat)
    (fact value : Bytes) :
    (n.sow Collect.jobId elapsed fact value).2.Collects none flying ∧
      ∀ key, (n.sow Collect.jobId elapsed fact value).2.stored key =
        n.stored key + weigh (Collect.tallyUnder key) (n.collected elapsed fact value) := by
  obtain ⟨acc, found, -, -⟩ := h.exists_turn
  obtain ⟨readings, made⟩ := h.exists_readings elapsed fact value
  have records : (n.sow Collect.jobId elapsed fact value).2.recordsFor Collect.jobId =
      (Store.emitAll ⟨acc, n.ledger, n.counters.addMapped⟩
        (n.collected elapsed fact value)).2.records := by
    have step := n.sown_sow Collect.jobId elapsed fact value
    generalize (n.sow Collect.jobId elapsed fact value).2 = n' at step ⊢
    cases step with
    | unbound missing =>
      rw [found] at missing
      cases missing
    | taken taken bindings here elsewhere rest =>
      rw [storeFor?, found] at taken
      obtain rfl := Option.some.inj taken
      simp only [recordsFor, here, collected, found, Option.map_some, Option.getD_some]
      rfl
  refine h.emitted quiet found records (n.bindings_sow ..) (h.jobs.books_sow h.books ..)
    (n.sow_keeps ..).2 ?_ ?_
  · rw [made]
    exact Collect.fits_map_record readings
  · rw [made]
    intro c hc
    obtain ⟨r, -, rfl⟩ := List.mem_map.1 hc
    exact Collect.isUrgent_record r

/-! ### Settled frames -/

/-- Confirmation removes what the frame carried. -/
theorem confirmed (h : n.Collects waiting flying) (quiet : carried flying = []) :
    n.confirmed.Collects none flying ∧
      ∀ key, n.confirmed.stored key + weighEntries (Collect.tallyUnder key) (carried waiting) =
        n.stored key := by
  have pending := h.pending
  rw [quiet, List.append_nil] at pending
  have none : Accumulator.pending (n.confirmed.recordsFor Collect.jobId) = [] :=
    List.map_eq_nil_iff.1 (n.pendingKeys_confirmed Collect.jobId)
  have books : Books shapeOf { n with counters := n.counters.addSent } := h.books.congr rfl rfl
  refine ⟨⟨h.opened, n.bindings_confirmed ▸ h.jobs, books.cleanup _, ?_, ?_, fun _ ↦ quiet⟩, ?_⟩
  · rw [recordsFor_confirmed]
    exact fun r hr ↦ h.routine r (List.mem_filter.1 hr).1
  · rw [none, quiet]
    rfl
  · intro key
    rw [stored, stored, recordsFor_confirmed, ← pending, add_comm]
    exact weigh_filter_add (Collect.tallyUnder key) (·.isPending) (n.recordsFor Collect.jobId)

/-- Giving up keeps everything. -/
theorem givenUp (h : n.Collects waiting flying) (quiet : carried flying = []) :
    n.givenUp.Collects none flying ∧ ∀ key, n.givenUp.stored key = n.stored key := by
  have entries : (n.givenUp.recordsFor Collect.jobId).map Record.entry =
      (n.recordsFor Collect.jobId).map Record.entry := by
    simp [recordsFor_givenUp, Function.comp_def]
  have none : Accumulator.pending (n.givenUp.recordsFor Collect.jobId) = [] :=
    List.map_eq_nil_iff.1 (n.pendingKeys_givenUp Collect.jobId)
  have books : Books shapeOf { n with counters := n.counters.addTimedOut } :=
    h.books.congr rfl rfl
  refine ⟨⟨h.opened, n.bindings_givenUp ▸ h.jobs, books.releasePending, ?_, ?_, fun _ ↦ quiet⟩,
    fun key ↦ ?_⟩
  · rw [recordsFor_givenUp]
    intro released hreleased
    obtain ⟨r, hr, rfl⟩ := List.mem_map.1 hreleased
    have routine := h.routine r hr
    exact ⟨by simpa [Record.unmark, Flags.diff, Flags.pendingOnly] using routine.1,
      (Record.isUrgent_unmark_pending r).trans routine.2⟩
  · rw [none, quiet]
    rfl
  · rw [stored, stored, weigh, weigh, entries]

end Collects

/-! ### Flushes -/

/-- What reaches the sink under a key among some outputs. -/
def consumedAmong (key : Collect.Key) (outputs : List Output) : Collect.Tally :=
  (outputs.map (Results.consumedUnder key)).sum

/-- What is consumed in two lots of outputs adds up. -/
@[simp] theorem consumedAmong_append (key : Collect.Key) (outputs more : List Output) :
    consumedAmong key (outputs ++ more) = consumedAmong key outputs + consumedAmong key more := by
  simp [consumedAmong]

/-- What reaches the sink is what is handed over for the collecting job. -/
theorem consumedAmong_eq (key : Collect.Key) (outputs : List Output) :
    consumedAmong key outputs =
      weighEntries (Collect.tallyUnder key) (handedOver Collect.jobId outputs) := by
  induction outputs with
  | nil => rfl
  | cons output rest ih =>
    rw [consumedAmong, List.map_cons, List.sum_cons]
    change _ + consumedAmong key rest = _
    rw [ih]
    cases output with
    | consume job about value =>
      by_cases same : job = Collect.jobId
      · simp [Results.consumedUnder, handedOver, same]
      · simp [Results.consumedUnder, handedOver, same]
    | start | announce | stop | offer => exact zero_add _

/-- The sink uses up what its collecting job holds. -/
theorem consumedAmong_consumption (distinct : n.DistinctIds) (key : Collect.Key) :
    consumedAmong key (consumption n.accumulators) = n.stored key := by
  rw [consumedAmong_eq, handedOver_consumption distinct]
  rfl

/-- What a node hands to its radio: for its parent, with entries of the right lengths, and without
any for the collecting job if it is urgent. -/
structure Sends (n : Node) (urgent : Bool) (frame : Outgoing) : Prop where
  route : n.gradient.parent = some frame.target
  fits : ∀ id, ∀ e ∈ Wire.entriesFor frame.payload id, (shapeOf id).Fits e
  flagged : Wire.flaggedUrgent frame.payload = urgent
  calm : urgent = true → carried (some frame) = []

/-- A flush moves readings, from what is stored to the frame or to the sink, and loses none. -/
theorem Collects.flushed (h : n.Collects none flying) {radio : Radio} {urgent : Bool}
    {reaction : Reaction Bool Node Output} (free : radio.busy = flying.isSome)
    (step : Flushed n radio urgent reaction) :
    reaction.state.Collects none ((takenFrame? reaction.outputs).or flying) ∧
      (∀ key, reaction.state.stored key + consumedAmong key reaction.outputs = n.stored key) ∧
      ∀ frame, takenFrame? reaction.outputs = some frame → n.Sends urgent frame := by
  cases step with
  | idle gate source =>
    refine ⟨h.congr rfl rfl (h.books.congr rfl rfl) rfl rfl, fun key ↦ ?_, by simp [takenFrame?]⟩
    exact add_zero _
  | consumed sink =>
    have gone : (n.cleanup .all).recordsFor Collect.jobId = [] := by
      rw [recordsFor_cleanup, List.filter_eq_nil_iff]
      intro r hr
      simp [Record.bears, Flags.intersects, Flags.all, (h.routine r hr).1]
    rw [takenFrame?_consumption]
    refine ⟨⟨h.opened, n.bindings_cleanup .all ▸ h.jobs, h.books.cleanup _, ?_, ?_, h.sink⟩, ?_,
      by simp⟩
    · simp [gone]
    · rw [gone]
      exact (h.sink sink).symm
    · intro key
      rw [consumedAmong_consumption h.distinct, stored, gone]
      exact zero_add _
  | @taken gate source parent payload inner route idle accepted carries loaded =>
    rw [idle] at free
    obtain rfl : flying = none := Option.not_isSome_iff_eq_none.1 (by simp [← free])
    have isPrefix := carries.ready_recordsFor Collect.jobId
    have entries := List.prefix_iff_eq_take.1 isPrefix
    refine ⟨⟨h.opened, ?_, h.books.markAll _ _ gate source, ?_, ?_, ?_⟩, fun key ↦ ?_, ?_⟩
    · have bindings : Node.bindings { n with
          gate, source
          accumulators := markAll urgent (Wire.entriesFor payload) n.accumulators } =
          n.bindings := by simp [bindings, markAll]
      exact bindings ▸ h.jobs
    · rw [recordsFor_markAll]
      refine Accumulator.forall_mem_markReady (fun r hr ↦ ?_) _ _ h.routine
      exact ⟨by simpa [Record.mark, Flags.union, Flags.pendingOnly] using hr.1,
        (Record.isUrgent_mark_pending r).trans hr.2⟩
    · rw [recordsFor_markAll, Accumulator.pending_markReady urgent _
        (List.map_eq_nil_iff.1 h.pending), ← entries]
      rfl
    · intro sink
      rw [show n.gradient.isSink = true from sink] at inner
      cases inner
    · rw [stored, stored, recordsFor_markAll, weigh, weigh, Accumulator.map_entry_markReady]
      exact add_zero _
    · intro frame same
      obtain rfl : ⟨parent, payload, n.config.maxRetries⟩ = frame := Option.some.inj same
      refine ⟨route, fun id e he ↦ ?_, carries.flagged, ?_⟩
      · have mem := (carries.ready_recordsFor id).subset he
        obtain ⟨r, hr, rfl⟩ := List.mem_map.1 mem
        exact h.books.fits_recordsFor id r (List.mem_filter.1 hr).1
      · rintro rfl
        have none : Accumulator.ready true (n.recordsFor Collect.jobId) = [] := by
          rw [Accumulator.ready, List.map_eq_nil_iff, List.filter_eq_nil_iff]
          intro r hr
          simp [Record.eligible, (h.routine r hr).2]
        rw [none] at isPrefix
        exact List.prefix_nil.1 isPrefix
  | @refused gate source parent payload inner idle filled rejected =>
    rw [idle] at free
    obtain rfl : flying = none := Option.not_isSome_iff_eq_none.1 (by simp [← free])
    have records : Node.recordsFor
        { n with gate, source, accumulators := n.accumulators.map Accumulator.releasePending }
        Collect.jobId = n.recordsFor Collect.jobId := by
      refine (recordsFor_releasePending { n with gate, source } Collect.jobId).trans ?_
      exact Accumulator.map_unmark_of_pending_eq_nil (List.map_eq_nil_iff.1 h.pending)
    have books : Books shapeOf { n with gate, source } := h.books.congr rfl rfl
    refine ⟨h.congr records (bindings_releasePending { n with gate, source })
      books.releasePending rfl rfl, fun key ↦ ?_, by simp [takenFrame?]⟩
    rw [stored, records]
    exact add_zero _

end Node
end CollectionTree
