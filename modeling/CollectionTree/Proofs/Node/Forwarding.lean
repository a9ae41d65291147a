import CollectionTree.Proofs.Node.Accounts
import CollectionTree.Proofs.Node.Collecting
import CollectionTree.Proofs.Node.Congestion
import CollectionTree.Proofs.Node.Counting
import CollectionTree.Proofs.Node.Draining
import CollectionTree.Proofs.Node.Hop

/-!
# Forwarding without losses

Where every frame arrives, a node has at most one frame of which it has not been told that it was
confirmed. `Node.Forwards` says what holds of a node and that frame: the records on their way are
those that the frame carries, no reading is urgent, and no flush was ever skipped. Every step of a
node keeps it. As long as something is ready and nothing is on its way, a flush has a frame taken:
`Forwards.isSome_takenFrame?`.
-/

namespace CollectionTree

private theorem Store.length_emitAll_le (store : Store) (candidates : List Record) :
    (store.emitAll candidates).2.records.length ≤ store.records.length + candidates.length := by
  induction candidates generalizing store with
  | nil => exact Nat.le_refl _
  | cons candidate rest ih =>
    have first : (store.emit candidate).2.records.length ≤ store.records.length + 1 := by
      have step := store.emitStep_emit candidate
      generalize store.emit candidate = outcome at step ⊢
      cases step with
      | merged records first about => simp [records]
      | inserted absent paid => simp
      | refused absent full => exact Nat.le_succ _
    have later := ih (store.emit candidate).2
    simp only [emitAll, List.length_cons] at later ⊢
    omega

namespace Node

variable {n n' : Node} {id : UInt8} {candidates : List Record}

/-! ## What comes in for one job -/

/-- Nothing is bound to an id, or its accumulator takes some candidates in. -/
inductive Gets (n : Node) (id : UInt8) (candidates : List Record) (n' : Node) : Prop
  | unbound (before : n.recordsFor id = []) (after : n'.recordsFor id = [])
  | bound (store : Store) (found : n.accumulator? id = some store.toAccumulator)
      (after : n'.recordsFor id = (store.emitAll candidates).2.records)

/-- A payload gets to the accumulator with an id as what it carries for that id. -/
theorem gets_takingIn (n : Node) (payload : Bytes) (id : UInt8) :
    n.Gets id (Store.arrivals payload id) (n.takingIn payload) := by
  rw [takingIn, receive_eq]
  rcases onEach_cases { n with counters := n.counters.addReceived } (Store.taking payload)
    (Store.id_taking payload) id with ⟨-, before, after⟩ | ⟨store, -, rfl, before, after⟩
  · have none : n.accumulator? id = none := before
    exact .unbound (by simp [recordsFor, none]) (by simp [recordsFor, after])
  · exact .bound store before (by simp [recordsFor, after, Store.taking])

/-- What the job with an id makes of a fact. -/
def made (n : Node) (id : UInt8) (elapsed : Nat) (key value : Bytes) : List Record :=
  ((n.accumulator? id).map fun acc ↦ acc.job.map elapsed key value).getD []

/-- A fact gets to the accumulator with an id as what the job makes of it. -/
theorem gets_sow (n : Node) (id : UInt8) (elapsed : Nat) (key value : Bytes) :
    n.Gets id (n.made id elapsed key value) (n.sow id elapsed key value).2 := by
  have step := n.sown_sow id elapsed key value
  generalize (n.sow id elapsed key value).2 = n' at step ⊢
  cases step with
  | unbound missing =>
    exact .unbound (by simp [recordsFor, missing]) (by simp [recordsFor, missing])
  | taken found bindings here elsewhere rest =>
    obtain ⟨acc, bound, rfl⟩ := Option.map_eq_some_iff.1 found
    refine .bound ⟨acc, n.ledger, n.counters.addMapped⟩ bound ?_
    simp only [recordsFor, here, made, bound, Option.map_some, Option.getD_some]
    rfl

/-- What holds of all records and of what comes in holds of all records afterwards. -/
theorem Gets.forall_mem (h : n.Gets id candidates n') {P : Record → Prop}
    (fold : ∀ acc ∈ n.accumulators, ∀ c ∈ candidates, ∀ r, P r → r.key = c.key →
      P (acc.job.fold c r))
    (stored : ∀ c ∈ candidates, P (Store.storedCopy c)) (held : ∀ r ∈ n.recordsFor id, P r) :
    ∀ r ∈ n'.recordsFor id, P r := by
  cases h with
  | unbound before after => simp [after]
  | bound store found after =>
    have records : n.recordsFor id = store.records := by simp [recordsFor, found]
    rw [after]
    rw [records] at held
    exact Store.forall_mem_emitAll
      (fold store.toAccumulator (n.mem_accumulators_of_accumulator? found).1) stored held

private theorem Gets.length_le (h : n.Gets id candidates n') :
    (n'.recordsFor id).length ≤ (n.recordsFor id).length + candidates.length := by
  cases h with
  | unbound before after => simp [after]
  | bound store found after =>
    have records : n.recordsFor id = store.records := by simp [recordsFor, found]
    rw [after, records]
    exact store.length_emitAll_le candidates

/-- Where nothing urgent is held and nothing urgent comes in, nothing is urgent afterwards. -/
theorem Gets.calm (h : n.Gets id candidates n') (keeps : n.KeepsIdentity)
    (calm : ∀ c ∈ candidates, c.isUrgent = false)
    (held : ∀ r ∈ n.recordsFor id, r.isUrgent = false) :
    ∀ r ∈ n'.recordsFor id, r.isUrgent = false := by
  refine h.forall_mem (fun acc hacc c hc r slow _ ↦ ?_) (fun c hc ↦ ?_) held
  · rw [(keeps acc hacc).isUrgent_fold, slow, calm c hc]
    rfl
  · rw [Store.isUrgent_storedCopy, calm c hc]

/-! ## What steps leave alone -/

/-- Taking a payload in keeps the configuration. -/
theorem config_takingIn (n : Node) (payload : Bytes) : (n.takingIn payload).config = n.config := by
  rw [takingIn, receive_eq]
  rfl

/-- A fact keeps the configuration. -/
theorem config_sow (n : Node) (id : UInt8) (elapsed : Nat) (key value : Bytes) :
    (n.sow id elapsed key value).2.config = n.config := by
  have step := n.sown_sow id elapsed key value
  generalize (n.sow id elapsed key value).2 = n' at step ⊢
  cases step with
  | unbound missing => rfl
  | taken found bindings here elsewhere rest =>
    obtain ⟨before, after, -, rfl⟩ := rest
    rfl

/-- A node sends a frame that carries the first of its records that it may send, at least one. -/
structure Ships (n : Node) (urgent : Bool) (frame : Outgoing) : Prop
    extends Sends n urgent frame where
  loaded : ∃ id, carriedKeys (some frame) id ≠ []
  front : ∀ id, carriedKeys (some frame) id <+:
    (Accumulator.ready urgent (n.recordsFor id)).map Wire.Entry.key

/-! ## The invariant -/

/-- An open node of a deployment, whose frames have at most `size` bytes, none of whose frames was
ever given up, with the frame of which it has not been told that it was confirmed. -/
structure Forwards (size : Nat) (n : Node) (frame : Option Outgoing) : Prop where
  opened : n.closed = false
  config : n.config.maxPayload = size
  jobs : Jobs n.bindings
  books : n.Books shapeOf
  inOrder : n.InOrder
  routine : ∀ r ∈ n.recordsFor Collect.jobId, r.isUrgent = false
  marks : ∀ id, n.pendingKeys id = carriedKeys frame id
  timely : n.counters.timedOut = 0
  sink : n.gradient.isSink = true → frame = none

variable {size : Nat} {frame frame' : Option Outgoing}

namespace Forwards

/-- A node that forwards has distinct ids. -/
theorem distinct (h : n.Forwards size frame) : n.DistinctIds := h.jobs.distinctIds

private theorem keeps (h : n.Forwards size frame) : n.KeepsIdentity :=
  fun acc hacc ↦ (h.jobs.shaped_of_mem acc hacc).keeps

/-- A node in which only the place in the tree, the draws or other counts changed. -/
theorem congr (h : n.Forwards size frame) (accumulators : n'.accumulators = n.accumulators)
    (ledger : n'.ledger = n.ledger) (closed : n'.closed = n.closed) (config : n'.config = n.config)
    (timedOut : n'.counters.timedOut = n.counters.timedOut)
    (isSink : n'.gradient.isSink = n.gradient.isSink) : n'.Forwards size frame := by
  have records (id : UInt8) : n'.recordsFor id = n.recordsFor id := by
    rw [recordsFor, accumulator?, accumulators]
    rfl
  refine ⟨closed.trans h.opened, config ▸ h.config, ?_, h.books.congr accumulators ledger,
    h.inOrder.congr accumulators ledger, records _ ▸ h.routine, fun id ↦ ?_,
    timedOut.trans h.timely, isSink ▸ h.sink⟩
  · rw [bindings, accumulators]
    exact h.jobs
  · rw [pendingKeys, records]
    exact h.marks id

/-- Records come in, and none of those on their way comes or goes. -/
theorem takingIn (h : n.Forwards size frame) {payload : Bytes}
    (fits : ∀ id, ∀ e ∈ Wire.entriesFor payload id, (shapeOf id).Fits e)
    (calm : Wire.flaggedUrgent payload = true → Wire.entriesFor payload Collect.jobId = []) :
    (n.takingIn payload).Forwards size frame := by
  have books : Books shapeOf { n with counters := n.counters.addReceived } := h.books.congr rfl rfl
  have inOrder := h.inOrder.recounted n.counters.addReceived
  have frames := n.frames_takingIn payload
  refine ⟨(n.closed_takingIn payload).trans h.opened, (n.config_takingIn payload).symm ▸ h.config,
    n.bindings_takingIn payload ▸ h.jobs, books.receive h.jobs.shaped_of_mem fits,
    inOrder.receive payload, ?_, fun id ↦ ?_, ?_, ?_⟩
  · refine (n.gets_takingIn payload Collect.jobId).calm h.keeps (fun c hc ↦ ?_) h.routine
    obtain ⟨e, he, rfl⟩ := List.mem_map.1 hc
    rw [Store.isUrgent_candidateOf]
    cases urgent : Wire.flaggedUrgent payload with
    | false => rfl
    | true =>
      rw [calm urgent] at he
      cases he
  · rw [pendingKeys_takingIn h.keeps, h.marks]
  · exact (congrArg (·.2.2) frames).trans h.timely
  · rw [gradient_takingIn]
    exact h.sink

/-- A fact leaves a node one that forwards. -/
theorem sow (h : n.Forwards size frame) (id : UInt8) (elapsed : Nat) (key value : Bytes) :
    (n.sow id elapsed key value).2.Forwards size frame := by
  have frames := n.frames_sow id elapsed key value
  obtain ⟨gradient, closed⟩ := n.sow_keeps id elapsed key value
  refine ⟨closed.trans h.opened, (n.config_sow id elapsed key value).symm ▸ h.config,
    n.bindings_sow id elapsed key value ▸ h.jobs, h.jobs.books_sow h.books id elapsed key value,
    h.inOrder.sow id elapsed key value, ?_, fun other ↦ ?_, ?_, gradient ▸ h.sink⟩
  · by_cases own : Collect.jobId = id
    · subst own
      refine (n.gets_sow Collect.jobId elapsed key value).calm h.keeps (fun c hc ↦ ?_) h.routine
      cases found : n.accumulator? Collect.jobId with
      | none => simp [made, found] at hc
      | some acc =>
        have bound := mem_bindings_of_accumulator? found
        rcases h.jobs.cases_of_mem bound with ⟨-, x, y, windowSecs, job⟩ | ⟨other, -⟩
        · obtain ⟨readings, same, -⟩ := Collect.map_eq_records x y windowSecs elapsed key value
          have mem : c ∈ (Collect.job x y windowSecs).map elapsed key value := by
            simpa [made, found, job] using hc
          change c ∈ Collect.map x y windowSecs elapsed key value at mem
          rw [same] at mem
          obtain ⟨r, -, rfl⟩ := List.mem_map.1 mem
          exact Collect.isUrgent_record r
        · cases other
    · rw [n.recordsFor_sow_of_ne own]
      exact h.routine
  · rw [pendingKeys_sow h.keeps, h.marks]
  · exact (congrArg (·.2.2) frames).trans h.timely

/-- A confirmation takes away what the frame carried. -/
theorem confirmed (h : n.Forwards size frame) : n.confirmed.Forwards size none := by
  have books : Books shapeOf { n with counters := n.counters.addSent } := h.books.congr rfl rfl
  have frames := n.frames_confirmed
  refine ⟨h.opened, h.config, n.bindings_confirmed ▸ h.jobs, books.cleanup _,
    (h.inOrder.recounted _).cleanup _, ?_, fun id ↦ n.pendingKeys_confirmed id, ?_, fun _ ↦ rfl⟩
  · rw [recordsFor_confirmed]
    exact fun r hr ↦ h.routine r (List.mem_filter.1 hr).1
  · exact (congrArg (·.2.2) frames).trans h.timely

/-- Nothing is on its way at a node without a frame. -/
theorem clear (h : n.Forwards size none) (id : UInt8) :
    Accumulator.pending (n.recordsFor id) = [] :=
  List.map_eq_nil_iff.1 (h.marks id)

/-- Nothing that such a node stores is on its way. -/
theorem isPending_eq_false (h : n.Forwards size none) :
    ∀ acc ∈ n.accumulators, ∀ r ∈ acc.records, r.isPending = false := by
  intro acc hacc
  have none := h.clear acc.id
  rw [recordsFor_of_mem h.distinct hacc] at none
  simpa [Accumulator.pending, List.filter_eq_nil_iff] using none

/-- A busy radio makes a node wait. -/
theorem flush_of_flying {frame : Outgoing} (h : n.Forwards size (some frame)) {radio : Radio}
    (busy : radio.busy = true) (urgent : Bool) : n.flush radio urgent = ⟨false, n, []⟩ := by
  have inner : n.gradient.isSink = false := by
    cases sink : n.gradient.isSink with
    | false => rfl
    | true => cases h.sink sink
  unfold Node.flush
  simp only [h.opened, inner, Bool.false_eq_true, if_false, busy, if_true]
  split <;> rfl

/-- Nothing is left at a sink that uses everything up. -/
theorem consumed (h : n.Forwards size none) : (n.cleanup .all).Forwards size none := by
  have frames := n.frames_cleanup .all
  refine ⟨h.opened, h.config, n.bindings_cleanup .all ▸ h.jobs, h.books.cleanup _,
    h.inOrder.cleanup .all, ?_, fun id ↦ ?_, ?_, fun _ ↦ rfl⟩
  · rw [recordsFor_cleanup]
    exact fun r hr ↦ h.routine r (List.mem_filter.1 hr).1
  · have clear := h.clear id
    have none : Accumulator.pending ((n.cleanup .all).recordsFor id) = [] := by
      rw [recordsFor_cleanup, Accumulator.pending, List.filter_comm]
      rw [Accumulator.pending] at clear
      rw [clear]
      rfl
    rw [pendingKeys, none]
    rfl
  · exact (congrArg (·.2.2) frames).trans h.timely

variable {urgent : Bool} {payload : Bytes}

/-- The records that a taken frame carries are on their way with it. -/
theorem marked (h : n.Forwards size none) (inner : n.gradient.isSink = false)
    (carries : Carries urgent n.accumulators payload) (gate : Gate) (source : Source)
    (parent : Address) (retries : UInt8) :
    Node.Forwards size { n with
      gate, source
      accumulators := markAll urgent (Wire.entriesFor payload) n.accumulators }
      (some ⟨parent, payload, retries⟩) := by
  have bindings : Node.bindings { n with
      gate, source
      accumulators := markAll urgent (Wire.entriesFor payload) n.accumulators } = n.bindings := by
    simp [Node.bindings, markAll]
  have inOrder : Node.InOrder { n with
      gate, source
      accumulators := markAll urgent (Wire.entriesFor payload) n.accumulators } :=
    h.inOrder.of_map rfl rfl (fun _ ↦ rfl) (fun _ ↦ Accumulator.map_entry_markReady ..)
      fun _ proper ↦ proper.marked ..
  refine ⟨h.opened, h.config, bindings ▸ h.jobs, h.books.markAll _ _ gate source, inOrder, ?_,
    fun id ↦ ?_, h.timely, fun sink ↦ ?_⟩
  · rw [recordsFor_markAll]
    exact Accumulator.forall_mem_markReady
      (fun r slow ↦ (Record.isUrgent_mark_pending r).trans slow) _ _ h.routine
  · rw [pendingKeys, recordsFor_markAll, ← Record.map_key_map_entry,
      Accumulator.pending_markReady urgent _ (h.clear id),
      ← List.prefix_iff_eq_take.1 (carries.ready_recordsFor id)]
    rfl
  · rw [show n.gradient.isSink = true from sink] at inner
    cases inner

/-- A taken frame carries what was ready, and no readings if it is urgent. -/
theorem ships (h : n.Forwards size frame) {parent : Address}
    (route : n.gradient.parent = some parent) (carries : Carries urgent n.accumulators payload)
    (loaded : ∃ owner, Wire.entriesFor payload owner ≠ []) (retries : UInt8) :
    n.Ships urgent ⟨parent, payload, retries⟩ := by
  have front (id : UInt8) := carries.ready_recordsFor id
  refine ⟨⟨route, fun id e he ↦ ?_, carries.flagged, ?_⟩, ?_, fun id ↦ (front id).map _⟩
  · obtain ⟨r, hr, rfl⟩ := List.mem_map.1 ((front id).subset he)
    exact h.books.fits_recordsFor id r (List.mem_filter.1 hr).1
  · rintro rfl
    have none : Accumulator.ready true (n.recordsFor Collect.jobId) = [] := by
      rw [Accumulator.ready, List.map_eq_nil_iff, List.filter_eq_nil_iff]
      intro r hr
      simp [Record.eligible, h.routine r hr]
    have isPrefix := front Collect.jobId
    rw [none] at isPrefix
    exact List.prefix_nil.1 isPrefix
  · obtain ⟨owner, filled⟩ := loaded
    exact ⟨owner, fun none ↦ filled (List.map_eq_nil_iff.1 none)⟩

/-- A flush, where the radio is busy while a frame is under way and otherwise takes every frame. -/
theorem flush (h : n.Forwards size frame) {radio : Radio} (busy : radio.busy = frame.isSome)
    (willing : ∀ f : Outgoing, f.payload ≠ [] → radio.busy = false → radio.accepts f = true)
    (urgent : Bool) :
    (n.flush radio urgent).state.Forwards size
        ((takenFrame? (n.flush radio urgent).outputs).or frame) ∧
      ∀ f, takenFrame? (n.flush radio urgent).outputs = some f → n.Ships urgent f := by
  cases frame with
  | some frame =>
    rw [h.flush_of_flying busy]
    exact ⟨h, fun _ taken ↦ nomatch taken⟩
  | none =>
    have step := flushed_flush h.distinct radio urgent
    generalize n.flush radio urgent = reaction at step ⊢
    cases step with
    | idle gate source =>
      exact ⟨h.congr rfl rfl rfl rfl rfl rfl, fun _ taken ↦ nomatch taken⟩
    | consumed sink =>
      rw [takenFrame?_consumption]
      exact ⟨h.consumed, fun _ taken ↦ nomatch taken⟩
    | @taken gate source parent payload inner route idle accepted carries loaded =>
      refine ⟨h.marked inner carries gate source parent n.config.maxRetries, fun f same ↦ ?_⟩
      obtain rfl : ⟨parent, payload, n.config.maxRetries⟩ = f := Option.some.inj same
      exact h.ships route carries loaded n.config.maxRetries
    | refused gate source inner free filled rejected =>
      rw [willing _ filled free] at rejected
      cases rejected

/-! ## What is stored -/

/-- Everything stored is held by one of the two jobs. -/
theorem length_contents (h : n.Forwards size frame) :
    n.contents.length =
      (n.recordsFor Collect.jobId).length + (n.recordsFor Detect.jobId).length := by
  have jobs := h.jobs
  generalize same : n.bindings = bindings at jobs
  cases jobs with
  | collecting x y windowSecs =>
    obtain ⟨acc, rest, accs, first, none⟩ := List.map_eq_cons_iff.1 same
    obtain rfl := List.map_eq_nil_iff.1 none
    obtain ⟨id, -⟩ := Prod.mk.inj first
    simp [contents, Accumulator.contents, recordsFor, accumulator?, accs, id, Collect.jobId,
      Detect.jobId]
  | detecting x y windowSecs =>
    obtain ⟨acc, rest, accs, first, later⟩ := List.map_eq_cons_iff.1 same
    obtain ⟨other, none, rfl, second, none'⟩ := List.map_eq_cons_iff.1 later
    obtain rfl := List.map_eq_nil_iff.1 none'
    obtain ⟨id, -⟩ := Prod.mk.inj first
    obtain ⟨id', -⟩ := Prod.mk.inj second
    simp [contents, Accumulator.contents, recordsFor, accumulator?, accs, id, id', Collect.jobId,
      Detect.jobId]

/-- Nothing is held for an id that is not one of the two jobs'. -/
theorem eq_jobId_of_mem (h : n.Forwards size frame) {r : Record} (mem : r ∈ n.recordsFor id) :
    id = Collect.jobId ∨ id = Detect.jobId := by
  obtain ⟨acc, hacc, rfl, -⟩ := exists_of_mem_recordsFor mem
  have bound : (acc.id, acc.job) ∈ n.bindings := List.mem_map.2 ⟨acc, hacc, rfl⟩
  exact (h.jobs.cases_of_mem bound).imp And.left And.left

/-- A flush of the sink leaves nothing stored, and any other leaves as much as there was. -/
theorem contents_flush (h : n.Forwards size frame) (radio : Radio) (urgent : Bool)
    (after : (n.flush radio urgent).state.Forwards size frame') :
    (n.gradient.isSink = true → (n.flush radio urgent).state.contents = []) ∧
      (n.gradient.isSink = false →
        (n.flush radio urgent).state.contents.length = n.contents.length) := by
  constructor
  · intro sink
    have consumed : (n.flush radio urgent).state = n.cleanup .all := by
      simp [Node.flush, h.opened, sink]
    rw [consumed, contents_eq_nil_iff]
    intro acc hacc
    rw [accumulators_cleanup] at hacc
    obtain ⟨held, hheld, rfl⟩ := List.mem_map.1 hacc
    rw [List.filter_eq_nil_iff]
    intro r hr
    simp [Record.bears, Flags.intersects, Flags.all, (h.inOrder.proper held hheld).stored r hr]
  · intro inner
    have same (id : UInt8) : ((n.flush radio urgent).state.recordsFor id).length =
        (n.recordsFor id).length := by
      have keys := map_recordsFor_flush h.distinct inner Record.key (fun _ ↦ rfl) (fun _ ↦ rfl)
        radio urgent id
      simpa using congrArg List.length keys
    rw [after.length_contents, h.length_contents, same, same]

end Forwards

/-- How many records a frame carries for the two jobs. -/
def cargo (frame : Outgoing) : Nat :=
  (carriedKeys (some frame) Collect.jobId).length + (carriedKeys (some frame) Detect.jobId).length

namespace Forwards

/-- A node stores at most as much more as arrives. -/
theorem length_takingIn_le (h : n.Forwards size frame) {f : Outgoing}
    (after : (n.takingIn f.payload).Forwards size frame) :
    (n.takingIn f.payload).contents.length ≤ n.contents.length + cargo f := by
  have collected := (n.gets_takingIn f.payload Collect.jobId).length_le
  have detected := (n.gets_takingIn f.payload Detect.jobId).length_le
  rw [after.length_contents, h.length_contents]
  simp only [cargo, carriedKeys, Store.arrivals, List.length_map] at collected detected ⊢
  omega

/-- A confirmation takes away as much as the frame carried. -/
theorem length_confirmed {frame : Outgoing} (h : n.Forwards size (some frame)) :
    n.confirmed.contents.length + cargo frame = n.contents.length := by
  have gone (id : UInt8) : (n.confirmed.recordsFor id).length +
      (carriedKeys (some frame) id).length = (n.recordsFor id).length := by
    rw [recordsFor_confirmed, ← h.marks id, pendingKeys, List.length_map, Accumulator.pending,
      Nat.add_comm]
    exact (List.length_eq_length_filter_add Record.isPending).symm
  have collected := gone Collect.jobId
  have detected := gone Detect.jobId
  rw [h.confirmed.length_contents, h.length_contents, cargo]
  omega

/-- A frame that carries something carries it for one of the two jobs. -/
theorem cargo_pos {frame : Outgoing} (h : n.Forwards size (some frame))
    (loaded : ∃ id, carriedKeys (some frame) id ≠ []) : 0 < cargo frame := by
  obtain ⟨id, some⟩ := loaded
  obtain ⟨key, mem⟩ := List.exists_mem_of_ne_nil _ some
  have pending := mem
  rw [← h.marks id] at pending
  obtain ⟨r, hr, -, -⟩ := mem_pendingKeys.1 pending
  have long := List.length_pos_of_mem mem
  unfold cargo
  rcases h.eq_jobId_of_mem hr with rfl | rfl
  · omega
  · omega

/-! ## Something is sent -/

/-- Without a frame that was given up no flush is skipped. -/
theorem backOff_eq_false (h : n.Forwards size frame) : n.backOff.1 = false := by
  have le : n.counters.timedOut ≤ n.counters.sent := by
    rw [h.timely]
    exact Nat.zero_le _
  rw [backOff_of_le le]

/-- A record takes as many bytes on the wire as all records of its job do. -/
theorem length_of_mem_ready (h : n.Forwards size frame) {urgent : Bool} {e : Wire.Entry}
    (he : e ∈ Accumulator.ready urgent (n.recordsFor id)) :
    e.length = Wire.encodedLength (shapeOf id).key (shapeOf id).value := by
  obtain ⟨r, hr, rfl⟩ := List.mem_map.1 he
  obtain ⟨key, value⟩ := h.books.fits_recordsFor id r (List.mem_filter.1 hr).1
  rw [Wire.Entry.length, key, value]

/-- A routed node with nothing on its way and with something ready has a frame taken, as long as
every ready record would fit into a frame of its own. -/
theorem isSome_takenFrame? (h : n.Forwards size none) (inner : n.gradient.isSink = false)
    (routed : n.gradient.isRouted = true) {radio : Radio} (free : radio.busy = false)
    (willing : ∀ f : Outgoing, f.payload ≠ [] → radio.busy = false → radio.accepts f = true)
    {urgent : Bool} (short : ∀ id, ∀ e ∈ Accumulator.ready urgent (n.recordsFor id), e.length ≤
      min (size - Wire.frameHeaderLength) Wire.maxFieldLength - Wire.segmentHeaderLength)
    (waits : Accumulator.ready urgent (n.recordsFor id) ≠ []) :
    (takenFrame? (n.flush radio urgent).outputs).isSome = true := by
  have parented : n.gradient.parent.isSome = true := by
    simpa [Gradient.isRouted, inner] using routed
  obtain ⟨parent, route⟩ := Option.isSome_iff_exists.1 parented
  obtain ⟨shares, exactly, offered⟩ : ∃ shares, _ ∧
      (n.drawn urgent).Offers radio parent urgent shares (n.flush radio urgent) :=
    offers_flush h.opened inner route free fun _ ↦ h.backOff_eq_false
  have loads := (exactly shares).2 rfl
  have filled : partsOf (n.drawn urgent).accumulators shares ≠ [] := by
    rw [accumulators_drawn]
    intro empty
    cases bound : n.accumulator? id with
    | none => simp [recordsFor, bound, Accumulator.ready] at waits
    | some acc =>
      obtain ⟨hacc, rfl⟩ := n.mem_accumulators_of_accumulator? bound
      rw [recordsFor_of_mem h.distinct hacc] at waits
      refine waits (loads.ready_eq_nil empty (fun other hother e he ↦ ?_) acc hacc)
      rw [h.config]
      rw [← recordsFor_of_mem h.distinct hother] at he
      exact short other.id e he
  obtain ⟨payload, outputs, answer, long, -⟩ := offered.frame filled
  have nonempty : payload ≠ [] := by
    rintro rfl
    have none : ¬Wire.minFrameLength ≤ 0 := by decide
    exact none long
  rw [willing _ nonempty free] at answer
  rw [outputs, answer]
  rfl

/-- A routed node with nothing on its way sends something of what it stores when it is flushed. A
frame of 21 bytes has room for a record of either job. -/
theorem sends (h : n.Forwards size none) (inner : n.gradient.isSink = false)
    (routed : n.gradient.isRouted = true) {radio : Radio} (free : radio.busy = false)
    (willing : ∀ f : Outgoing, f.payload ≠ [] → radio.busy = false → radio.accepts f = true)
    (roomy : 21 ≤ size) (some : n.contents ≠ []) :
    (takenFrame? (n.flush radio false).outputs).isSome = true := by
  have short (id : UInt8) (e : Wire.Entry)
      (he : e ∈ Accumulator.ready false (n.recordsFor id)) : e.length ≤
        min (size - Wire.frameHeaderLength) Wire.maxFieldLength - Wire.segmentHeaderLength := by
    have long : Wire.encodedLength (shapeOf id).key (shapeOf id).value ≤ 17 := by
      unfold shapeOf
      split <;> decide
    rw [h.length_of_mem_ready he]
    simp only [Wire.frameHeaderLength, Wire.maxFieldLength, Wire.segmentHeaderLength]
    omega
  obtain ⟨id, stored⟩ : ∃ id, n.recordsFor id ≠ [] := by
    by_contra none
    have empty (id : UInt8) : n.recordsFor id = [] := by
      by_contra filled
      exact none ⟨id, filled⟩
    have length := h.length_contents
    rw [empty, empty] at length
    exact some (List.eq_nil_of_length_eq_zero length)
  have ready : Accumulator.ready false (n.recordsFor id) ≠ [] := by
    rw [Accumulator.ready_of_pending_eq_nil (h.clear id)]
    exact fun none ↦ stored (List.map_eq_nil_iff.1 none)
  exact h.isSome_takenFrame? inner routed free willing short ready

end Forwards

end Node
end CollectionTree
