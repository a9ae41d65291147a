import CollectionTree.Proofs.Node.Forwarding

/-!
# Records that fit and frames that are too small

Whatever its ledger refuses, a node of a deployment stores only records with the lengths of its
jobs: `Node.Fitted`, which every step of a node keeps. So whether a flush by the clock has something
to send is a matter of the size of its frames alone. `Loads.partsOf_ne_nil_iff` says so for any
accumulators, and `Fitted.answer_flush_iff` for those of a deployment: a frame needs 21 bytes for a
tally and 9 for a sighting.
-/

namespace CollectionTree

/-! ## What opens a frame -/

namespace Accumulator

/-- Something is taken exactly if the first entry alone is short enough. -/
theorem LongestWithin.ne_nil_iff {limit : Nat} {entries taken : List Wire.Entry}
    (h : LongestWithin limit entries taken) :
    taken ≠ [] ↔ ∃ e, entries.head? = some e ∧ Wire.segmentHeaderLength + e.length ≤ limit := by
  constructor
  · intro some
    obtain ⟨e, rest, rfl⟩ := List.exists_cons_of_ne_nil some
    obtain ⟨behind, rfl⟩ := h.front
    have fits := h.fits some
    simp only [Wire.encodeAll_cons, List.length_append, Wire.Entry.length_encode] at fits
    exact ⟨e, rfl, by omega⟩
  · rintro ⟨e, first, fits⟩ rfl
    obtain ⟨behind, rfl⟩ := List.head?_eq_some_iff.1 first
    have longer := h.longest [e] ⟨behind, rfl⟩ (by simpa using fits)
    exact absurd (List.prefix_nil.1 longer) (List.cons_ne_nil e [])

/-- The first ready record of an accumulator fits a frame of its own. -/
def Opens (urgent : Bool) (maxPayload : Nat) (acc : Accumulator) : Prop :=
  ∃ e, (ready urgent acc.records).head? = some e ∧ Wire.segmentHeaderLength + e.length ≤
    min (maxPayload - Wire.frameHeaderLength) Wire.maxFieldLength

end Accumulator

namespace Node

variable {n n' : Node} {id x : UInt8} {size : Nat}

/-- A frame is filled exactly if some accumulator's first ready record fits a frame of its own. -/
theorem Loads.partsOf_ne_nil_iff {urgent : Bool} {maxPayload : Nat} {parts : List Wire.Part}
    {accs : List Accumulator} {shares : List (List Wire.Entry)}
    (loads : Loads urgent maxPayload parts accs shares) (start : parts = []) :
    partsOf accs shares ≠ [] ↔ ∃ acc ∈ accs, acc.Opens urgent maxPayload := by
  induction loads with
  | done => simp [partsOf]
  | @next parts acc rest taken shares share more ih =>
    subst start
    have own : taken ≠ [] ↔ acc.Opens urgent maxPayload :=
      Accumulator.LongestWithin.ne_nil_iff (show Accumulator.LongestWithin _ _ taken from share)
    rw [partsOf_cons, Ne, List.append_eq_nil_iff, not_and_or, List.exists_mem_cons_iff, ← own]
    by_cases none : taken = []
    · -- An accumulator that adds nothing leaves the whole frame to those behind it.
      have later := ih (by simp [none, Accumulator.partOf])
      rw [← later]
      simp [none, Accumulator.partOf]
    · simp [none, Accumulator.partOf]

/-! ## The invariant -/

/-- A node of a deployment at a position, whose frames have at most `size` bytes. Every record has
the lengths of its job, and the ledger, which may refuse records, holds what they cost. -/
structure Fitted (size : Nat) (x : UInt8) (n : Node) : Prop where
  config : n.config.maxPayload = size
  jobs : Jobs n.bindings
  collects : ∃ y windowSecs, (Collect.jobId, Collect.job x y windowSecs) ∈ n.bindings
  inOrder : n.InOrder
  fits : ∀ id, ∀ r ∈ n.recordsFor id, (shapeOf id).Fits r.entry

/-- What comes in with the lengths of its job is stored with these. -/
theorem Gets.fits {candidates : List Record} (h : n.Gets id candidates n') (jobs : Jobs n.bindings)
    (made : ∀ c ∈ candidates, (shapeOf id).Fits c.entry)
    (held : ∀ r ∈ n.recordsFor id, (shapeOf id).Fits r.entry) :
    ∀ r ∈ n'.recordsFor id, (shapeOf id).Fits r.entry := by
  cases h with
  | unbound before after => simp [after]
  | bound store found after =>
    have records : n.recordsFor id = store.records := by simp [recordsFor, found]
    obtain ⟨mem, same⟩ := n.mem_accumulators_of_accumulator? found
    have shaped : store.job.Shaped (shapeOf id) := same ▸ jobs.shaped_of_mem _ mem
    rw [after]
    rw [records] at held
    exact Store.forall_mem_emitAll (P := fun r ↦ (shapeOf id).Fits r.entry)
      (fun c hc r fits about ↦ shaped.fits_fold fits (made c hc) about) made held

namespace Fitted

/-- A fitted node has distinct ids. -/
theorem distinct (h : n.Fitted size x) : n.DistinctIds := h.jobs.distinctIds

/-- A node in which only the place in the tree, the draws or the counts changed. -/
theorem congr (h : n.Fitted size x) (accumulators : n'.accumulators = n.accumulators)
    (ledger : n'.ledger = n.ledger) (config : n'.config = n.config) : n'.Fitted size x := by
  have bindings : n'.bindings = n.bindings := by rw [bindings, accumulators]; rfl
  have records (id : UInt8) : n'.recordsFor id = n.recordsFor id := by
    rw [recordsFor, accumulator?, accumulators]
    rfl
  refine ⟨config ▸ h.config, bindings ▸ h.jobs, bindings ▸ h.collects,
    h.inOrder.congr accumulators ledger, fun id ↦ ?_⟩
  rw [records]
  exact h.fits id

/-- Bindings stay, so the records are all that is to be checked of a change. -/
theorem of_bindings (h : n.Fitted size x) (config : n'.config = n.config)
    (bindings : n'.bindings = n.bindings) (inOrder : n'.InOrder)
    (fits : ∀ id, ∀ r ∈ n'.recordsFor id, (shapeOf id).Fits r.entry) : n'.Fitted size x :=
  ⟨config ▸ h.config, bindings ▸ h.jobs, bindings ▸ h.collects, inOrder, fits⟩

/-- Entries of the right lengths are taken in by a fitted node. -/
theorem takingIn (h : n.Fitted size x) {payload : Bytes}
    (fits : ∀ id, ∀ e ∈ Wire.entriesFor payload id, (shapeOf id).Fits e) :
    (n.takingIn payload).Fitted size x :=
  h.of_bindings (n.config_takingIn payload) (n.bindings_takingIn payload)
    ((h.inOrder.recounted _).receive payload) fun id ↦
      (n.gets_takingIn payload id).fits h.jobs (Store.forall_mem_arrivals (fits id)) (h.fits id)

/-- A fact leaves a node fitted. -/
theorem sow (h : n.Fitted size x) (id : UInt8) (elapsed : Nat) (key value : Bytes) :
    (n.sow id elapsed key value).2.Fitted size x := by
  refine h.of_bindings (n.config_sow id elapsed key value) (n.bindings_sow id elapsed key value)
    (h.inOrder.sow id elapsed key value) fun other ↦ ?_
  by_cases own : other = id
  · subst own
    refine (n.gets_sow other elapsed key value).fits h.jobs (fun c hc ↦ ?_) (h.fits other)
    cases found : n.accumulator? other with
    | none => simp [made, found] at hc
    | some acc =>
      exact h.jobs.fits_map (mem_bindings_of_accumulator? found) elapsed key value c
        (by simpa [made, found] using hc)
  · rw [n.recordsFor_sow_of_ne own]
    exact h.fits other

/-- A confirmation leaves a node fitted. -/
theorem confirmed (h : n.Fitted size x) : n.confirmed.Fitted size x := by
  refine h.of_bindings rfl n.bindings_confirmed ((h.inOrder.recounted _).cleanup _) fun id r hr ↦ ?_
  rw [recordsFor_confirmed] at hr
  exact h.fits id r (List.mem_filter.1 hr).1

/-- Giving a frame up leaves a node fitted. -/
theorem givenUp (h : n.Fitted size x) : n.givenUp.Fitted size x := by
  refine h.of_bindings rfl n.bindings_givenUp (h.inOrder.recounted _).releasePending
    fun id r hr ↦ ?_
  rw [recordsFor_givenUp] at hr
  obtain ⟨s, hs, rfl⟩ := List.mem_map.1 hr
  exact h.fits id s hs

/-- A node keeps its bindings and its settings in a flush, and stores nothing new. -/
theorem flush (h : n.Fitted size x) (radio : Radio) (urgent : Bool) :
    (n.flush radio urgent).state.Fitted size x := by
  have inOrder := h.inOrder.flush radio urgent
  have bindings := bindings_flush h.distinct radio urgent
  have step := flushed_flush h.distinct radio urgent
  generalize n.flush radio urgent = reaction at inOrder bindings step ⊢
  cases step with
  | idle gate source => exact h.congr rfl rfl rfl
  | consumed sink =>
    refine h.of_bindings rfl bindings inOrder fun id r hr ↦ ?_
    rw [recordsFor_cleanup] at hr
    exact h.fits id r (List.mem_filter.1 hr).1
  | taken gate source inner route free accepted carries loaded =>
    refine h.of_bindings rfl bindings inOrder fun id ↦ ?_
    rw [recordsFor_markAll]
    exact forall_entry_of_map_eq (Accumulator.map_entry_markReady ..) (h.fits id)
  | refused gate source inner free filled rejected =>
    refine h.of_bindings rfl bindings inOrder fun id ↦ ?_
    have records := recordsFor_releasePending { n with gate, source } id
    exact forall_entry_of_map_eq ((congrArg (List.map Record.entry) records).trans (by simp; rfl))
      (h.fits id)

end Fitted

/-! ## What a flush sends -/

/-- Only a node with a parent offers frames. -/
theorem parent_of_offer {radio : Radio} {urgent : Bool} {frame : Outgoing} {accepted : Bool}
    (mem : .offer frame accepted ∈ (n.flush radio urgent).outputs) : n.gradient.parent ≠ none := by
  intro none
  unfold Node.flush at mem
  split at mem
  · cases mem
  · split at mem
    · obtain ⟨acc, -, mem⟩ := List.mem_flatMap.1 mem
      obtain ⟨r, -, same⟩ := List.mem_map.1 mem
      cases same
    · rw [none] at mem
      cases mem

/-- A frame that is taken goes to the parent, with records that the node stores, each key once. -/
theorem Fitted.sends (h : n.Fitted size x) (nodup : ∀ id, ((n.recordsFor id).map Record.key).Nodup)
    {radio : Radio} {urgent : Bool} {frame : Outgoing}
    (taken : takenFrame? (n.flush radio urgent).outputs = some frame) :
    n.gradient.parent = some frame.target ∧
      (∀ id, ∀ e ∈ Wire.entriesFor frame.payload id, (shapeOf id).Fits e) ∧
      ∀ id, (carriedKeys (some frame) id).Nodup := by
  have step := flushed_flush h.distinct radio urgent
  generalize n.flush radio urgent = reaction at step taken
  cases step with
  | idle gate source => cases taken
  | consumed sink =>
    rw [takenFrame?_consumption] at taken
    cases taken
  | @taken gate source parent payload inner route free accepted carries loaded =>
    obtain rfl : ⟨parent, payload, n.config.maxRetries⟩ = frame := Option.some.inj taken
    refine ⟨route, fun id e he ↦ ?_, fun id ↦ ?_⟩
    · obtain ⟨r, hr, rfl⟩ := List.mem_map.1 ((carries.ready_recordsFor id).subset he)
      exact h.fits id r (List.mem_filter.1 hr).1
    · have front : (Wire.entriesFor payload id).Sublist ((n.recordsFor id).map Record.entry) :=
        (carries.ready_recordsFor id).sublist.trans (List.filter_sublist.map Record.entry)
      have keys := front.map Wire.Entry.key
      rw [Record.map_key_map_entry] at keys
      exact (nodup id).sublist keys
  | refused gate source inner free filled rejected => cases taken

/-! ## Whether a flush has something to send -/

/-- The bytes of a frame with one record of the job with this id. -/
def leastFrame (id : UInt8) : Nat :=
  Wire.frameHeaderLength + Wire.segmentHeaderLength +
    Wire.encodedLength (shapeOf id).key (shapeOf id).value

private theorem leastFrame_collect : leastFrame Collect.jobId = 21 := rfl

private theorem leastFrame_detect : leastFrame Detect.jobId = 9 := rfl

/-- With nothing on its way, an accumulator has something to send exactly if it stores something and
a frame has room for one of its records. -/
theorem Fitted.opens_iff (h : n.Fitted size x) {acc : Accumulator} (mem : acc ∈ n.accumulators)
    (clear : Accumulator.pending acc.records = []) :
    acc.Opens false size ↔ leastFrame acc.id ≤ size ∧ acc.records ≠ [] := by
  have small : leastFrame acc.id ≤ 21 := by
    unfold leastFrame shapeOf
    split <;> decide
  have length (r : Record) (hr : r ∈ acc.records) :
      r.entry.length = Wire.encodedLength (shapeOf acc.id).key (shapeOf acc.id).value := by
    obtain ⟨key, value⟩ := h.fits acc.id r (by rwa [recordsFor_of_mem h.distinct mem])
    rw [Wire.Entry.length, key, value]
  rw [Accumulator.Opens, Accumulator.ready_of_pending_eq_nil clear]
  unfold leastFrame at small ⊢
  simp only [Wire.frameHeaderLength, Wire.segmentHeaderLength, Wire.maxFieldLength] at small ⊢
  cases records : acc.records with
  | nil => simp
  | cons r rest =>
    have first := length r (by simp [records])
    simp only [List.map_cons, List.head?_cons, Option.some.injEq, exists_eq_left', first, ne_eq,
      reduceCtorEq, not_false_eq_true, and_true]
    omega

/-- Where nothing is on its way and nothing holds it back, a flush by the clock has a frame taken
exactly if the node stores a tally and a frame has room for one, or a sighting and room for that. -/
theorem Fitted.answer_flush_iff (h : n.Fitted size x)
    (clear : ∀ id, Accumulator.pending (n.recordsFor id) = []) (opened : n.closed = false)
    (inner : n.gradient.isSink = false) {parent : Address} (route : n.gradient.parent = some parent)
    {radio : Radio} (free : radio.busy = false)
    (willing : ∀ f : Outgoing, f.payload ≠ [] → radio.busy = false → radio.accepts f = true) :
    (n.flush radio false).answer = true ↔
      21 ≤ size ∧ n.recordsFor Collect.jobId ≠ [] ∨ 9 ≤ size ∧ n.recordsFor Detect.jobId ≠ [] := by
  have kept : false = true → n.backOff.1 = false := fun urgent ↦ nomatch urgent
  obtain ⟨shares, exactly, offered⟩ := offers_flush opened inner route free kept
  have filled := ((exactly shares).2 rfl).partsOf_ne_nil_iff rfl
  have answered : (n.flush radio false).answer = true ↔ partsOf n.accumulators shares ≠ [] := by
    constructor
    · intro sent empty
      rw [offered.nothing empty] at sent
      cases sent
    · intro some
      obtain ⟨payload, -, answer, long, -⟩ := offered.frame some
      have nonempty : payload ≠ [] := by
        rintro rfl
        exact absurd long (by decide)
      rw [answer, willing _ nonempty free]
  rw [answered, filled, h.config, ← leastFrame_collect, ← leastFrame_detect]
  have stored {acc : Accumulator} (mem : acc ∈ n.accumulators) :
      acc.Opens false size ↔ leastFrame acc.id ≤ size ∧ n.recordsFor acc.id ≠ [] := by
    have none := clear acc.id
    rw [recordsFor_of_mem h.distinct mem] at none ⊢
    exact h.opens_iff mem none
  have found {id : UInt8} (some : n.recordsFor id ≠ []) : ∃ acc ∈ n.accumulators, acc.id = id := by
    obtain ⟨r, hr⟩ := List.exists_mem_of_ne_nil _ some
    obtain ⟨acc, mem, same, -⟩ := exists_of_mem_recordsFor hr
    exact ⟨acc, mem, same⟩
  constructor
  · rintro ⟨acc, mem, opens⟩
    have both := (stored mem).1 opens
    rcases h.jobs.cases_of_mem (List.mem_map.2 ⟨acc, mem, rfl⟩) with ⟨id, -⟩ | ⟨id, -⟩
    · exact .inl (id ▸ both)
    · exact .inr (id ▸ both)
  · rintro (⟨room, some⟩ | ⟨room, some⟩)
    · obtain ⟨acc, mem, id⟩ := found some
      exact ⟨acc, mem, (stored mem).2 (by rw [id]; exact ⟨room, some⟩)⟩
    · obtain ⟨acc, mem, id⟩ := found some
      exact ⟨acc, mem, (stored mem).2 (by rw [id]; exact ⟨room, some⟩)⟩

end Node
end CollectionTree
