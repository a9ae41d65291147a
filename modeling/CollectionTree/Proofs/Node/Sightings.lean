import CollectionTree.Proofs.Node.Accounts
import CollectionTree.Proofs.Node.Collecting

/-!
# Sightings at one node

Which sightings a node holds, and what each of its steps does to that. The detecting job combines
values by keeping the first, so all that counts is which keys there are: an arrival adds those that
it carries, a confirmation takes away some that were on their way, and a flush at the sink hands all
of them over.
-/

namespace CollectionTree
namespace Node

/-- The keys that the detecting job holds. -/
def sightings (n : Node) : List Bytes := (n.recordsFor Detect.jobId).map Record.key

/-- What the detecting job makes of a fact. -/
def sighted (n : Node) (elapsed : Nat) (key value : Bytes) : List Record :=
  ((n.accumulator? Detect.jobId).map fun acc ↦ acc.job.map elapsed key value).getD []

/-- A node to which both jobs are bound and whose ledger never refuses a record. -/
structure Watches (n : Node) : Prop where
  detecting : ∃ x y windowSecs, n.bindings =
    [(Collect.jobId, Collect.job x y windowSecs), (Detect.jobId, Detect.job)]
  books : n.Books shapeOf

/-- The sink is handed this sighting. -/
def Hands (outputs : List Output) (key : Bytes) : Prop :=
  ∃ value, Output.consume Detect.jobId key value ∈ outputs

variable {n n' : Node} {key : Bytes}

namespace Watches

private theorem jobs (h : n.Watches) : Jobs n.bindings := by
  obtain ⟨x, y, windowSecs, bindings⟩ := h.detecting
  rw [bindings]
  exact .detecting x y windowSecs

/-- A node that watches has distinct ids. -/
theorem distinct (h : n.Watches) : n.DistinctIds := h.jobs.distinctIds

/-- Watching depends on bindings and books alone. -/
theorem congr (h : n.Watches) (bindings : n'.bindings = n.bindings) (books : n'.Books shapeOf) :
    n'.Watches :=
  ⟨bindings ▸ h.detecting, books⟩

/-- The detecting accumulator, with room for whatever it may be given at its turn. -/
theorem exists_turn (h : n.Watches) {operation : Store → Store}
    (settled : ∀ acc ∈ n.accumulators, Settled shapeOf operation acc) :
    ∃ store others, n.turnFor? operation Detect.jobId = some store ∧
      store.job = Detect.job ∧ store.Balanced Detect.shape others ∧
      2 * Detect.shape.most + others < ledgerModulus := by
  obtain ⟨x, y, windowSecs, bindings⟩ := h.detecting
  have both : n.accumulators.map (·.id) = [Collect.jobId, Detect.jobId] := by
    have ids := congrArg (List.map Prod.fst) bindings
    simpa [Node.bindings, Function.comp_def] using ids
  have most : (n.accumulators.map fun acc ↦ (shapeOf acc.id).most).sum =
      Collect.shape.most + Detect.shape.most := by
    have sum := congrArg (fun ids ↦ (ids.map fun id ↦ (shapeOf id).most).sum) both
    simpa [Function.comp_def, shapeOf, Collect.jobId, Detect.jobId] using sum
  have bound : (Detect.jobId, Detect.job) ∈ n.bindings := by simp [bindings]
  obtain ⟨acc, hacc, same⟩ := List.mem_map.1 bound
  obtain ⟨id, job⟩ := Prod.mk.inj same
  have found : n.accumulator? Detect.jobId = some acc := id ▸ accumulator?_of_mem h.distinct hacc
  rw [n.accumulator?_eq_turns operation] at found
  obtain ⟨store, turn, rfl⟩ := Option.map_eq_some_iff.1 found
  obtain ⟨others, balanced, few⟩ :=
    h.books.balanced_of_mem_turns settled store (List.mem_of_find?_eq_some turn)
  have shape : shapeOf store.id = Detect.shape := by rw [id]; rfl
  rw [shape] at balanced few
  rw [most] at few
  have room : 2 * Detect.shape.most + Collect.shape.most < ledgerModulus := by decide +kernel
  exact ⟨store, others, turn, job, balanced, by omega⟩

end Watches

/-! ## Taking in -/

/-- The detecting job of a node takes all of some candidates in. -/
def Learns (n : Node) (candidates : List Record) (n' : Node) : Prop :=
  ∃ store : Store, store.job.KeepsIdentity ∧ store.accepted candidates = candidates ∧
    n.recordsFor Detect.jobId = store.records ∧
    n'.recordsFor Detect.jobId = (store.emitAll candidates).2.records

variable {candidates : List Record}

/-- Sightings that come in are held from then on. -/
theorem Learns.mem_sightings (h : n.Learns candidates n') :
    key ∈ n'.sightings ↔ key ∈ n.sightings ∨ key ∈ candidates.map Record.key := by
  obtain ⟨store, keeps, all, before, after⟩ := h
  rw [sightings, sightings, before, after, Store.mem_keys_emitAll keeps, all]

/-- The detecting accumulator takes in whatever are sightings. -/
theorem learns_of_balanced {store : Store} {others : Nat} (job : store.job = Detect.job)
    (balanced : store.Balanced Detect.shape others)
    (room : 2 * Detect.shape.most + others < ledgerModulus)
    (fits : ∀ c ∈ candidates, Detect.shape.Fits c.entry)
    (before : n.recordsFor Detect.jobId = store.records)
    (after : n'.recordsFor Detect.jobId = (store.emitAll candidates).2.records) :
    n.Learns candidates n' := by
  have shaped : store.job.Shaped Detect.shape := job ▸ Detect.shaped_job
  exact ⟨store, shaped.keeps, balanced.accepted shaped fits room, before, after⟩

/-- A payload that is taken in leaves a node that watches. -/
theorem Watches.takingIn (h : n.Watches) {payload : Bytes}
    (fits : ∀ id, ∀ e ∈ Wire.entriesFor payload id, (shapeOf id).Fits e) :
    (n.takingIn payload).Watches := by
  have counted : Watches { n with counters := n.counters.addReceived } :=
    h.congr rfl (h.books.congr rfl rfl)
  exact h.congr (n.bindings_takingIn payload) (counted.books.receive h.jobs.shaped_of_mem fits)

/-- A payload brings what it carries. -/
theorem Watches.learns_takingIn (h : n.Watches) {payload : Bytes}
    (fits : ∀ id, ∀ e ∈ Wire.entriesFor payload id, (shapeOf id).Fits e) :
    n.Learns (Store.arrivals payload Detect.jobId) (n.takingIn payload) := by
  have counted : Watches { n with counters := n.counters.addReceived } :=
    h.congr rfl (h.books.congr rfl rfl)
  have settled : ∀ acc ∈ n.accumulators, Settled shapeOf (Store.taking payload) acc := by
    intro acc hacc ledger counters others found
    exact ⟨Store.id_taking .., found.emitAll (h.jobs.shaped_of_mem acc hacc)
      (Store.forall_mem_arrivals (fits acc.id))⟩
  obtain ⟨store, others, turn, job, balanced, room⟩ := counted.exists_turn settled
  rcases onEach_cases { n with counters := n.counters.addReceived } (Store.taking payload)
    (Store.id_taking payload) Detect.jobId with ⟨none, -, -⟩ | ⟨store', turn', id, before, after⟩
  · rw [turn] at none
    cases none
  · obtain rfl := Option.some.inj (turn.symm.trans turn')
    have held : n.recordsFor Detect.jobId = store.records := by
      have same : n.accumulator? Detect.jobId = some store.toAccumulator := before
      simp [recordsFor, same]
    have records : (n.takingIn payload).recordsFor Detect.jobId =
        (store.emitAll (Store.arrivals payload Detect.jobId)).2.records := by
      rw [Node.takingIn, receive_eq, recordsFor, after, ← id]
      rfl
    exact learns_of_balanced job balanced room (Store.forall_mem_arrivals (fits Detect.jobId)) held
      records

/-! ## Sowing -/

/-- A fact leaves a node watching. -/
theorem Watches.sow (h : n.Watches) (id : UInt8) (elapsed : Nat) (fact value : Bytes) :
    (n.sow id elapsed fact value).2.Watches :=
  h.congr (n.bindings_sow id elapsed fact value)
    (h.jobs.books_sow h.books id elapsed fact value)

/-- A fact for another job changes no sightings. -/
theorem sightings_sow_of_ne {id : UInt8} (other : Detect.jobId ≠ id) (elapsed : Nat)
    (fact value : Bytes) : (n.sow id elapsed fact value).2.sightings = n.sightings := by
  rw [sightings, n.recordsFor_sow_of_ne other, sightings]

/-- A fact for the detecting job brings the sightings that the job makes of it. -/
theorem Watches.learns_sow (h : n.Watches) (elapsed : Nat) (fact value : Bytes) :
    n.Learns (n.sighted elapsed fact value) (n.sow Detect.jobId elapsed fact value).2 := by
  have settled : ∀ acc ∈ n.accumulators, Settled shapeOf id acc :=
    fun _ _ _ _ _ found ↦ ⟨rfl, found⟩
  obtain ⟨store, others, turn, job, balanced, room⟩ := h.exists_turn settled
  rw [turnFor?_id] at turn
  obtain ⟨acc, bound, same⟩ := Option.map_eq_some_iff.1 turn
  subst same
  have step := n.sown_sow Detect.jobId elapsed fact value
  generalize (n.sow Detect.jobId elapsed fact value).2 = n' at step ⊢
  cases step with
  | unbound missing => cases missing.symm.trans bound
  | @taken store' _ found bindings here elsewhere rest =>
    obtain rfl := Option.some.inj (found.symm.trans turn)
    have detects : acc.job = Detect.job := job
    have counted : Store.Balanced ⟨acc, n.ledger, n.counters.addMapped⟩ Detect.shape others :=
      ⟨balanced.tidy, balanced.charged, balanced.unlimited⟩
    have made : n.sighted elapsed fact value = acc.job.map elapsed fact value := by
      rw [sighted, bound]
      rfl
    rw [made]
    refine learns_of_balanced detects counted room ?_ ?_ ?_
    · rw [detects]
      exact Detect.fits_map elapsed fact value
    · simp [recordsFor, bound]
    · simp only [recordsFor, here]
      rfl

/-- The detecting job of such a node makes of a fact what detecting jobs do. -/
theorem Watches.sighted_eq (h : n.Watches) (elapsed : Nat) (fact value : Bytes) :
    n.sighted elapsed fact value = Detect.map elapsed fact value := by
  have settled : ∀ acc ∈ n.accumulators, Settled shapeOf id acc :=
    fun _ _ _ _ _ found ↦ ⟨rfl, found⟩
  obtain ⟨store, others, turn, job, -, -⟩ := h.exists_turn settled
  rw [turnFor?_id] at turn
  obtain ⟨acc, bound, rfl⟩ := Option.map_eq_some_iff.1 turn
  have detects : acc.job = Detect.job := job
  rw [sighted, bound, Option.map_some, detects]
  rfl

/-- What the detecting job makes of a fact are sightings. -/
theorem Watches.exists_seen (h : n.Watches) (elapsed : Nat) (fact value : Bytes) :
    ∃ seen : List Detect.Detection,
      n.sighted elapsed fact value = seen.map Detect.Detection.record := by
  rw [h.sighted_eq]
  exact Detect.map_eq_sightings elapsed fact value

/-- Whatever the detecting job holds is a sighting. -/
theorem Watches.exists_eq_toBytes (h : n.Watches) (mem : key ∈ n.sightings) :
    ∃ d : Detect.Detection, key = d.toBytes := by
  obtain ⟨r, hr, rfl⟩ := List.mem_map.1 mem
  exact Detect.Detection.exists_eq_toBytes (h.books.fits_recordsFor Detect.jobId r hr).1

/-! ## Completions -/

/-- A confirmation leaves a node watching. -/
theorem Watches.confirmed (h : n.Watches) : n.confirmed.Watches := by
  have books : Books shapeOf { n with counters := n.counters.addSent } := h.books.congr rfl rfl
  exact h.congr n.bindings_confirmed (books.cleanup _)

/-- A confirmation takes away sightings that were on their way. -/
theorem mem_sightings_confirmed :
    (key ∈ n.confirmed.sightings → key ∈ n.sightings) ∧
      (key ∈ n.sightings → key ∈ n.confirmed.sightings ∨ key ∈ n.pendingKeys Detect.jobId) := by
  rw [sightings, sightings, recordsFor_confirmed]
  constructor
  · exact fun mem ↦ (List.filter_sublist.map Record.key).subset mem
  · intro mem
    obtain ⟨r, hr, rfl⟩ := List.mem_map.1 mem
    cases marked : r.isPending with
    | true => exact .inr (mem_pendingKeys.2 ⟨r, hr, marked, rfl⟩)
    | false => exact .inl (List.mem_map.2 ⟨r, List.mem_filter.2 ⟨hr, by simp [marked]⟩, rfl⟩)

/-- Giving a frame up leaves a node watching. -/
theorem Watches.givenUp (h : n.Watches) : n.givenUp.Watches := by
  have books : Books shapeOf { n with counters := n.counters.addTimedOut } :=
    h.books.congr rfl rfl
  exact h.congr n.bindings_givenUp books.releasePending

/-- Giving a frame up keeps the sightings. -/
@[simp] theorem sightings_givenUp (n : Node) : n.givenUp.sightings = n.sightings := by
  simp [sightings, recordsFor_givenUp, Record.unmark]

/-! ## Flushes -/

/-- The sink is handed the sightings that it holds. -/
theorem hands_consumption (distinct : n.DistinctIds) :
    Hands (consumption n.accumulators) key ↔ key ∈ n.sightings := by
  constructor
  · rintro ⟨value, mem⟩
    obtain ⟨acc, hacc, mem⟩ := List.mem_flatMap.1 mem
    obtain ⟨r, hr, same⟩ := List.mem_map.1 mem
    obtain ⟨id, rfl, -⟩ := Output.consume.inj same
    rw [sightings, ← id, recordsFor_of_mem distinct hacc]
    exact List.mem_map.2 ⟨r, hr, rfl⟩
  · intro mem
    obtain ⟨r, hr, rfl⟩ := List.mem_map.1 mem
    obtain ⟨acc, hacc, id, hr⟩ := exists_of_mem_recordsFor hr
    exact ⟨r.value, List.mem_flatMap.2 ⟨acc, hacc, List.mem_map.2 ⟨r, hr, by rw [id]⟩⟩⟩

/-- What comes of a flush as far as sightings go. Every one stays, or the sink is handed it; and
nothing is there afterwards that was not there before. A frame goes to the parent and is made of
records. -/
structure Passes (n : Node) (reaction : Reaction Bool Node Output) : Prop where
  watches : reaction.state.Watches
  kept : ∀ key ∈ n.sightings, n.gradient.isSink = false ∧ key ∈ reaction.state.sightings ∨
    Hands reaction.outputs key
  found : ∀ key, key ∈ reaction.state.sightings ∨ Hands reaction.outputs key → key ∈ n.sightings
  sends : ∀ frame, takenFrame? reaction.outputs = some frame →
    n.gradient.parent = some frame.target ∧
      ∀ id, ∀ e ∈ Wire.entriesFor frame.payload id, (shapeOf id).Fits e

private theorem Watches.passes_consumed (h : n.Watches) :
    n.Passes ⟨false, n.cleanup .all, consumption n.accumulators⟩ where
  watches := h.congr (n.bindings_cleanup .all) (h.books.cleanup _)
  kept _ mem := .inr ((hands_consumption h.distinct).2 mem)
  found key mem := by
    rcases mem with mem | handed
    · rw [sightings, recordsFor_cleanup] at mem
      exact (List.filter_sublist.map Record.key).subset mem
    · exact (hands_consumption h.distinct).1 handed
  sends frame taken := by simp [takenFrame?_consumption] at taken

/-- A node that is not the sink keeps its sightings and hands nothing over. -/
theorem Passes.of_sightings_eq (inner : n.gradient.isSink = false)
    {reaction : Reaction Bool Node Output} (watches : reaction.state.Watches)
    (same : reaction.state.sightings = n.sightings) (silent : ∀ key, ¬Hands reaction.outputs key)
    (sends : ∀ frame, takenFrame? reaction.outputs = some frame →
      n.gradient.parent = some frame.target ∧
        ∀ id, ∀ e ∈ Wire.entriesFor frame.payload id, (shapeOf id).Fits e) :
    n.Passes reaction where
  watches := watches
  kept _ mem := .inl ⟨inner, same ▸ mem⟩
  found key mem := mem.elim (fun held ↦ same ▸ held) fun handed ↦ absurd handed (silent key)
  sends := sends

/-- A flush passes sightings on or keeps them. -/
theorem Watches.passes (h : n.Watches) (opened : n.closed = false) (radio : Radio)
    (urgent : Bool) : n.Passes (n.flush radio urgent) := by
  cases inner : n.gradient.isSink with
  | true =>
    have consumed : n.flush radio urgent = ⟨false, n.cleanup .all, consumption n.accumulators⟩ := by
      simp [flush, opened, inner]
    rw [consumed]
    exact h.passes_consumed
  | false =>
    have step := flushed_flush h.distinct radio urgent
    generalize n.flush radio urgent = reaction at step ⊢
    cases step with
    | idle gate source =>
      exact .of_sightings_eq inner (h.congr rfl (h.books.congr rfl rfl)) rfl (by simp [Hands])
        (by simp [takenFrame?])
    | consumed sink =>
      rw [inner] at sink
      cases sink
    | @taken gate source parent payload _ route idle accepted carries loaded =>
      refine .of_sightings_eq inner ?_ ?_ (by simp [Hands]) fun frame same ↦ ?_
      · exact h.congr (by simp [bindings, markAll]) (h.books.markAll _ _ gate source)
      · rw [sightings, sightings, recordsFor_markAll, ← Record.map_key_map_entry,
          Accumulator.map_entry_markReady, Record.map_key_map_entry]
      · obtain rfl : ⟨parent, payload, n.config.maxRetries⟩ = frame := Option.some.inj same
        refine ⟨route, fun id e he ↦ ?_⟩
        obtain ⟨r, hr, rfl⟩ := List.mem_map.1 ((carries.ready_recordsFor id).subset he)
        exact h.books.fits_recordsFor id r (List.mem_filter.1 hr).1
    | refused gate source _ idle filled rejected =>
      have books : Books shapeOf { n with gate, source } := h.books.congr rfl rfl
      refine .of_sightings_eq inner ?_ ?_ (by simp [Hands]) (by simp [takenFrame?])
      · exact h.congr (bindings_releasePending { n with gate, source }) books.releasePending
      · have records := recordsFor_releasePending { n with gate, source } Detect.jobId
        rw [sightings]
        refine (congrArg (List.map Record.key) records).trans ?_
        simp [sightings, recordsFor, accumulator?, Record.unmark]

end Node
end CollectionTree
