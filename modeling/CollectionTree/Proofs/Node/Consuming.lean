import CollectionTree.Proofs.Node.Acts
import CollectionTree.Proofs.Node.Conservation
import CollectionTree.Proofs.Store.Knowledge

/-!
# What a sink uses up

A sink uses its records up at every flush and with every frame that it receives, and sends nothing.
Each record is handed over once and is gone then, so that what was handed over under a key and what
is still stored combine to what came in (`consumes_exactly_once`).
-/

namespace CollectionTree

open Exchange (TakesOffer takesOffer_sow takesOffer_takingIn)

namespace Accumulator

/-- The job combines values of one length for each key, and every record is stored with such a
value. -/
structure Combining (op : Bytes → Bytes → Bytes) (width : Bytes → Nat) (acc : Accumulator) :
    Prop where
  combines : acc.job.CombinesBy op width
  wide : ∀ r ∈ acc.records, Wide width r.entry
  stored : ∀ r ∈ acc.records, r.flags.stored = true

end Accumulator

namespace Store

variable {store : Store} {op : Bytes → Bytes → Bytes} {width : Bytes → Nat}

/-- Combining values of one length keeps the cost of a record. -/
theorem footprint_fold_of_wide {job : Job} (combines : job.CombinesBy op width)
    {candidate r : Record} (wide : Wide width r.entry) (wide' : Wide width candidate.entry)
    (about : r.key = candidate.key) : (job.fold candidate r).footprint = r.footprint := by
  have additive := combines.additive r.key
  have wideAfter := additive.valid_fold wide wide' about
  have key := combines.keeps.key_fold candidate r
  simp only [Wide, Record.entry, key] at wide wideAfter
  simp only [Record.footprint, Record.length, key, wide, wideAfter]

private theorem combining_emitAll (h : store.toAccumulator.Combining op width)
    {candidates : List Record} (wide : ∀ c ∈ candidates, Wide width c.entry) :
    (store.emitAll candidates).2.toAccumulator.Combining op width where
  combines := (job_emitAll store candidates).symm ▸ h.combines
  wide := valid_emitAll (h.combines.additive []) h.wide wide
  stored := by
    apply forall_mem_emitAll (P := fun r ↦ r.flags.stored = true)
    · intro c _ r stored _
      exact (h.combines.keeps.stored_fold c r).trans stored
    · intro c _
      simp [storedCopy, Record.mark, Flags.union, Flags.storedOnly]
    · exact h.stored

/-- Candidates with values of the right lengths move the ledger by as much as the cost of the
records changes. -/
theorem accounts_emitAll_of_wide (h : store.toAccumulator.Combining op width)
    {candidates : List Record} (wide : ∀ c ∈ candidates, Wide width c.entry) :
    store.Accounts (store.emitAll candidates).2 := by
  apply And.right
  apply emitAll_induction
    (P := fun s ↦ s.toAccumulator.Combining op width ∧ store.Accounts s)
  · intro s hs c hc
    have one : ∀ d ∈ [c], Wide width d.entry := by simpa using wide c hc
    constructor
    · exact combining_emitAll hs.1 one
    · apply hs.2.trans
      apply accounts_emit_of_fold
      intro r hr about
      exact footprint_fold_of_wide hs.1.combines (hs.1.wide r hr) (wide c hc) about
  · exact ⟨h, rfl, rfl, .inl le_rfl⟩

/-- What moves a ledger without a cap leaves a count that it can hold. -/
theorem Accounts.counts {last : Store} (h : store.Accounts last) (counts : store.ledger.Counts 0) :
    last.ledger.Counts 0 := by
  obtain ⟨uncapped, counted⟩ := counts
  have capped := h.capped
  rw [Ledger.cap, uncapped, Option.getD_none] at capped
  have some : 0 < ledgerModulus := by decide
  constructor
  · exact h.limit.trans uncapped
  · omega

private theorem combining_cleanup (h : store.toAccumulator.Combining op width) (flags : Flags) :
    (store.cleanup flags).2.toAccumulator.Combining op width := by
  simp only [cleanup, List.partition_eq_filter_filter]
  exact ⟨h.combines, fun r hr ↦ h.wide r (List.mem_filter.1 hr).1,
    fun r hr ↦ h.stored r (List.mem_filter.1 hr).1⟩

end Store

namespace Node

/-- An open sink whose jobs combine values. Its ledger, which has no cap, holds what all records
cost. -/
structure Consumes (op : UInt8 → Bytes → Bytes → Bytes) (width : UInt8 → Bytes → Nat) (n : Node) :
    Prop where
  running : n.closed = false
  sink : n.gradient = .sink
  distinct : n.DistinctIds
  combining : ∀ acc ∈ n.accumulators, acc.Combining (op acc.id) (width acc.id)
  charged : n.ledger.allocated = (n.accumulators.map Accumulator.footprint).sum
  counts : n.ledger.Counts 0

variable {op : UInt8 → Bytes → Bytes → Bytes} {width : UInt8 → Bytes → Nat} {n : Node}

/-- At the sink a flush uses up all that is stored. -/
theorem flush_of_sink (running : n.closed = false) (sink : n.gradient = .sink) (radio : Radio)
    (urgent : Bool) :
    n.flush radio urgent = ⟨false, n.cleanup .all, consumption n.accumulators⟩ := by
  simp [flush, running, sink, Gradient.sink]

namespace Consumes

variable (h : n.Consumes op width)

include h

private theorem congr {n' : Node} (running : n'.closed = n.closed) (sink : n'.gradient = n.gradient)
    (accumulators : n'.accumulators = n.accumulators) (ledger : n'.ledger = n.ledger) :
    n'.Consumes op width where
  running := running.trans h.running
  sink := sink.trans h.sink
  distinct := by rw [DistinctIds, accumulators]; exact h.distinct
  combining := accumulators ▸ h.combining
  charged := by rw [accumulators, ledger]; exact h.charged
  counts := ledger ▸ h.counts

private theorem onEach {operation : Store → Store}
    (keeps : ∀ store, (operation store).id = store.id ∧ (operation store).job = store.job)
    (combining : ∀ store : Store, store.toAccumulator ∈ n.accumulators →
      (operation store).toAccumulator.Combining (op store.id) (width store.id))
    (accounts : ∀ store : Store, store.toAccumulator ∈ n.accumulators →
      store.toAccumulator.footprint ≤ store.ledger.allocated → store.Accounts (operation store))
    (counts : ∀ store : Store, store.toAccumulator ∈ n.accumulators → store.ledger.Counts 0 →
      (operation store).ledger.Counts 0) : (n.onEach operation).Consumes op width where
  running := h.running
  sink := h.sink
  distinct := (distinctIds_of_bindings_eq (n.bindings_onEach keeps)).2 h.distinct
  combining := by
    apply forall_mem_onEach
    intro store mem
    rw [(keeps store).1]
    exact combining store mem
  charged := charged_onEach accounts h.charged
  counts := (ledger_onEach (P := fun ledger ↦ ledger.Counts 0) counts h.counts).1

private theorem cleanup (flags : Flags) : (n.cleanup flags).Consumes op width := by
  apply h.onEach
  · exact fun _ ↦ ⟨rfl, rfl⟩
  · exact fun store mem ↦ Store.combining_cleanup (h.combining _ mem) flags
  · exact fun store _ covered ↦ Store.accounts_cleanup covered flags
  · intro store _ counts
    exact ⟨counts.1, (Nat.sub_le ..).trans_lt counts.2⟩

private theorem takingIn {payload : Bytes} (wide : ∀ acc ∈ n.accumulators,
    ∀ e ∈ Wire.entriesFor payload acc.id, Wide (width acc.id) e) :
    (n.takingIn payload).Consumes op width := by
  have recounted : Consumes op width { n with counters := n.counters.addReceived } :=
    h.congr rfl rfl rfl rfl
  have arrive (store : Store) (mem : store.toAccumulator ∈ n.accumulators) :
      ∀ c ∈ Store.arrivals payload store.id, Wide (width store.id) c.entry :=
    Store.forall_mem_arrivals (wide _ mem)
  have accounts (store : Store) (mem : store.toAccumulator ∈ n.accumulators) :
      store.Accounts (store.taking payload) :=
    Store.accounts_emitAll_of_wide (h.combining _ mem) (arrive store mem)
  rw [Node.takingIn, receive_eq]
  apply recounted.onEach
  · exact fun store ↦ ⟨Store.id_taking payload store, Store.job_taking payload store⟩
  · exact fun store mem ↦ Store.combining_emitAll (h.combining _ mem) (arrive store mem)
  · exact fun store mem _ ↦ accounts store mem
  · exact fun store mem counts ↦ (accounts store mem).counts counts

private theorem sow {id : UInt8} {elapsed : Nat} {key value : Bytes}
    (wide : ∀ acc ∈ n.accumulators, acc.id = id →
      ∀ r ∈ acc.job.map elapsed key value, Wide (width id) r.entry) :
    (n.sow id elapsed key value).2.Consumes op width := by
  obtain ⟨gradient, closed⟩ := n.sow_keeps id elapsed key value
  have own (acc : Accumulator) (hacc : acc ∈ n.accumulators) :
      (Store.mk acc n.ledger n.counters.addMapped).toAccumulator.Combining (op acc.id)
        (width acc.id) := h.combining acc hacc
  have accounts (acc : Accumulator) (hacc : acc ∈ n.accumulators) (named : acc.id = id) :
      Store.Accounts ⟨acc, n.ledger, n.counters⟩
        (Store.sow ⟨acc, n.ledger, n.counters⟩ elapsed key value).2 := by
    subst named
    have moved := Store.accounts_emitAll_of_wide (own acc hacc) (wide acc hacc rfl)
    exact ⟨moved.moved, moved.limit, moved.capped⟩
  constructor
  · exact closed.trans h.running
  · exact gradient.trans h.sink
  · exact (distinctIds_of_bindings_eq (n.bindings_sow id elapsed key value)).2 h.distinct
  · apply forall_mem_sow
    · intro acc hacc named
      rw [Node.id_sow]
      subst named
      exact Store.combining_emitAll (own acc hacc) (wide acc hacc rfl)
    · exact h.combining
  · exact charged_sow accounts h.charged
  · rcases n.ledger_sow id elapsed key value with same | ⟨acc, hacc, named, same⟩
    · rw [same]
      exact h.counts
    · rw [same]
      exact (accounts acc hacc named).counts h.counts

private theorem bind {n' : Node} {acc : Accumulator} (bound : n.bind acc = .ok n')
    (empty : acc.records = []) (combines : acc.job.CombinesBy (op acc.id) (width acc.id)) :
    n'.Consumes op width := by
  have distinct := distinctIds_bind h.distinct bound
  have own : acc.Combining (op acc.id) (width acc.id) :=
    ⟨combines, by simp [empty], by simp [empty]⟩
  have free : acc.footprint = 0 := by rw [Accumulator.footprint, empty, Record.footprints]
  obtain ⟨-, rfl⟩ := bind_eq_ok bound
  have counted : n.ledger.allocated < ledgerModulus := h.counts.2
  have same : n.ledger.forceCharge acc.footprint = n.ledger := by
    rw [free, Ledger.forceCharge, Nat.add_zero, Nat.mod_eq_of_lt counted]
  rw [same] at distinct ⊢
  refine ⟨h.running, h.sink, distinct, ?_, ?_, h.counts⟩
  · intro other mem
    rcases List.mem_append.1 mem with mem | mem
    · exact h.combining other mem
    · rwa [List.mem_singleton.1 mem]
  · rw [List.map_append, List.sum_append, ← h.charged]
    simp [free]

end Consumes

/-! ## What is used up -/

/-- Each record that a node stores is handed over once, accumulators in binding order and records in
their order, and all of them are gone then, with what they were charged. -/
structure UsesUp (n : Node) (reaction : Reaction Unit Node Output) : Prop where
  outputs : reaction.outputs = consumption n.accumulators
  emptied : reaction.state.accumulators = n.accumulators.map fun acc ↦ { acc with records := [] }
  uncharged : reaction.state.ledger.allocated = 0

private theorem Consumes.accumulators_cleanup_all (h : n.Consumes op width) :
    (n.cleanup .all).accumulators = n.accumulators.map fun acc ↦ { acc with records := [] } := by
  rw [accumulators_cleanup]
  apply List.map_congr_left
  intro acc hacc
  have none : acc.records.filter (fun r ↦ !r.bears .all) = [] := by
    rw [List.filter_eq_nil_iff]
    intro r hr
    simp [Record.bears, Flags.intersects, Flags.all, (h.combining acc hacc).stored r hr]
  rw [none]

private theorem Consumes.usesUp (h : n.Consumes op width) :
    n.UsesUp ⟨(), n.cleanup .all, consumption n.accumulators⟩ where
  outputs := rfl
  emptied := h.accumulators_cleanup_all
  uncharged := by
    rw [(h.cleanup .all).charged, h.accumulators_cleanup_all, List.map_map]
    apply List.sum_eq_zero
    intro cost mem
    obtain ⟨acc, -, rfl⟩ := List.mem_map.1 mem
    rfl

private theorem Consumes.recordsFor_cleanup_all (h : n.Consumes op width) (id : UInt8) :
    (n.cleanup .all).recordsFor id = [] := by
  apply List.eq_nil_iff_forall_not_mem.2
  intro r hr
  obtain ⟨acc, hacc, -, hr⟩ := exists_of_mem_recordsFor hr
  rw [h.accumulators_cleanup_all] at hacc
  obtain ⟨old, -, rfl⟩ := List.mem_map.1 hacc
  cases hr

/-! ## The account of an id -/

private theorem recordsFor_of_unbound {id : UInt8} (unbound : ∀ job, (id, job) ∉ n.bindings) :
    n.recordsFor id = [] := by
  cases found : n.accumulator? id with
  | none => simp [recordsFor, found]
  | some acc => exact absurd (mem_bindings_of_accumulator? found) (unbound acc.job)

private theorem Consumes.combinesBy (h : n.Consumes op width) {id : UInt8} {job : Job}
    (bound : (id, job) ∈ n.bindings) : job.CombinesBy (op id) (width id) := by
  obtain ⟨acc, hacc, same⟩ := List.mem_map.1 bound
  obtain ⟨rfl, rfl⟩ := Prod.mk.inj same
  exact (h.combining acc hacc).combines

private theorem Consumes.wide_recordsFor (h : n.Consumes op width) (id : UInt8) :
    ∀ r ∈ n.recordsFor id, Wide (width id) r.entry := by
  intro r hr
  obtain ⟨acc, hacc, rfl, mem⟩ := exists_of_mem_recordsFor hr
  exact (h.combining acc hacc).wide r mem

/-- What was handed over for an id and what is stored weigh together what came in for it, all with
values of the right lengths. Where the id is not bound, nothing came in. -/
structure Tallied (op : Bytes → Bytes → Bytes) (width : Bytes → Nat) (id : UInt8) (n : Node)
    (handed came : List Wire.Entry) : Prop where
  handedWide : ∀ e ∈ handed, Wide width e
  cameWide : ∀ e ∈ came, Wide width e
  weight : ∀ key, ∀ h : Combines op (width key),
    weighEntries (weightUnder h) handed + weigh (weightUnder h) (n.recordsFor id) =
      weighEntries (weightUnder h) came
  unbound : (∀ job, (id, job) ∉ n.bindings) → handed = [] ∧ came = []

namespace Tallied

variable {id : UInt8} {handed came : List Wire.Entry}

/-- Records that were handed over are not stored any more. -/
theorem consumed (tallied : Tallied (op id) (width id) id n handed came)
    (h : n.Consumes op width) :
    Tallied (op id) (width id) id (n.cleanup .all)
      (handed ++ handedOver id (consumption n.accumulators)) came where
  handedWide := by
    rw [handedOver_consumption h.distinct]
    intro e mem
    rcases List.mem_append.1 mem with mem | mem
    · exact tallied.handedWide e mem
    · exact List.forall_mem_map.2 (h.wide_recordsFor id) e mem
  cameWide := tallied.cameWide
  weight key combines := by
    rw [h.recordsFor_cleanup_all, weigh_nil, add_zero, weighEntries_append,
      handedOver_consumption h.distinct]
    exact tallied.weight key combines
  unbound free := by
    rw [bindings_cleanup] at free
    obtain ⟨none, nothing⟩ := tallied.unbound free
    rw [none, handedOver_consumption h.distinct, recordsFor_of_unbound free]
    exact ⟨rfl, nothing⟩

/-- Candidates that are not refused come in. -/
theorem taken (tallied : Tallied (op id) (width id) id n handed came) (h : n.Consumes op width)
    {event : Event} {n' : Node} (bindings : n'.bindings = n.bindings)
    (takes : TakesOffer ⟨n, none⟩ id event n')
    (offers : ∀ job, (id, job) ∈ n.bindings →
      Exchange.OffersValid (Wide (width id)) n id event) :
    Tallied (op id) (width id) id n' handed
      (came ++ (⟨n, none⟩ : Exchange).takenIn id event) := by
  rcases takes with ⟨none, same⟩ | ⟨store, candidates, offer, bound, records, after⟩
  · have nothing : (⟨n, Option.none⟩ : Exchange).takenIn id event = [] := by
      rw [Exchange.takenIn, none]
    rw [nothing, List.append_nil]
    exact ⟨tallied.handedWide, tallied.cameWide, same ▸ tallied.weight,
      bindings ▸ tallied.unbound⟩
  · have combines := h.combinesBy bound
    have valid := Exchange.valid_of_offersValid (offers store.job bound) offer
    have stored : ∀ r ∈ store.records, Wide (width id) r.entry := records ▸ h.wide_recordsFor id
    have some : (⟨n, none⟩ : Exchange).takenIn id event =
        (store.accepted candidates).map Record.entry := by
      rw [Exchange.takenIn, offer]
    rw [some]
    refine ⟨tallied.handedWide, ?_, ?_, ?_⟩
    · intro e mem
      rcases List.mem_append.1 mem with mem | mem
      · exact tallied.cameWide e mem
      · obtain ⟨c, hc, rfl⟩ := List.mem_map.1 mem
        exact valid c (Store.mem_of_mem_accepted hc)
    · intro key combining
      have weight := Store.weigh_emitAll (combines.additive key) stored valid
      rw [← after, records] at weight
      rw [weight, weighEntries_append, ← tallied.weight key combining, add_assoc]
      rfl
    · intro free
      exact absurd (bindings ▸ bound) (free store.job)

/-- Where nothing changes that the account speaks of, it stays. -/
theorem congr (tallied : Tallied (op id) (width id) id n handed came) {n' : Node}
    (bindings : n'.bindings = n.bindings) (records : n'.recordsFor id = n.recordsFor id) :
    Tallied (op id) (width id) id n' handed came where
  handedWide := tallied.handedWide
  cameWide := tallied.cameWide
  weight := records ▸ tallied.weight
  unbound := bindings ▸ tallied.unbound

private theorem bind (tallied : Tallied (op id) (width id) id n handed came) {n' : Node}
    {acc : Accumulator} (bound : n.bind acc = .ok n') (empty : acc.records = []) :
    Tallied (op id) (width id) id n' handed came := by
  have records : n'.recordsFor id = n.recordsFor id := by
    by_cases named : acc.id = id
    · subst named
      rw [recordsFor_bind bound, empty, recordsFor, (bind_eq_ok bound).1]
      rfl
    · exact recordsFor_bind_of_ne bound named
  refine ⟨tallied.handedWide, tallied.cameWide, records ▸ tallied.weight, ?_⟩
  intro free
  apply tallied.unbound
  intro job mem
  apply free job
  rw [bindings_bind bound]
  exact List.mem_append_left _ mem

end Tallied

/-! ## One act -/

/-- The event by which candidates may come in, if an act is one. -/
def Act.event? : Act → Option Event
  | .sow id elapsed key value => some (.sow id elapsed key value)
  | .signal radio (.received sender payload) => some (.received radio sender payload)
  | _ => none

/-- The entries that come in for an id in an act. -/
def cameIn (n : Node) (id : UInt8) (act : Act) : List Wire.Entry :=
  match act.event? with
  | none => []
  | some event => (⟨n, none⟩ : Exchange).takenIn id event

/-- The entries that come in for an id in some acts, in order. -/
def cameAlong (id : UInt8) (n : Node) : List Act → List Wire.Entry
  | [] => []
  | act :: rest => n.cameIn id act ++ (n.perform act).state.cameAlong id rest

/-- The node whose records an act has a sink use up: the sink itself where it flushes, and the sink
with a received frame taken in. -/
def using? (n : Node) : Act → Option Node
  | .flush _ _ => some n
  | .signal _ (.received _ payload) => some (n.takingIn payload)
  | _ => none

/-- What a sink may be given. -/
inductive Gives (op : UInt8 → Bytes → Bytes → Bytes) (width : UInt8 → Bytes → Nat) (n : Node) :
    Act → Prop
  /-- An accumulator that comes to be bound is empty, and its job combines values. -/
  | bind {acc : Accumulator} (own : (n.bind acc).isOk →
      acc.records = [] ∧ acc.job.CombinesBy (op acc.id) (width acc.id)) :
      Gives op width n (.bind acc)
  /-- Facts have values of the right lengths for what is bound. -/
  | sow {id : UInt8} {elapsed : Nat} {key value : Bytes} (wide : ∀ job, (id, job) ∈ n.bindings →
      ∀ r ∈ job.map elapsed key value, Wide (width id) r.entry) :
      Gives op width n (.sow id elapsed key value)
  /-- So have received frames, as far as they can be read. -/
  | received {radio : Radio} {sender : Address} {payload : Bytes}
      (wide : ∀ id job, (id, job) ∈ n.bindings →
        ∀ e ∈ Wire.entriesFor payload id, Wide (width id) e) :
      Gives op width n (.signal radio (.received sender payload))
  | flush (radio : Radio) (urgent : Bool) : Gives op width n (.flush radio urgent)
  | beacon (beacon : Beacon) : Gives op width n (.beacon beacon)

/-- Each of some acts in order is one that the sink may be given. -/
def GivesAll (op : UInt8 → Bytes → Bytes → Bytes) (width : UInt8 → Bytes → Nat) (n : Node) :
    List Act → Prop
  | [] => True
  | act :: rest => n.Gives op width act ∧ (n.perform act).state.GivesAll op width rest

/-- What a sink does in an act: it uses up all records at a flush and with a received frame, and
wants nothing done otherwise; and it refuses nothing that its ledger can count. -/
structure ServesAsSink (n : Node) (act : Act) : Prop where
  usesUp : ∀ m, n.using? act = some m → m.UsesUp (n.perform act)
  silent : n.using? act = none → (n.perform act).outputs = []
  accepts : ∀ event, act.event? = some event → ∀ id store candidates,
    (⟨n, none⟩ : Exchange).offer? id event = some (store, candidates) →
    store.ledger.allocated + Record.footprints candidates < ledgerModulus →
    store.accepted candidates = candidates

private theorem ServesAsSink.sends_nothing {act : Act} (h : n.ServesAsSink act) (frame : Outgoing)
    (accepted : Bool) : .offer frame accepted ∉ (n.perform act).outputs := by
  cases uses : n.using? act with
  | none =>
    rw [h.silent uses]
    exact List.not_mem_nil
  | some m =>
    rw [(h.usesUp m uses).outputs]
    exact offer_not_mem_consumption m.accumulators frame accepted

/-- Candidates find the node's ledger without a cap, also when their turn comes after others. -/
theorem limit_of_offer {event : Event} {id : UInt8} {store : Store} {candidates : List Record}
    (offer : (⟨n, none⟩ : Exchange).offer? id event = some (store, candidates))
    (unlimited : n.ledger.limit = none) : store.ledger.limit = none := by
  cases event with
  | sow target elapsed key value =>
    simp only [Exchange.offer?] at offer
    split at offer
    · obtain ⟨found, bound, pair⟩ := Option.map_eq_some_iff.1 offer
      obtain ⟨acc, -, rfl⟩ := Option.map_eq_some_iff.1 bound
      obtain ⟨rfl, rfl⟩ := Prod.mk.inj pair
      exact unlimited
    · cases offer
  | received radio sender payload =>
    obtain ⟨turn, found, pair⟩ := Option.map_eq_some_iff.1 offer
    obtain ⟨rfl, rfl⟩ := Prod.mk.inj pair
    have turns := (ledger_onEach (n := { n with counters := n.counters.addReceived })
      (P := fun ledger ↦ ledger.limit = none)
      (fun other _ uncapped ↦
        (Store.limit_emitAll other (Store.arrivals payload other.id)).trans uncapped) unlimited).2
    exact turns turn (List.mem_of_find?_eq_some found)
  | flush | sent | timedOut | beacon | nextDelay => cases offer

/-- A sink stays where it is whatever it hears. -/
theorem perform_beacon_of_sink (running : n.closed = false) (sink : n.gradient = .sink)
    (beacon : Beacon) :
    ∃ counters, n.perform (.beacon beacon) = ⟨(), { n with counters }, []⟩ := by
  cases beacon with
  | heard neighbor hop =>
    have nearest : n.gradient.hop.toNat ≤ hop.toNat := by simp [sink, Gradient.sink]
    exact ⟨n.counters, onBeacon_heard_of_le running nearest⟩
  | tick => exact ⟨_, onBeacon_tick running⟩

private theorem perform_received_of_sink (running : n.closed = false) (sink : n.gradient = .sink)
    (radio : Radio) (sender : Address) (payload : Bytes) :
    n.perform (.signal radio (.received sender payload)) =
      ⟨(), (n.takingIn payload).cleanup .all, consumption (n.takingIn payload).accumulators⟩ := by
  have running' : (n.takingIn payload).closed = false := (n.closed_takingIn payload).trans running
  have sink' : (n.takingIn payload).gradient = .sink := (n.gradient_takingIn payload).trans sink
  rw [perform, onSignal_received running, flush_of_sink running' sink']

namespace Consumes

variable (h : n.Consumes op width)

include h

private theorem taken_in {payload : Bytes} (wide : ∀ id job, (id, job) ∈ n.bindings →
    ∀ e ∈ Wire.entriesFor payload id, Wide (width id) e) :
    (n.takingIn payload).Consumes op width := by
  apply h.takingIn
  intro acc hacc
  exact wide acc.id acc.job (List.mem_map.2 ⟨acc, hacc, rfl⟩)

private theorem perform {act : Act} (given : n.Gives op width act) :
    (n.perform act).state.Consumes op width := by
  cases given with
  | @bind acc own =>
    cases bound : n.bind acc with
    | error cause => rwa [perform_bind_of_error bound]
    | ok n' =>
      obtain ⟨empty, combines⟩ := own (by simp [bound, Except.isOk, Except.toBool])
      rw [perform_bind_of_ok bound]
      exact h.bind bound empty combines
  | sow wide =>
    apply h.sow
    intro acc hacc named
    exact wide acc.job (List.mem_map.2 ⟨acc, hacc, by rw [named]⟩)
  | received wide =>
    rw [perform_received_of_sink h.running h.sink]
    exact (h.taken_in wide).cleanup .all
  | flush radio urgent =>
    rw [Node.perform, flush_of_sink h.running h.sink]
    exact h.cleanup .all
  | beacon beacon =>
    obtain ⟨counters, same⟩ := perform_beacon_of_sink h.running h.sink beacon
    rw [same]
    exact h.congr rfl rfl rfl rfl

private theorem tallied_perform {id : UInt8} {handed came : List Wire.Entry}
    (tallied : Tallied (op id) (width id) id n handed came) {act : Act}
    (given : n.Gives op width act) :
    Tallied (op id) (width id) id (n.perform act).state
      (handed ++ handedOver id (n.perform act).outputs) (came ++ n.cameIn id act) := by
  have quiet : handed ++ handedOver id [] = handed := List.append_nil handed
  have nothing : came ++ [] = came := List.append_nil came
  cases given with
  | @bind acc own =>
    rw [show n.cameIn id (.bind acc) = [] from rfl, nothing]
    cases bound : n.bind acc with
    | error cause =>
      rw [perform_bind_of_error bound, quiet]
      exact tallied
    | ok n' =>
      obtain ⟨empty, -⟩ := own (by simp [bound, Except.isOk, Except.toBool])
      rw [perform_bind_of_ok bound, quiet]
      exact tallied.bind bound empty
  | @sow target elapsed key value wide =>
    show Tallied _ _ id _ (handed ++ handedOver id []) _
    rw [quiet]
    apply tallied.taken h (n.bindings_sow target elapsed key value) (takesOffer_sow ..)
    rintro - - rfl
    exact wide
  | @received radio sender payload wide =>
    rw [perform_received_of_sink h.running h.sink]
    apply Tallied.consumed _ (h.taken_in wide)
    apply tallied.taken h (n.bindings_takingIn payload) (takesOffer_takingIn ..)
    exact wide id
  | flush radio urgent =>
    rw [show n.cameIn id (.flush radio urgent) = [] from rfl, nothing, Node.perform,
      flush_of_sink h.running h.sink]
    exact tallied.consumed h
  | beacon beacon =>
    obtain ⟨counters, same⟩ := perform_beacon_of_sink h.running h.sink beacon
    rw [show n.cameIn id (.beacon beacon) = [] from rfl, nothing, same, quiet]
    exact tallied.congr rfl rfl

private theorem servesAsSink {act : Act} (given : n.Gives op width act) : n.ServesAsSink act := by
  constructor
  · intro m uses
    cases given with
    | flush radio urgent =>
      obtain rfl := Option.some.inj uses
      rw [Node.perform, flush_of_sink h.running h.sink]
      exact h.usesUp
    | received wide =>
      obtain rfl := Option.some.inj uses
      rw [perform_received_of_sink h.running h.sink]
      exact (h.taken_in wide).usesUp
    | bind | sow | beacon => cases uses
  · intro idle
    cases given with
    | flush | received => cases idle
    | beacon beacon =>
      obtain ⟨counters, same⟩ := perform_beacon_of_sink h.running h.sink beacon
      rw [same]
    | bind | sow => rfl
  · intro event same id store candidates offer room
    apply Store.accepted_of_counts
    exact ⟨limit_of_offer offer h.counts.1, room⟩

end Consumes

/-! ## Every sequence of acts -/

/-- A sink without a cap that was just opened, with nothing bound. -/
theorem consumes_opened (address : Address) {config : NodeConfig} (source : Source)
    (unlimited : config.ramLimit = none) :
    (Node.opened address true config source).state.Consumes op width where
  running := rfl
  sink := rfl
  distinct := List.nodup_nil
  combining _ mem := nomatch mem
  charged := rfl
  counts := ⟨unlimited, by show 0 < ledgerModulus; decide⟩

private theorem tallied_opened (address : Address) (config : NodeConfig) (source : Source)
    (op : Bytes → Bytes → Bytes) (width : Bytes → Nat) (id : UInt8) :
    Tallied op width id (Node.opened address true config source).state [] [] where
  handedWide _ mem := nomatch mem
  cameWide _ mem := nomatch mem
  weight _ _ := add_zero _
  unbound _ := ⟨rfl, rfl⟩

private theorem Consumes.servesAsSink_of_mem (h : n.Consumes op width) {acts : List Act}
    (given : n.GivesAll op width acts) {before after : List Act} {act : Act}
    (split : acts = before ++ act :: after) : (n.performed before).ServesAsSink act := by
  subst split
  induction before generalizing n with
  | nil => exact h.servesAsSink given.1
  | cons first rest ih => exact ih (h.perform given.1) given.2

private theorem Consumes.sends_nothing (h : n.Consumes op width) {acts : List Act}
    (given : n.GivesAll op width acts) (frame : Outgoing) (accepted : Bool) :
    .offer frame accepted ∉ n.wanted acts := by
  induction acts generalizing n with
  | nil => exact List.not_mem_nil
  | cons act rest ih =>
    intro mem
    rcases List.mem_append.1 mem with mem | mem
    · exact (h.servesAsSink given.1).sends_nothing frame accepted mem
    · exact ih (h.perform given.1) given.2 mem

/-- The values that were handed over for an id, and those that are stored, combine to those that
came in. -/
theorem Consumes.total_under (h : n.Consumes op width) {id : UInt8} {handed came : List Wire.Entry}
    (tallied : Tallied (op id) (width id) id n handed came) (key : Bytes) :
    total (op id) (under key (handed ++ (n.recordsFor id).map Record.entry)) =
      total (op id) (under key came) := by
  by_cases bound : ∃ job, (id, job) ∈ n.bindings
  · obtain ⟨job, bound⟩ := bound
    have combines := (h.combinesBy bound).combines key
    apply total_under_eq combines
    · intro e mem
      rcases List.mem_append.1 mem with mem | mem
      · exact tallied.handedWide e mem
      · exact List.forall_mem_map.2 (h.wide_recordsFor id) e mem
    · exact tallied.cameWide
    · rw [weighEntries_append]
      exact tallied.weight key combines
  · obtain ⟨handedNothing, cameNothing⟩ := tallied.unbound (not_exists.1 bound)
    rw [handedNothing, cameNothing, recordsFor_of_unbound (not_exists.1 bound)]
    rfl

private theorem Consumes.tallied_performed (h : n.Consumes op width) {id : UInt8}
    {handed came : List Wire.Entry} (tallied : Tallied (op id) (width id) id n handed came)
    {acts : List Act} (given : n.GivesAll op width acts) :
    (n.performed acts).Consumes op width ∧
      Tallied (op id) (width id) id (n.performed acts) (handed ++ handedOver id (n.wanted acts))
        (came ++ n.cameAlong id acts) := by
  induction acts generalizing n handed came with
  | nil => simpa [performed, wanted, cameAlong] using ⟨h, tallied⟩
  | cons act rest ih =>
    have later := ih (h.perform given.1) (h.tallied_perform tallied given.1) given.2
    rw [wanted, cameAlong, handedOver_append, ← List.append_assoc, ← List.append_assoc]
    exact later

/-- Whatever an open sink without a cap is given, as long as its jobs combine values of one length
for each key: at every flush and with every received frame it hands each stored record over once, in
order, and is left with no record and no charge, and it hands nothing over otherwise. It never sends
anything. For every id and key the values that were handed over and the value that is still stored
combine to those that came in; and everything that its ledger can count comes in. -/
theorem consumes_exactly_once (address : Address) {config : NodeConfig} (source : Source)
    (unlimited : config.ramLimit = none) {acts : List Act}
    (given : (Node.opened address true config source).state.GivesAll op width acts) :
    let start := (Node.opened address true config source).state
    (∀ before act after, acts = before ++ act :: after →
      (start.performed before).ServesAsSink act) ∧
    (∀ frame accepted, .offer frame accepted ∉ start.wanted acts) ∧
    ∀ id key,
      total (op id) (under key (handedOver id (start.wanted acts) ++
          ((start.performed acts).recordsFor id).map Record.entry)) =
        total (op id) (under key (start.cameAlong id acts)) := by
  intro start
  have opened : start.Consumes op width := consumes_opened address source unlimited
  refine ⟨fun before act after split ↦ opened.servesAsSink_of_mem given split,
    opened.sends_nothing given, ?_⟩
  intro id key
  obtain ⟨last, tallied⟩ := opened.tallied_performed
    (tallied_opened address config source (op id) (width id) id) given
  exact last.total_under tallied key

/-! ## A sink of words -/

/-- Whether an accumulator is to be bound. -/
def Act.binds : Act → Bool
  | .bind _ => true
  | _ => false

/-- Only binding changes what is bound to a sink. -/
theorem Consumes.bindings_perform (h : n.Consumes op width) {act : Act}
    (given : n.Gives op width act) (others : act.binds = false) :
    (n.perform act).state.bindings = n.bindings := by
  cases given with
  | bind => cases others
  | @sow id elapsed key value => exact n.bindings_sow id elapsed key value
  | @received radio sender payload =>
    rw [perform_received_of_sink h.running h.sink]
    exact (bindings_cleanup ..).trans (n.bindings_takingIn payload)
  | flush radio urgent => exact bindings_flush h.distinct radio urgent
  | beacon beacon =>
    obtain ⟨counters, same⟩ := perform_beacon_of_sink h.running h.sink beacon
    rw [same]
    rfl

/-- What a sink may be given besides accumulators depends on what is bound. -/
theorem Gives.of_bindings {n' : Node} (same : n'.bindings = n.bindings) {act : Act}
    (given : n.Gives op width act) (others : act.binds = false) : n'.Gives op width act := by
  cases given with
  | bind => cases others
  | sow wide => exact .sow (same ▸ wide)
  | received wide => exact .received (same ▸ wide)
  | flush radio urgent => exact .flush radio urgent
  | beacon beacon => exact .beacon beacon

/-- A sink to which nothing more is bound may be given all that it may be given at first. -/
theorem Consumes.givesAll (h : n.Consumes op width) {acts : List Act}
    (given : ∀ act ∈ acts, n.Gives op width act ∧ act.binds = false) :
    n.GivesAll op width acts := by
  induction acts generalizing n with
  | nil => trivial
  | cons act rest ih =>
    obtain ⟨first, others⟩ := given act List.mem_cons_self
    have same := h.bindings_perform first others
    refine ⟨first, ih (h.perform first) ?_⟩
    intro later mem
    obtain ⟨given, others⟩ := given later (List.mem_cons_of_mem act mem)
    exact ⟨given.of_bindings same others, others⟩

/-- A sink that was just opened. -/
def freshSink : Node := (Node.opened (.ofNat 0) true {} (.ofList [])).state

/-- Words under two keys are sensed and received, and one more is sensed after the last flush. One
of the frames is cut off. -/
def wordsAtSink : List Act :=
  [.sow 1 0 [110] [1, 0, 0, 0], .sow 1 0 [110] [2, 0, 0, 0],
    .signal idleRadio (.received (.ofNat 1) [0, 1, 1, 9, 1, 4, 110, 3, 0, 0, 0]),
    .signal idleRadio (.received (.ofNat 1) [0, 1, 1, 9, 1]), .beacon .tick,
    .sow 1 0 [109] [5, 0, 0, 0], .flush idleRadio false, .sow 1 0 [110] [7, 0, 0, 0]]

private theorem gives_word {n : Node} (bindings : n.bindings = [(1, Bytewise.wordSum)])
    {key value : Bytes} (short : key.length = 1) (four : value.length = 4) :
    n.Gives (fun _ ↦ Exchange.addWords) (fun _ _ ↦ 4) (.sow 1 0 key value) := by
  apply Gives.sow
  intro job bound r mem
  obtain rfl : job = Bytewise.wordSum := by simpa [bindings] using bound
  have made : Record.make key value = .ok { key, value } :=
    (Record.make_eq_ok_iff ..).2 ⟨by simp [short, four, Wire.maxFieldLength], rfl⟩
  simp only [Bytewise.wordSum, Bytewise.record, made, Except.toOption, Option.toList,
    List.mem_singleton] at mem
  rw [mem]
  exact four

private theorem gives_frame {n : Node} (bindings : n.bindings = [(1, Bytewise.wordSum)])
    {radio : Radio} {sender : Address} {payload : Bytes}
    (words : ∀ e ∈ Wire.entriesFor payload 1, Wide (fun _ ↦ 4) e) :
    n.Gives (fun _ ↦ Exchange.addWords) (fun _ _ ↦ 4)
      (.signal radio (.received sender payload)) := by
  apply Gives.received
  intro id job bound
  obtain ⟨rfl, -⟩ : id = 1 ∧ job = Bytewise.wordSum := by simpa [bindings] using bound
  exact words

/-- The sink is handed 6 under one key and 5 under another, and 7 is stored under the first. -/
theorem consumes_wordsAtSink :
    let acts := .bind { id := 1, job := Bytewise.wordSum } :: wordsAtSink
    NodeConfig.ramLimit {} = none ∧
      freshSink.GivesAll (fun _ ↦ Exchange.addWords) (fun _ _ ↦ 4) acts ∧
      handedOver 1 (freshSink.wanted acts) = [⟨[110], [6, 0, 0, 0]⟩, ⟨[109], [5, 0, 0, 0]⟩] ∧
      total Exchange.addWords (under [110] (handedOver 1 (freshSink.wanted acts) ++
          ((freshSink.performed acts).recordsFor 1).map Record.entry)) =
        total Exchange.addWords (under [110] (freshSink.cameAlong 1 acts)) := by
  intro acts
  have unlimited : NodeConfig.ramLimit {} = none := rfl
  have opened : freshSink.Consumes (fun _ ↦ Exchange.addWords) (fun _ _ ↦ 4) :=
    consumes_opened (.ofNat 0) (.ofList []) unlimited
  have bound : freshSink.Gives (fun _ ↦ Exchange.addWords) (fun _ _ ↦ 4)
      (.bind { id := 1, job := Bytewise.wordSum }) :=
    .bind fun _ ↦ ⟨rfl, Exchange.combinesBy_wordSum⟩
  have given : freshSink.GivesAll (fun _ ↦ Exchange.addWords) (fun _ _ ↦ 4) acts := by
    refine ⟨bound, (opened.perform bound).givesAll ?_⟩
    simp only [wordsAtSink, List.forall_mem_cons]
    exact ⟨⟨gives_word rfl rfl rfl, rfl⟩, ⟨gives_word rfl rfl rfl, rfl⟩,
      ⟨gives_frame rfl (by decide +kernel), rfl⟩, ⟨gives_frame rfl (by decide +kernel), rfl⟩,
      ⟨.beacon _, rfl⟩, ⟨gives_word rfl rfl rfl, rfl⟩, ⟨.flush _ _, rfl⟩,
      ⟨gives_word rfl rfl rfl, rfl⟩, by simp⟩
  exact ⟨unlimited, given, by decide +kernel,
    (consumes_exactly_once (.ofNat 0) (.ofList []) unlimited given).2.2 1 [110]⟩

end Node
end CollectionTree
