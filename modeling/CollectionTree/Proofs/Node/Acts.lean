import CollectionTree.Proofs.Node.Sending
import CollectionTree.Proofs.Store.Charges

/-!
# A node's life

A node is bound to accumulators and hands them back, is given facts, flushes, hears its radio and
discovery, and may be closed, in any order. `Node.InOrder` is what all of this keeps: every record
is marked as stored, and the ledger holds what all records cost. An accumulator that is bound has to
be in order itself.
-/

namespace CollectionTree

namespace Job

/-- Folding keeps the mark of a stored record. -/
theorem KeepsIdentity.stored_fold {job : Job} (h : job.KeepsIdentity) (candidate r : Record) :
    (job.fold candidate r).flags.stored = r.flags.stored := by
  have flags := (h r candidate.value).2
  unfold fold
  split
  · simp [Record.urgent, Record.mark, Flags.union, Flags.urgentOnly, flags]
  · rw [flags]

end Job

namespace Accumulator

/-- Every record is marked as stored, and the job changes no keys, marks or lengths. -/
structure InOrder (acc : Accumulator) : Prop where
  keeps : acc.job.KeepsIdentity
  lengths : acc.job.KeepsLength
  stored : ∀ r ∈ acc.records, r.flags.stored = true

/-- Marking records as on their way keeps an accumulator in order. -/
theorem InOrder.marked {acc : Accumulator} (h : acc.InOrder) (urgent : Bool) (count : Nat) :
    (acc.marked urgent count).InOrder where
  keeps := h.keeps
  lengths := h.lengths
  stored := forall_mem_markReady (P := fun r ↦ r.flags.stored = true)
    (fun r stored ↦ by simp [Record.mark, Flags.union, stored]) urgent count h.stored

private theorem InOrder.releasePending {acc : Accumulator} (h : acc.InOrder) :
    acc.releasePending.InOrder where
  keeps := h.keeps
  lengths := h.lengths
  stored r hr := by
    obtain ⟨s, hs, rfl⟩ := List.mem_map.1 hr
    simpa [Record.unmark, Flags.diff, Flags.pendingOnly] using h.stored s hs

end Accumulator

namespace Store

variable {store : Store}

private theorem inOrder_emitAll (h : store.toAccumulator.InOrder) (candidates : List Record) :
    (store.emitAll candidates).2.toAccumulator.InOrder where
  keeps := (job_emitAll store candidates).symm ▸ h.keeps
  lengths := (job_emitAll store candidates).symm ▸ h.lengths
  stored := forall_mem_emitAll (P := fun r ↦ r.flags.stored = true)
    (fun c _ r stored _ ↦ (h.keeps.stored_fold c r).trans stored)
    (fun c _ ↦ by simp [storedCopy, Record.mark, Flags.union, Flags.storedOnly]) h.stored

private theorem inOrder_cleanup (h : store.toAccumulator.InOrder) (flags : Flags) :
    (store.cleanup flags).2.toAccumulator.InOrder where
  keeps := h.keeps
  lengths := h.lengths
  stored r hr := by
    simp only [cleanup, List.partition_eq_filter_filter] at hr
    exact h.stored r (List.mem_filter.1 hr).1

end Store

namespace Node

variable {n : Node}

/-- What an operation makes of every accumulator at its turn holds of all accumulators afterwards.
-/
theorem forall_mem_onEach {operation : Store → Store} {P : Accumulator → Prop}
    (h : ∀ store : Store, store.toAccumulator ∈ n.accumulators →
      P (operation store).toAccumulator) :
    ∀ acc ∈ (n.onEach operation).accumulators, P acc := by
  intro acc mem
  rw [accumulators_onEach] at mem
  obtain ⟨store, there, rfl⟩ := List.mem_map.1 mem
  refine h store ?_
  rw [n.accumulators_eq_turns operation]
  exact List.mem_map.2 ⟨store, there, rfl⟩

/-- Where every turn moves the ledger by as much as the cost of its records changes, the ledger
holds what all records cost afterwards if it did so before. -/
theorem charged_onEach {operation : Store → Store}
    (accounts : ∀ store : Store, store.toAccumulator ∈ n.accumulators →
      store.toAccumulator.footprint ≤ store.ledger.allocated → store.Accounts (operation store))
    (charged : n.ledger.allocated = (n.accumulators.map Accumulator.footprint).sum) :
    (n.onEach operation).ledger.allocated =
      ((n.onEach operation).accumulators.map Accumulator.footprint).sum := by
  have from' (ledger : Ledger) (counters : Counters) (before : Nat) {accs : List Accumulator}
      (accounts : ∀ store : Store, store.toAccumulator ∈ accs →
        store.toAccumulator.footprint ≤ store.ledger.allocated → store.Accounts (operation store))
      (charged : ledger.allocated = before + (accs.map Accumulator.footprint).sum) :
      (runEach operation ledger counters accs).2.1.allocated = before +
        ((runEach operation ledger counters accs).1.map Accumulator.footprint).sum := by
    induction accs generalizing ledger counters before with
    | nil => exact charged
    | cons acc rest ih =>
      rw [List.map_cons, List.sum_cons] at charged
      have moved :=
        (accounts ⟨acc, ledger, counters⟩ List.mem_cons_self (by simp only; omega)).moved
      have later := ih (operation ⟨acc, ledger, counters⟩).ledger
        (operation ⟨acc, ledger, counters⟩).counters
        (before + (operation ⟨acc, ledger, counters⟩).toAccumulator.footprint)
        (fun store mem ↦ accounts store (List.mem_cons_of_mem acc mem))
        (by simp only at moved; omega)
      simp only [runEach, List.map_cons, List.sum_cons]
      rwa [← Nat.add_assoc]
  have all := from' n.ledger n.counters 0 accounts (charged.trans (Nat.zero_add _).symm)
  rwa [Nat.zero_add] at all

/-- What every turn keeps of the ledger holds of the ledger at every turn, and afterwards. -/
theorem ledger_onEach {operation : Store → Store} {P : Ledger → Prop}
    (keeps : ∀ store : Store, store.toAccumulator ∈ n.accumulators → P store.ledger →
      P (operation store).ledger) (h : P n.ledger) :
    P (n.onEach operation).ledger ∧ ∀ store ∈ n.turns operation, P store.ledger := by
  have from' (ledger : Ledger) (counters : Counters) {accs : List Accumulator}
      (keeps : ∀ store : Store, store.toAccumulator ∈ accs → P store.ledger →
        P (operation store).ledger) (h : P ledger) :
      P (runEach operation ledger counters accs).2.1 ∧
        ∀ store ∈ turnsFrom operation ledger counters accs, P store.ledger := by
    induction accs generalizing ledger counters with
    | nil => exact ⟨h, fun _ mem ↦ nomatch mem⟩
    | cons acc rest ih =>
      have first := keeps ⟨acc, ledger, counters⟩ List.mem_cons_self h
      have later := ih _ (operation ⟨acc, ledger, counters⟩).counters
        (fun store mem ↦ keeps store (List.mem_cons_of_mem acc mem)) first
      exact ⟨later.1, List.forall_mem_cons.2 ⟨h, later.2⟩⟩
  exact from' n.ledger n.counters keeps h

/-- What a fact makes of the accumulator with its id, and what the others are, all accumulators are
afterwards. -/
theorem forall_mem_sow {id : UInt8} {elapsed : Nat} {key value : Bytes} {P : Accumulator → Prop}
    (taken : ∀ acc ∈ n.accumulators, acc.id = id →
      P (Store.sow ⟨acc, n.ledger, n.counters⟩ elapsed key value).2.toAccumulator)
    (h : ∀ acc ∈ n.accumulators, P acc) :
    ∀ acc ∈ (n.sow id elapsed key value).2.accumulators, P acc := by
  have step := n.sown_sow id elapsed key value
  generalize (n.sow id elapsed key value).2 = n' at step ⊢
  cases step with
  | unbound missing => exact h
  | @taken store _ found _ here elsewhere rest =>
    obtain ⟨before, after, split, rfl⟩ := rest
    obtain ⟨acc, bound, rfl⟩ := Option.map_eq_some_iff.1 found
    obtain ⟨hacc, named⟩ := n.mem_accumulators_of_accumulator? bound
    intro other mem
    rcases List.mem_append.1 mem with mem | mem
    · exact h other (by simp [split, mem])
    · rcases List.mem_cons.1 mem with rfl | mem
      · exact taken acc hacc named
      · exact h other (by simp [split, mem])

/-- A fact leaves the ledger alone, or its accumulator charges it. -/
theorem ledger_sow (id : UInt8) (elapsed : Nat) (key value : Bytes) :
    (n.sow id elapsed key value).2.ledger = n.ledger ∨
      ∃ acc ∈ n.accumulators, acc.id = id ∧ (n.sow id elapsed key value).2.ledger =
        (Store.sow ⟨acc, n.ledger, n.counters⟩ elapsed key value).2.ledger := by
  have step := n.sown_sow id elapsed key value
  generalize (n.sow id elapsed key value).2 = n' at step ⊢
  cases step with
  | unbound missing => exact .inl rfl
  | @taken store _ found _ here elsewhere rest =>
    obtain ⟨before, after, split, rfl⟩ := rest
    obtain ⟨acc, bound, rfl⟩ := Option.map_eq_some_iff.1 found
    obtain ⟨hacc, named⟩ := n.mem_accumulators_of_accumulator? bound
    exact .inr ⟨acc, hacc, named, rfl⟩

/-- Where the accumulator that takes a fact in moves the ledger by as much as the cost of its
records changes, the ledger holds what all records cost afterwards if it did so before. -/
theorem charged_sow {id : UInt8} {elapsed : Nat} {key value : Bytes}
    (accounts : ∀ acc ∈ n.accumulators, acc.id = id →
      Store.Accounts ⟨acc, n.ledger, n.counters⟩
        (Store.sow ⟨acc, n.ledger, n.counters⟩ elapsed key value).2)
    (charged : n.ledger.allocated = (n.accumulators.map Accumulator.footprint).sum) :
    (n.sow id elapsed key value).2.ledger.allocated =
      ((n.sow id elapsed key value).2.accumulators.map Accumulator.footprint).sum := by
  have step := n.sown_sow id elapsed key value
  generalize (n.sow id elapsed key value).2 = n' at step ⊢
  cases step with
  | unbound missing => exact charged
  | @taken store _ found _ here elsewhere rest =>
    obtain ⟨before, after, split, rfl⟩ := rest
    obtain ⟨acc, bound, rfl⟩ := Option.map_eq_some_iff.1 found
    obtain ⟨hacc, named⟩ := n.mem_accumulators_of_accumulator? bound
    have moved := (accounts acc hacc named).moved
    rw [split] at charged
    simp only [List.map_append, List.map_cons, List.sum_append, List.sum_cons] at moved charged ⊢
    omega

/-- Every accumulator is in order, no two have one id, and the ledger holds what all records cost.
-/
structure InOrder (n : Node) : Prop where
  distinct : n.DistinctIds
  proper : ∀ acc ∈ n.accumulators, acc.InOrder
  charged : n.ledger.allocated = (n.accumulators.map Accumulator.footprint).sum

namespace InOrder

variable (h : n.InOrder)

include h

/-- Order depends on accumulators and ledger alone. -/
theorem congr {n' : Node} (accumulators : n'.accumulators = n.accumulators)
    (ledger : n'.ledger = n.ledger) : n'.InOrder where
  distinct := by rw [DistinctIds, accumulators]; exact h.distinct
  proper := accumulators ▸ h.proper
  charged := by rw [accumulators, ledger]; exact h.charged

/-- Marks cost nothing. -/
theorem of_map {n' : Node} {change : Accumulator → Accumulator}
    (accumulators : n'.accumulators = n.accumulators.map change) (ledger : n'.ledger = n.ledger)
    (id : ∀ acc, (change acc).id = acc.id)
    (entries : ∀ acc, (change acc).records.map Record.entry = acc.records.map Record.entry)
    (proper : ∀ acc, acc.InOrder → (change acc).InOrder) : n'.InOrder where
  distinct := by
    rw [DistinctIds, accumulators, List.map_map]
    simpa [DistinctIds, Function.comp_def, id] using h.distinct
  proper acc mem := by
    rw [accumulators] at mem
    obtain ⟨old, hold, rfl⟩ := List.mem_map.1 mem
    exact proper old (h.proper old hold)
  charged := by
    rw [accumulators, ledger, List.map_map, h.charged]
    exact congrArg List.sum
      (List.map_congr_left fun acc _ ↦ (Record.footprints_congr (entries acc)).symm)

private theorem onEach {operation : Store → Store}
    (keeps : ∀ store, (operation store).id = store.id ∧ (operation store).job = store.job)
    (proper : ∀ store : Store, store.toAccumulator.InOrder →
      (operation store).toAccumulator.InOrder)
    (accounts : ∀ store : Store, store.toAccumulator.InOrder →
      store.toAccumulator.footprint ≤ store.ledger.allocated → store.Accounts (operation store)) :
    (n.onEach operation).InOrder where
  distinct := (distinctIds_of_bindings_eq (n.bindings_onEach keeps)).2 h.distinct
  proper := forall_mem_onEach fun store mem ↦ proper store (h.proper _ mem)
  charged := charged_onEach (fun store mem ↦ accounts store (h.proper _ mem)) h.charged

/-- Cleaning up keeps order. -/
theorem cleanup (flags : Flags) : (n.cleanup flags).InOrder :=
  h.onEach (fun _ ↦ ⟨rfl, rfl⟩) (fun _ proper ↦ Store.inOrder_cleanup proper flags)
    fun _ _ covered ↦ Store.accounts_cleanup covered flags

/-- Releasing what is on its way keeps order. -/
theorem releasePending : n.releasePending.InOrder :=
  h.of_map rfl rfl (fun _ ↦ rfl) (fun acc ↦ by simp [Accumulator.releasePending])
    fun _ proper ↦ proper.releasePending

/-- Receiving a payload keeps order. -/
theorem receive (payload : Bytes) : (n.receive payload).InOrder := by
  rw [receive_eq]
  exact h.onEach (fun store ↦ ⟨by simp, by simp⟩)
    (fun _ proper ↦ Store.inOrder_emitAll proper _)
    fun _ proper _ ↦ Store.accounts_emitAll proper.lengths _

/-- Flushing keeps order. -/
theorem flush (radio : Radio) (urgent : Bool) : (n.flush radio urgent).state.InOrder := by
  have step := flushed_flush h.distinct radio urgent
  generalize n.flush radio urgent = reaction at step ⊢
  cases step with
  | idle gate source => exact h.congr rfl rfl
  | consumed sink => exact h.cleanup .all
  | taken gate source inner route free accepted carries loaded =>
    exact h.of_map rfl rfl (fun _ ↦ rfl) (fun _ ↦ Accumulator.map_entry_markReady ..)
      fun _ proper ↦ proper.marked ..
  | refused gate source inner free filled rejected => exact h.releasePending.congr rfl rfl

/-- A fact keeps order. -/
theorem sow (id : UInt8) (elapsed : Nat) (key value : Bytes) :
    (n.sow id elapsed key value).2.InOrder where
  distinct := (distinctIds_of_bindings_eq (n.bindings_sow id elapsed key value)).2 h.distinct
  proper := by
    apply forall_mem_sow
    · intro acc hacc _
      have own : Accumulator.InOrder (Store.mk acc n.ledger n.counters.addMapped).toAccumulator :=
        h.proper acc hacc
      exact Store.inOrder_emitAll own _
    · exact h.proper
  charged := by
    apply charged_sow _ h.charged
    intro acc hacc _
    have own : Accumulator.InOrder (Store.mk acc n.ledger n.counters.addMapped).toAccumulator :=
      h.proper acc hacc
    have accounts := Store.accounts_emitAll own.lengths (acc.job.map elapsed key value)
    exact ⟨accounts.moved, accounts.limit, accounts.capped⟩

/-- An accumulator in order is bound, where the ledger can count its records. -/
theorem bind {n' : Node} {acc : Accumulator} (bound : n.bind acc = .ok n') (proper : acc.InOrder)
    (counted : n.ledger.allocated + acc.footprint < ledgerModulus) : n'.InOrder := by
  have distinct := distinctIds_bind h.distinct bound
  obtain ⟨-, rfl⟩ := bind_eq_ok bound
  refine ⟨distinct, ?_, ?_⟩
  · intro other mem
    rcases List.mem_append.1 mem with mem | mem
    · exact h.proper other mem
    · rwa [List.mem_singleton.1 mem]
  · rw [List.map_append, List.sum_append, ← h.charged]
    simp [Ledger.forceCharge, Nat.mod_eq_of_lt counted]

private theorem unbind {n' : Node} {acc : Accumulator} {id : UInt8}
    (taken : n.unbind id = some (acc, n')) :
    n'.InOrder := by
  have others := accumulators_unbind_sublist taken
  have charged := h.charged
  refine ⟨h.distinct.sublist (others.map _), fun other mem ↦ h.proper other (others.subset mem), ?_⟩
  obtain ⟨before, after, split, -, -, rfl⟩ := unbind_eq_some taken
  rw [split, List.map_append, List.map_cons, List.sum_append, List.sum_cons] at charged
  rw [List.map_append, List.sum_append]
  simp only [Ledger.refund]
  omega

/-- Counting frames keeps order. -/
theorem recounted (counters : Counters) : InOrder { n with counters } := h.congr rfl rfl

private theorem onSignal (radio : Radio) (signal : Signal) :
    (n.onSignal radio signal).state.InOrder := by
  unfold Node.onSignal
  split
  · exact h
  · cases signal with
    | received sender payload => exact ((h.recounted _).receive payload).flush radio true
    | sent target retries => exact (h.recounted _).cleanup .pendingOnly
    | timedOut target retries => exact (h.recounted _).releasePending

private theorem onBeacon (beacon : Beacon) : (n.onBeacon beacon).state.InOrder := by
  unfold Node.onBeacon
  split
  · exact h
  · cases beacon with
    | heard neighbor hop => exact h.congr rfl rfl
    | tick => exact h.congr rfl rfl

/-- Closing leaves a node in order. -/
theorem close : n.close.state.InOrder := by
  unfold Node.close
  split
  · exact h
  · exact (h.cleanup .all).congr rfl rfl

end InOrder

/-- A node that was just opened is in order. -/
theorem inOrder_opened (address : Address) (isSink : Bool) (config : NodeConfig)
    (source : Source) : (Node.opened address isSink config source).state.InOrder where
  distinct := List.nodup_nil
  proper _ mem := nomatch mem
  charged := rfl

/-! ## Acts -/

/-- What may be done to a node. -/
inductive Act where
  /-- It is given a fact sensed after so many seconds. -/
  | sow (id : UInt8) (elapsed : Nat) (key value : Bytes)
  /-- It flushes, on a schedule or ahead of it, and sees this of its radio. -/
  | flush (radio : Radio) (urgent : Bool)
  /-- An accumulator is bound to it. -/
  | bind (acc : Accumulator)
  /-- It hands the accumulator with this id back. -/
  | unbind (id : UInt8)
  /-- Its radio tells it something. -/
  | signal (radio : Radio) (signal : Signal)
  /-- Discovery tells it something. -/
  | beacon (beacon : Beacon)
  /-- It is asked when it flushes next. -/
  | nextDelay
  /-- It is closed. -/
  | close

/-- What a node wants done in an act, and the node after it. -/
def perform (n : Node) : Act → Reaction Unit Node Output
  | .sow id elapsed key value => ⟨(), (n.sow id elapsed key value).2, []⟩
  | .flush radio urgent => ⟨(), (n.flush radio urgent).state, (n.flush radio urgent).outputs⟩
  | .bind acc => ⟨(), (n.bind acc).toOption.getD n, []⟩
  | .unbind id => ⟨(), ((n.unbind id).map Prod.snd).getD n, []⟩
  | .signal radio signal => n.onSignal radio signal
  | .beacon beacon => n.onBeacon beacon
  | .nextDelay => ⟨(), n.nextFlushDelay.2, []⟩
  | .close => n.close

/-- The node after some acts. -/
def performed (n : Node) (acts : List Act) : Node :=
  acts.foldl (fun n act ↦ (n.perform act).state) n

/-- A binding that is accepted leaves the node with the accumulator. -/
theorem perform_bind_of_ok {n' : Node} {acc : Accumulator} (given : n.bind acc = .ok n') :
    n.perform (.bind acc) = ⟨(), n', []⟩ := by
  simp [perform, given, Except.toOption]

/-- A binding that is refused changes nothing. -/
theorem perform_bind_of_error {cause : NodeError} {acc : Accumulator}
    (refused : n.bind acc = .error cause) : n.perform (.bind acc) = ⟨(), n, []⟩ := by
  simp [perform, refused, Except.toOption]

/-- Unbinding leaves the node without the accumulator. -/
theorem perform_unbind_of_some {n' : Node} {acc : Accumulator} {id : UInt8}
    (handed : n.unbind id = some (acc, n')) : n.perform (.unbind id) = ⟨(), n', []⟩ := by
  simp [perform, handed]

/-- Nothing is unbound where nothing is bound. -/
theorem perform_unbind_of_none {id : UInt8} (absent : n.unbind id = none) :
    n.perform (.unbind id) = ⟨(), n, []⟩ := by
  simp [perform, absent]

/-- Whether an act asks first whether the node was closed. -/
def Act.asksFirst : Act → Bool
  | .flush _ _ | .bind _ | .signal _ _ | .beacon _ | .close => true
  | .sow _ _ _ _ | .unbind _ | .nextDelay => false

/-- An act that asks first does nothing to a closed node. -/
theorem perform_of_asksFirst (shut : n.closed = true) {act : Act} (asks : act.asksFirst = true) :
    n.perform act = ⟨(), n, []⟩ := by
  cases act with
  | flush radio urgent => simp [perform, Node.flush, shut]
  | bind acc => simp [perform, Node.bind, shut, Except.toOption]
  | signal radio signal => simp [perform, Node.onSignal, shut]
  | beacon beacon => simp [perform, Node.onBeacon, shut]
  | close => simp [perform, Node.close, shut]
  | sow | unbind | nextDelay => cases asks

/-- What a node wants done in some acts, in order. -/
def wanted (n : Node) : List Act → List Output
  | [] => []
  | act :: rest => (n.perform act).outputs ++ (n.perform act).state.wanted rest

/-- An accumulator that comes to be bound is in order, and the ledger can count its records. -/
def Admits (n : Node) : Act → Prop
  | .bind acc =>
    (n.bind acc).isOk → acc.InOrder ∧ n.ledger.allocated + acc.footprint < ledgerModulus
  | _ => True

/-- Each of some acts in order is admitted. -/
def AdmitsAll (n : Node) : List Act → Prop
  | [] => True
  | act :: rest => n.Admits act ∧ (n.perform act).state.AdmitsAll rest

/-- Acts are done one after another, the first one first. -/
@[simp] theorem performed_cons (n : Node) (act : Act) (rest : List Act) :
    n.performed (act :: rest) = (n.perform act).state.performed rest := rfl

/-- Acts are done one after another, the last one last. -/
theorem performed_concat (n : Node) (acts : List Act) (act : Act) :
    n.performed (acts ++ [act]) = ((n.performed acts).perform act).state := by
  simp [performed]

/-- An act that is admitted keeps the node in order. -/
theorem InOrder.perform (h : n.InOrder) {act : Act} (admitted : n.Admits act) :
    (n.perform act).state.InOrder := by
  cases act with
  | sow id elapsed key value => exact h.sow id elapsed key value
  | flush radio urgent => exact h.flush radio urgent
  | bind acc =>
    cases bound : n.bind acc with
    | error cause => rwa [perform_bind_of_error bound]
    | ok n' =>
      obtain ⟨proper, counted⟩ := admitted (by simp [bound, Except.isOk, Except.toBool])
      rw [perform_bind_of_ok bound]
      exact h.bind bound proper counted
  | unbind id =>
    cases taken : n.unbind id with
    | none => rwa [perform_unbind_of_none taken]
    | some pair =>
      obtain ⟨acc, n'⟩ := pair
      rw [perform_unbind_of_some taken]
      exact h.unbind taken
  | signal radio signal => exact h.onSignal radio signal
  | beacon beacon => exact h.onBeacon beacon
  | nextDelay => exact h.congr rfl rfl
  | close => exact h.close

/-- Acts that are admitted keep the node in order. -/
theorem InOrder.performed (h : n.InOrder) {acts : List Act} (admitted : n.AdmitsAll acts) :
    (n.performed acts).InOrder := by
  induction acts generalizing n with
  | nil => exact h
  | cons act rest ih => exact ih (h.perform admitted.1) admitted.2

end Node
end CollectionTree
