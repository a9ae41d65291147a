import CollectionTree.Node.Basic
import CollectionTree.Proofs.Store.Feed

/-!
# What steps do to single accumulators

A node's accumulators take turns with one ledger. `turns` lists each of them as it is when its turn
comes, so that whatever a node does to all of its accumulators is read off one at a time. The view
by id is `recordsFor`; `bindings` is what no step of a node changes.
-/

namespace CollectionTree
namespace Node

/-- Each accumulator with the ledger and counters that it finds when its turn comes. -/
def turnsFrom (operation : Store → Store) (ledger : Ledger) (counters : Counters) :
    List Accumulator → List Store
  | [] => []
  | acc :: rest =>
    let store : Store := { toAccumulator := acc, ledger, counters }
    store :: turnsFrom operation (operation store).ledger (operation store).counters rest

/-- Each accumulator of a node as it is when its turn comes. -/
def turns (operation : Store → Store) (n : Node) : List Store :=
  turnsFrom operation n.ledger n.counters n.accumulators

/-- What is bound: ids with their jobs, in binding order. -/
def bindings (n : Node) : List (UInt8 × Job) := n.accumulators.map fun acc ↦ (acc.id, acc.job)

/-- The records held for an id; none where nothing is bound to it. -/
def recordsFor (n : Node) (id : UInt8) : List Record :=
  ((n.accumulator? id).map (·.records)).getD []

/-- The keys on their way among the records held for an id. -/
def pendingKeys (n : Node) (id : UInt8) : List Bytes :=
  (Accumulator.pending (n.recordsFor id)).map Record.key

/-- No two accumulators are bound to one id. -/
def DistinctIds (n : Node) : Prop := (n.accumulators.map (·.id)).Nodup

/-- Every bound job leaves keys and marks alone. -/
def KeepsIdentity (n : Node) : Prop := ∀ acc ∈ n.accumulators, acc.job.KeepsIdentity

variable (n : Node) {operation : Store → Store}

/-- The turns lead past every accumulator, as it is. -/
theorem accumulators_eq_turns (operation : Store → Store) :
    n.accumulators = (n.turns operation).map (·.toAccumulator) := by
  have from' (ledger : Ledger) (counters : Counters) (accs : List Accumulator) :
      accs = (turnsFrom operation ledger counters accs).map (·.toAccumulator) := by
    induction accs generalizing ledger counters with
    | nil => rfl
    | cons acc rest ih => simp [turnsFrom, ← ih]
  exact from' ..

/-- What is done to each accumulator is done at its turn. -/
theorem accumulators_onEach (operation : Store → Store) :
    (n.onEach operation).accumulators =
      (n.turns operation).map fun store ↦ (operation store).toAccumulator := by
  have from' (ledger : Ledger) (counters : Counters) (accs : List Accumulator) :
      (runEach operation ledger counters accs).1 =
        (turnsFrom operation ledger counters accs).map
          fun store ↦ (operation store).toAccumulator := by
    induction accs generalizing ledger counters with
    | nil => rfl
    | cons acc rest ih => simp [runEach, turnsFrom, ih]
  exact from' ..

/-- What is bound stays bound if the operation keeps ids and jobs. -/
theorem bindings_onEach (keeps : ∀ store, (operation store).id = store.id ∧
    (operation store).job = store.job) : (n.onEach operation).bindings = n.bindings := by
  rw [bindings, bindings, accumulators_onEach, n.accumulators_eq_turns operation]
  simp [keeps]

/-- An id's accumulator changes from how it is found at its turn to what the operation makes of it.
-/
theorem accumulator?_onEach (keeps : ∀ store, (operation store).id = store.id) (id : UInt8) :
    (n.onEach operation).accumulator? id =
      ((n.turns operation).find? (·.id == id)).map fun store ↦ (operation store).toAccumulator := by
  have ids : ((fun acc : Accumulator ↦ acc.id == id) ∘
      fun store ↦ (operation store).toAccumulator) = fun store ↦ store.id == id := by
    funext store
    exact congrArg (· == id) (keeps store)
  rw [accumulator?, accumulators_onEach, List.find?_map, ids]

/-- The accumulator with an id is found at its turn. -/
theorem accumulator?_eq_turns (operation : Store → Store) (id : UInt8) :
    n.accumulator? id = ((n.turns operation).find? (·.id == id)).map (·.toAccumulator) := by
  rw [accumulator?, n.accumulators_eq_turns operation, List.find?_map]
  rfl

/-- The accumulator with an id as it is when its turn comes. -/
def turnFor? (operation : Store → Store) (n : Node) (id : UInt8) : Option Store :=
  (n.turns operation).find? (·.id == id)

/-- An id is bound neither before nor after, or its accumulator takes its turn. -/
theorem onEach_cases (operation : Store → Store)
    (keeps : ∀ store, (operation store).id = store.id) (id : UInt8) :
    (n.turnFor? operation id = none ∧ n.accumulator? id = none ∧
        (n.onEach operation).accumulator? id = none) ∨
      ∃ store, n.turnFor? operation id = some store ∧ store.id = id ∧
        n.accumulator? id = some store.toAccumulator ∧
        (n.onEach operation).accumulator? id = some (operation store).toAccumulator := by
  rw [n.accumulator?_eq_turns operation, n.accumulator?_onEach keeps, turnFor?]
  cases found : (n.turns operation).find? (·.id == id) with
  | none => exact .inl ⟨rfl, rfl, rfl⟩
  | some store => exact .inr ⟨store, rfl, by simpa using List.find?_some found, rfl, rfl⟩

/-- What an operation does to records whatever the ledger is, it does to those of every id. -/
theorem recordsFor_onEach (operation : Store → Store) {change : List Record → List Record}
    (keeps : ∀ store, (operation store).id = store.id)
    (records : ∀ store, (operation store).records = change store.records) (empty : change [] = [])
    (id : UInt8) : (n.onEach operation).recordsFor id = change (n.recordsFor id) := by
  rcases n.onEach_cases operation keeps id with ⟨-, before, after⟩ | ⟨store, -, -, before, after⟩
  · simp [recordsFor, before, after, empty]
  · simp [recordsFor, before, after, records]

/-- What is found for an id is bound and has that id. -/
theorem mem_accumulators_of_accumulator? {id : UInt8} {acc : Accumulator}
    (h : n.accumulator? id = some acc) : acc ∈ n.accumulators ∧ acc.id = id :=
  ⟨List.mem_of_find?_eq_some h, by simpa using List.find?_some h⟩

/-- With distinct ids an accumulator is the one found under its id. -/
theorem accumulator?_of_mem {n : Node} (distinct : n.DistinctIds) {acc : Accumulator}
    (h : acc ∈ n.accumulators) : n.accumulator? acc.id = some acc := by
  have from' {accs : List Accumulator} (distinct : (accs.map (·.id)).Nodup) (h : acc ∈ accs) :
      accs.find? (·.id == acc.id) = some acc := by
    induction accs with
    | nil => simp at h
    | cons head rest ih =>
      simp only [List.map_cons, List.nodup_cons] at distinct
      rcases List.mem_cons.1 h with rfl | h
      · simp
      · have other : head.id ≠ acc.id := by
          intro same
          exact distinct.1 (same ▸ List.mem_map.2 ⟨acc, h, rfl⟩)
        rw [List.find?_cons_of_neg (by simpa using other)]
        exact ih distinct.2 h
  exact from' distinct h

/-- Where ids are distinct a bound accumulator holds the records for its id. -/
theorem recordsFor_of_mem {n : Node} (distinct : n.DistinctIds) {acc : Accumulator}
    (h : acc ∈ n.accumulators) : n.recordsFor acc.id = acc.records := by
  simp [recordsFor, accumulator?_of_mem distinct h]

/-- What is held for an id is in an accumulator that is bound to it. -/
theorem exists_of_mem_recordsFor {n : Node} {id : UInt8} {r : Record} (mem : r ∈ n.recordsFor id) :
    ∃ acc ∈ n.accumulators, acc.id = id ∧ r ∈ acc.records := by
  cases bound : n.accumulator? id with
  | none => simp [recordsFor, bound] at mem
  | some acc =>
    obtain ⟨hacc, same⟩ := n.mem_accumulators_of_accumulator? bound
    rw [recordsFor, bound] at mem
    exact ⟨acc, hacc, same, mem⟩

/-- What is found for an id is bound with its job. -/
theorem mem_bindings_of_accumulator? {n : Node} {id : UInt8} {acc : Accumulator}
    (h : n.accumulator? id = some acc) : (id, acc.job) ∈ n.bindings := by
  obtain ⟨mem, rfl⟩ := n.mem_accumulators_of_accumulator? h
  exact List.mem_map.2 ⟨acc, mem, rfl⟩

/-- With distinct ids every id has one job. -/
theorem job_unique {n : Node} (distinct : n.DistinctIds) {id : UInt8} {job job' : Job}
    (bound : (id, job) ∈ n.bindings) (bound' : (id, job') ∈ n.bindings) : job' = job := by
  obtain ⟨acc, mem, same⟩ := List.mem_map.1 bound
  obtain ⟨acc', mem', same'⟩ := List.mem_map.1 bound'
  obtain ⟨rfl, rfl⟩ := Prod.mk.inj same
  obtain ⟨ids, rfl⟩ := Prod.mk.inj same'
  have found := accumulator?_of_mem distinct mem
  rw [← ids, accumulator?_of_mem distinct mem'] at found
  rw [Option.some.inj found]

/-- Whether ids are distinct depends on the bindings. -/
theorem distinctIds_of_bindings_eq {n n' : Node} (h : n'.bindings = n.bindings) :
    n'.DistinctIds ↔ n.DistinctIds := by
  have ids (n : Node) : n.accumulators.map (·.id) = n.bindings.map Prod.fst := by
    simp [bindings, Function.comp_def]
  rw [DistinctIds, DistinctIds, ids, ids, h]

/-- Whether jobs leave keys and marks alone depends on the bindings. -/
theorem keepsIdentity_of_bindings_eq {n n' : Node} (h : n'.bindings = n.bindings) :
    n'.KeepsIdentity ↔ n.KeepsIdentity := by
  have jobs (n : Node) : n.KeepsIdentity ↔ ∀ b ∈ n.bindings, b.2.KeepsIdentity := by
    simp [KeepsIdentity, bindings]
  rw [jobs, jobs, h]

/-! ## Cleaning up and releasing -/

/-- Cleaning up binds and unbinds nothing. -/
@[simp] theorem bindings_cleanup (flags : Flags) : (n.cleanup flags).bindings = n.bindings :=
  n.bindings_onEach fun _ ↦ ⟨rfl, rfl⟩

/-- Cleaning up removes the records with the marks from every accumulator. -/
theorem accumulators_cleanup (flags : Flags) :
    (n.cleanup flags).accumulators = n.accumulators.map fun acc ↦
      { acc with records := acc.records.filter fun r ↦ !r.bears flags } := by
  rw [cleanup, accumulators_onEach,
    n.accumulators_eq_turns fun store ↦ (store.cleanup flags).2, List.map_map]
  simp [Store.cleanup, List.partition_eq_filter_filter, Function.comp_def]

/-- Cleaning up removes the records with the marks for every id. -/
theorem recordsFor_cleanup (flags : Flags) (id : UInt8) :
    (n.cleanup flags).recordsFor id = (n.recordsFor id).filter fun r ↦ !r.bears flags :=
  n.recordsFor_onEach (fun store ↦ (store.cleanup flags).2) (fun _ ↦ rfl)
    (fun store ↦ by simp [Store.cleanup, List.partition_eq_filter_filter, Function.comp_def]) rfl id

/-- Releasing binds and unbinds nothing. -/
@[simp] theorem bindings_releasePending : n.releasePending.bindings = n.bindings := by
  simp [releasePending, bindings, Accumulator.releasePending]

/-- Releasing takes the marks of records on their way back. -/
theorem recordsFor_releasePending (id : UInt8) :
    n.releasePending.recordsFor id = (n.recordsFor id).map (·.unmark .pendingOnly) := by
  have found : n.releasePending.accumulator? id =
      (n.accumulator? id).map Accumulator.releasePending := by
    rw [accumulator?, releasePending, List.find?_map]
    rfl
  cases bound : n.accumulator? id with
  | none => simp [recordsFor, found, bound]
  | some acc => simp [recordsFor, found, bound, Accumulator.releasePending]

/-- Once the records on their way were removed no key is. -/
@[simp] theorem pendingKeys_cleanup_pending (id : UInt8) :
    (n.cleanup .pendingOnly).pendingKeys id = [] := by
  simp [pendingKeys, recordsFor_cleanup, Accumulator.pending]

/-- Once they were released no key is on its way. -/
@[simp] theorem pendingKeys_releasePending (id : UInt8) : n.releasePending.pendingKeys id = [] := by
  simp [pendingKeys, recordsFor_releasePending, Accumulator.pending]

/-! ## Taking in -/

/-- The records of an id stay as they are, or its accumulator takes candidates in. -/
inductive Took (n : Node) (id : UInt8) (n' : Node) : Prop
  | nothing (same : n'.recordsFor id = n.recordsFor id)
  | candidates (store : Store) (candidates : List Record)
      (found : n.accumulator? id = some store.toAccumulator)
      (records : n'.recordsFor id = (store.emitAll candidates).2.records)

/-- Whatever is taken in, the keys on their way stay the same. -/
theorem Took.pendingKeys_eq {n n' : Node} {id : UInt8} (h : n.Took id n')
    (keeps : n.KeepsIdentity) : n'.pendingKeys id = n.pendingKeys id := by
  cases h with
  | nothing same => rw [pendingKeys, same, pendingKeys]
  | candidates store candidates found records =>
    have before : n.recordsFor id = store.records := by simp [recordsFor, found]
    have keeps := keeps _ (n.mem_accumulators_of_accumulator? found).1
    rw [pendingKeys, pendingKeys, records, before]
    exact Store.keys_pending_emitAll store keeps candidates

/-- Whatever is taken in, distinct keys stay distinct. -/
theorem Took.nodup {n n' : Node} {id : UInt8} (h : n.Took id n') (keeps : n.KeepsIdentity)
    (nodup : ((n.recordsFor id).map Record.key).Nodup) :
    ((n'.recordsFor id).map Record.key).Nodup := by
  cases h with
  | nothing same => rwa [same]
  | candidates store candidates found records =>
    have before : n.recordsFor id = store.records := by simp [recordsFor, found]
    have keeps := keeps _ (n.mem_accumulators_of_accumulator? found).1
    rw [before] at nodup
    rw [records]
    exact Store.nodup_keys_emitAll store keeps nodup candidates

/-! ## Taking in frames -/

/-- Every accumulator takes in what the payload carries for it. -/
theorem receive_eq (payload : Bytes) : n.receive payload = n.onEach (Store.taking payload) := by
  unfold receive
  split
  · next cause unreadable =>
    have none (store : Store) : store.taking payload = store :=
      Store.taking_of_entriesFor_eq_nil (by simp [Wire.entriesFor, unreadable])
    have same (ledger : Ledger) (counters : Counters) (accs : List Accumulator) :
        runEach (Store.taking payload) ledger counters accs = (accs, ledger, counters) := by
      induction accs with
      | nil => rfl
      | cons acc rest ih => simp [runEach, none, ih]
    simp [onEach, same]
  · next frame parsed =>
    congr 1
    funext store
    exact store.feed_segmentFor parsed

/-- Receiving binds and unbinds nothing. -/
@[simp] theorem bindings_receive (payload : Bytes) : (n.receive payload).bindings = n.bindings := by
  rw [receive_eq]
  exact n.bindings_onEach fun store ↦ ⟨by simp, by simp⟩

/-- Receiving leaves the node where it stands. -/
@[simp] theorem gradient_receive (payload : Bytes) :
    (n.receive payload).gradient = n.gradient := by
  rw [receive_eq]
  rfl

/-- Receiving neither opens nor closes the node. -/
@[simp] theorem closed_receive (payload : Bytes) : (n.receive payload).closed = n.closed := by
  rw [receive_eq]
  rfl

/-- Receiving has every accumulator take in what is for it. -/
theorem took_receive (payload : Bytes) (id : UInt8) : n.Took id (n.receive payload) := by
  rw [receive_eq]
  rcases n.onEach_cases (Store.taking payload) (Store.id_taking payload) id with
    ⟨-, before, after⟩ | ⟨store, -, -, before, after⟩
  · exact .nothing (by simp [recordsFor, before, after])
  · exact .candidates store (Store.arrivals payload store.id) before
      (by simp [recordsFor, after, Store.taking])

/-- What arrives changes no keys on their way. -/
theorem pendingKeys_receive {n : Node} (keeps : n.KeepsIdentity) (payload : Bytes) (id : UInt8) :
    (n.receive payload).pendingKeys id = n.pendingKeys id :=
  (n.took_receive payload id).pendingKeys_eq keeps

/-! ## Sowing -/

/-- The accumulator with an id, with the node's ledger and counters. -/
def storeFor? (n : Node) (id : UInt8) : Option Store :=
  (n.accumulator? id).map fun acc ↦
    { toAccumulator := acc, ledger := n.ledger, counters := n.counters }

/-- Turns that do nothing find the node's own ledger and counters. -/
theorem turnFor?_id (n : Node) (owner : UInt8) : n.turnFor? id owner = n.storeFor? owner := by
  have from' (accs : List Accumulator) : turnsFrom id n.ledger n.counters accs =
      accs.map fun acc ↦ ⟨acc, n.ledger, n.counters⟩ := by
    induction accs with
    | nil => rfl
    | cons acc rest ih => simp [turnsFrom, ih]
  rw [turnFor?, turns, from', List.find?_map, storeFor?]
  rfl

/-- All that can become of a fact: nothing where its id is not bound, and otherwise the accumulator
with the id takes it in while the others stay as they are. -/
inductive Sown (n : Node) (id : UInt8) (elapsed : Nat) (key value : Bytes) : Node → Prop
  | unbound (missing : n.accumulator? id = none) : Sown n id elapsed key value n
  | taken {store : Store} {n' : Node} (found : n.storeFor? id = some store)
      (bindings : n'.bindings = n.bindings)
      (here : n'.accumulator? id = some (store.sow elapsed key value).2.toAccumulator)
      (elsewhere : ∀ other, other ≠ id → n'.accumulator? other = n.accumulator? other)
      (rest : ∃ before after, n.accumulators = before ++ store.toAccumulator :: after ∧
        n' = { n with
          accumulators := before ++ (store.sow elapsed key value).2.toAccumulator :: after
          ledger := (store.sow elapsed key value).2.ledger
          counters := (store.sow elapsed key value).2.counters }) :
      Sown n id elapsed key value n'

/-- A fact keeps the id of a store. -/
@[simp] theorem id_sow (store : Store) (elapsed : Nat) (key value : Bytes) :
    (store.sow elapsed key value).2.id = store.id := by
  simp [Store.sow]

/-- A fact keeps the job of a store. -/
@[simp] theorem job_sow (store : Store) (elapsed : Nat) (key value : Bytes) :
    (store.sow elapsed key value).2.job = store.job := by
  simp [Store.sow]

/-- An operation runs on the first accumulator with an id, and on none where there is no such. -/
theorem runFirst?_cases {α : Type} (id : UInt8) (operation : Store → α × Store) (ledger : Ledger)
    (counters : Counters) (accs : List Accumulator) :
    (runFirst? id operation ledger counters accs = none ∧ accs.find? (·.id == id) = none) ∨
      ∃ before acc after, accs = before ++ acc :: after ∧ acc.id = id ∧
        (∀ other ∈ before, other.id ≠ id) ∧
        runFirst? id operation ledger counters accs =
          some ((operation ⟨acc, ledger, counters⟩).1,
            before ++ (operation ⟨acc, ledger, counters⟩).2.toAccumulator :: after,
            (operation ⟨acc, ledger, counters⟩).2.ledger,
            (operation ⟨acc, ledger, counters⟩).2.counters) := by
  induction accs with
  | nil => exact .inl ⟨rfl, rfl⟩
  | cons head rest ih =>
    by_cases named : head.id = id
    · exact .inr ⟨[], head, rest, rfl, named, by simp, by simp [runFirst?, named]⟩
    · rcases ih with ⟨none, missing⟩ | ⟨before, acc, after, rfl, named', first, run⟩
      · exact .inl ⟨by simp [runFirst?, named, none], by simp [named, missing]⟩
      · exact .inr ⟨head :: before, acc, after, rfl, named', by simpa using ⟨named, first⟩,
          by simp [runFirst?, named, run]⟩

/-- Replacing the first accumulator with an id by one with the same id changes what is found under
that id only. -/
theorem find?_replace {before after : List Accumulator} {acc acc' : Accumulator} {id : UInt8}
    (first : ∀ other ∈ before, other.id ≠ id) (named : acc.id = id) (named' : acc'.id = id)
    (other : UInt8) :
    (before ++ acc' :: after).find? (·.id == other) =
      if other = id then some acc' else (before ++ acc :: after).find? (·.id == other) := by
  by_cases same : other = id
  · subst same
    have none : before.find? (·.id == other) = none := by
      rw [List.find?_eq_none]
      simpa using first
    simp [none, named']
  · have differ : (id == other) = false := beq_false_of_ne fun h ↦ same h.symm
    simp [List.find?_append, named, named', same, differ]

/-- A fact does what is said of it. -/
theorem sown_sow (id : UInt8) (elapsed : Nat) (key value : Bytes) :
    Sown n id elapsed key value (n.sow id elapsed key value).2 := by
  unfold sow onStore?
  rcases runFirst?_cases id (·.sow elapsed key value) n.ledger n.counters n.accumulators with
    ⟨none, missing⟩ | ⟨before, acc, after, split, named, first, run⟩
  · simp only [none, Option.map_none]
    exact .unbound missing
  · have found : n.accumulator? id = some acc := by
      rw [accumulator?, split, find?_replace first named named]
      simp
    simp only [run, Option.map_some]
    have store : n.storeFor? id = some ⟨acc, n.ledger, n.counters⟩ := by simp [storeFor?, found]
    refine .taken store ?_ ?_ ?_ ⟨before, after, split, rfl⟩
    · simp [bindings, split]
    · rw [accumulator?, find?_replace first named (by simpa using named), if_pos rfl]
    · intro other differ
      rw [accumulator?, accumulator?, split, find?_replace first named (by simpa using named),
        if_neg differ]

/-- A fact binds and unbinds nothing. -/
@[simp] theorem bindings_sow (id : UInt8) (elapsed : Nat) (key value : Bytes) :
    (n.sow id elapsed key value).2.bindings = n.bindings := by
  have step := n.sown_sow id elapsed key value
  generalize (n.sow id elapsed key value).2 = n' at step ⊢
  cases step with
  | unbound missing => rfl
  | taken found bindings here elsewhere rest => exact bindings

/-- A fact for one job leaves the records of the others alone. -/
theorem recordsFor_sow_of_ne {id other : UInt8} (differ : other ≠ id) (elapsed : Nat)
    (key value : Bytes) :
    (n.sow id elapsed key value).2.recordsFor other = n.recordsFor other := by
  have step := n.sown_sow id elapsed key value
  generalize (n.sow id elapsed key value).2 = n' at step ⊢
  cases step with
  | unbound missing => rfl
  | taken found bindings here elsewhere rest =>
    rw [recordsFor, elsewhere other differ, recordsFor]

/-- A fact neither moves nor closes the node. -/
theorem sow_keeps (id : UInt8) (elapsed : Nat) (key value : Bytes) :
    (n.sow id elapsed key value).2.gradient = n.gradient ∧
      (n.sow id elapsed key value).2.closed = n.closed := by
  have step := n.sown_sow id elapsed key value
  generalize (n.sow id elapsed key value).2 = n' at step ⊢
  cases step with
  | unbound missing => exact ⟨rfl, rfl⟩
  | taken found bindings here elsewhere rest =>
    obtain ⟨before, after, -, rfl⟩ := rest
    exact ⟨rfl, rfl⟩

/-- A fact has the accumulator with its id take in what the job makes of it. -/
theorem took_sow (id : UInt8) (elapsed : Nat) (key value : Bytes) (other : UInt8) :
    n.Took other (n.sow id elapsed key value).2 := by
  have step := n.sown_sow id elapsed key value
  generalize (n.sow id elapsed key value).2 = n' at step ⊢
  cases step with
  | unbound missing => exact .nothing rfl
  | @taken store _ found bindings here elsewhere rest =>
    by_cases same : other = id
    · subst same
      obtain ⟨acc, bound, rfl⟩ := Option.map_eq_some_iff.1 found
      refine .candidates ⟨acc, n.ledger, n.counters.addMapped⟩ (acc.job.map elapsed key value)
        bound ?_
      simp only [recordsFor, here, Option.map_some, Option.getD_some]
      rfl
    · refine .nothing ?_
      rw [recordsFor, elsewhere other same, recordsFor]

/-- Facts change no keys on their way. -/
theorem pendingKeys_sow {n : Node} (keeps : n.KeepsIdentity) (id : UInt8) (elapsed : Nat)
    (key value : Bytes) (other : UInt8) :
    (n.sow id elapsed key value).2.pendingKeys other = n.pendingKeys other :=
  (n.took_sow id elapsed key value other).pendingKeys_eq keeps

/-! ## Binding -/

/-- An accumulator is bound behind the others, under an id that none of them has. -/
theorem bind_eq_ok {n n' : Node} {acc : Accumulator} (h : n.bind acc = .ok n') :
    n.accumulator? acc.id = none ∧ n' = { n with
      accumulators := n.accumulators ++ [acc]
      ledger := n.ledger.forceCharge acc.footprint } := by
  unfold bind at h
  split at h
  · cases h
  · split at h
    · cases h
    · next unbound =>
      simp only [Except.ok.injEq] at h
      exact ⟨by simpa using unbound, h.symm⟩

/-- Binding keeps ids distinct. -/
theorem distinctIds_bind {n n' : Node} {acc : Accumulator} (distinct : n.DistinctIds)
    (h : n.bind acc = .ok n') : n'.DistinctIds := by
  obtain ⟨unbound, rfl⟩ := bind_eq_ok h
  rw [accumulator?, List.find?_eq_none] at unbound
  rw [DistinctIds, List.map_append, List.nodup_append]
  refine ⟨distinct, by simp, fun id mem id' mem' same ↦ ?_⟩
  obtain ⟨other, hother, rfl⟩ := List.mem_map.1 mem
  obtain rfl : id' = acc.id := by simpa using mem'
  exact unbound other hother (by simpa using same)

/-- Binding puts the accumulator behind those that are bound. -/
theorem bindings_bind {n n' : Node} {acc : Accumulator} (bound : n.bind acc = .ok n') :
    n'.bindings = n.bindings ++ [(acc.id, acc.job)] := by
  obtain ⟨-, rfl⟩ := bind_eq_ok bound
  simp [bindings]

/-- A bound accumulator brings its records along. -/
theorem recordsFor_bind {n n' : Node} {acc : Accumulator} (bound : n.bind acc = .ok n') :
    n'.recordsFor acc.id = acc.records := by
  obtain ⟨unbound, rfl⟩ := bind_eq_ok bound
  simp only [accumulator?] at unbound
  simp [recordsFor, accumulator?, unbound]

/-- Binding keeps the records for other ids. -/
theorem recordsFor_bind_of_ne {n n' : Node} {acc : Accumulator} {id : UInt8}
    (bound : n.bind acc = .ok n') (other : acc.id ≠ id) : n'.recordsFor id = n.recordsFor id := by
  obtain ⟨-, rfl⟩ := bind_eq_ok bound
  simp [recordsFor, accumulator?, other]

/-- The first accumulator with an id is handed back, and its charge is given back. -/
theorem unbind_eq_some {n n' : Node} {acc : Accumulator} {id : UInt8}
    (h : n.unbind id = some (acc, n')) :
    ∃ before after, n.accumulators = before ++ acc :: after ∧ acc.id = id ∧
      (∀ other ∈ before, other.id ≠ id) ∧
      n' = { n with
        accumulators := before ++ after
        ledger := n.ledger.refund acc.footprint } := by
  obtain ⟨found, bound, pair⟩ := Option.map_eq_some_iff.1 h
  obtain ⟨rfl, rfl⟩ := Prod.mk.inj pair
  obtain ⟨named, before, after, split, first⟩ := List.find?_eq_some_iff_append.1 bound
  have differ : ∀ other ∈ before, other.id ≠ id := by simpa using first
  have erased : n.accumulators.eraseP (·.id == id) = before ++ after := by
    rw [split, List.eraseP_append_right _ fun other hother ↦ by simpa using differ other hother,
      List.eraseP_cons_of_pos (by simpa using named)]
  exact ⟨before, after, split, by simpa using named, differ, by rw [erased]⟩

/-- What is left after an accumulator was handed back. -/
theorem accumulators_unbind_sublist {n n' : Node} {acc : Accumulator} {id : UInt8}
    (h : n.unbind id = some (acc, n')) : n'.accumulators.Sublist n.accumulators := by
  obtain ⟨before, after, split, -, -, rfl⟩ := unbind_eq_some h
  rw [split]
  exact (List.sublist_cons_self acc after).append_left before

end Node
end CollectionTree
