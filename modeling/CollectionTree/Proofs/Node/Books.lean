import CollectionTree.Proofs.Node.Sending
import CollectionTree.Proofs.Store.Books
import Mathlib.Algebra.Order.BigOperators.Group.List

/-!
# The ledger of a node

The accumulators of a node are charged to one ledger, which holds what all their records cost
together. Every turn finds the others' share in it and leaves that share alone.
-/

namespace CollectionTree

namespace Node

variable {shapes : UInt8 → Shape} {n : Node}

/-- All records are tidy, and the ledger, which has no cap, holds what they cost. -/
structure Books (shapes : UInt8 → Shape) (n : Node) : Prop where
  tidy : ∀ acc ∈ n.accumulators, Tidy (shapes acc.id) acc.records
  charged : n.ledger.allocated = (n.accumulators.map Accumulator.footprint).sum
  unlimited : n.ledger.limit = none

/-- What an operation does to an accumulator at its turn leaves the others' share alone. -/
def Settled (shapes : UInt8 → Shape) (operation : Store → Store) (acc : Accumulator) : Prop :=
  ∀ ledger counters others,
    Store.Balanced { toAccumulator := acc, ledger, counters } (shapes acc.id) others →
      (operation { toAccumulator := acc, ledger, counters }).id = acc.id ∧
        (operation { toAccumulator := acc, ledger, counters }).Balanced (shapes acc.id) others

/-- At its turn an accumulator finds the others' share in the ledger: what those before it cost now,
and what those behind it cost still. -/
theorem balanced_turn {acc : Accumulator} {rest : List Accumulator} {ledger : Ledger} {before : Nat}
    (tidy : Tidy (shapes acc.id) acc.records)
    (charged : ledger.allocated = before + ((acc :: rest).map Accumulator.footprint).sum)
    (unlimited : ledger.limit = none) (counters : Counters) :
    Store.Balanced ⟨acc, ledger, counters⟩ (shapes acc.id)
      (before + (rest.map Accumulator.footprint).sum) := by
  rw [List.map_cons, List.sum_cons] at charged
  exact ⟨tidy, by simp only; omega, unlimited⟩

private theorem books_runEach {operation : Store → Store} {accs : List Accumulator}
    (ledger : Ledger) (counters : Counters) (before : Nat)
    (settled : ∀ acc ∈ accs, Settled shapes operation acc)
    (tidy : ∀ acc ∈ accs, Tidy (shapes acc.id) acc.records)
    (charged : ledger.allocated = before + (accs.map Accumulator.footprint).sum)
    (unlimited : ledger.limit = none) :
    (∀ acc ∈ (runEach operation ledger counters accs).1, Tidy (shapes acc.id) acc.records) ∧
      (runEach operation ledger counters accs).2.1.allocated = before +
        ((runEach operation ledger counters accs).1.map Accumulator.footprint).sum ∧
      (runEach operation ledger counters accs).2.1.limit = none := by
  induction accs generalizing ledger counters before with
  | nil => exact ⟨tidy, charged, unlimited⟩
  | cons acc rest ih =>
    have found := balanced_turn (tidy acc List.mem_cons_self) charged unlimited counters
    obtain ⟨id, after⟩ := settled acc List.mem_cons_self _ _ _ found
    simp only [runEach]
    generalize operation ⟨acc, ledger, counters⟩ = store at id after ⊢
    obtain ⟨tidy', sum, limit⟩ := ih store.ledger store.counters
      (store.toAccumulator.footprint + before)
      (fun a ha ↦ settled a (List.mem_cons_of_mem _ ha))
      (fun a ha ↦ tidy a (List.mem_cons_of_mem _ ha))
      (after.charged.trans (Nat.add_assoc ..).symm) after.unlimited
    refine ⟨?_, ?_, limit⟩
    · intro a ha
      rcases List.mem_cons.1 ha with rfl | ha
      · rw [id]
        exact after.tidy
      · exact tidy' a ha
    · rw [sum, List.map_cons, List.sum_cons]
      omega

namespace Books

variable (h : n.Books shapes)

include h

/-- Books depend on accumulators and ledger alone. -/
theorem congr {n' : Node} (accumulators : n'.accumulators = n.accumulators)
    (ledger : n'.ledger = n.ledger) : n'.Books shapes := by
  constructor
  · rw [accumulators]
    exact h.tidy
  · rw [accumulators, ledger]
    exact h.charged
  · rw [ledger]
    exact h.unlimited

/-- All records for an id have the lengths for that id. -/
theorem fits_recordsFor (id : UInt8) : ∀ r ∈ n.recordsFor id, (shapes id).Fits r.entry := by
  intro r hr
  obtain ⟨acc, hacc, rfl, mem⟩ := exists_of_mem_recordsFor hr
  exact (h.tidy acc hacc).fits r mem

/-- No key is held twice for an id. -/
theorem nodup_recordsFor (id : UInt8) : ((n.recordsFor id).map Record.key).Nodup := by
  cases bound : n.accumulator? id with
  | none => simp [recordsFor, bound]
  | some acc =>
    obtain ⟨hacc, rfl⟩ := n.mem_accumulators_of_accumulator? bound
    simpa [recordsFor, bound] using (h.tidy acc hacc).nodup

/-- Marks cost nothing. -/
theorem of_map {n' : Node} {change : Accumulator → Accumulator}
    (accumulators : n'.accumulators = n.accumulators.map change) (ledger : n'.ledger = n.ledger)
    (id : ∀ acc, (change acc).id = acc.id)
    (entries : ∀ acc, (change acc).records.map Record.entry = acc.records.map Record.entry) :
    n'.Books shapes := by
  constructor
  · intro acc hacc
    rw [accumulators] at hacc
    obtain ⟨old, hold, rfl⟩ := List.mem_map.1 hacc
    rw [id]
    exact (h.tidy old hold).of_map_entry_eq (entries old)
  · rw [accumulators, ledger, List.map_map, h.charged]
    exact congrArg List.sum
      (List.map_congr_left fun acc _ ↦ (Record.footprints_congr (entries acc)).symm)
  · rw [ledger]
    exact h.unlimited

private theorem onEach {operation : Store → Store}
    (settled : ∀ acc ∈ n.accumulators, Settled shapes operation acc) :
    (n.onEach operation).Books shapes := by
  obtain ⟨tidy, charged, limit⟩ := books_runEach n.ledger n.counters 0 settled h.tidy
    (h.charged.trans (Nat.zero_add _).symm) h.unlimited
  exact ⟨tidy, charged.trans (Nat.zero_add _), limit⟩

/-- Every turn finds the others' share in the ledger, which is what they can cost at most. -/
theorem balanced_of_mem_turns {operation : Store → Store}
    (settled : ∀ acc ∈ n.accumulators, Settled shapes operation acc) :
    ∀ store ∈ n.turns operation, ∃ others, store.Balanced (shapes store.id) others ∧
      others + (shapes store.id).most ≤
        (n.accumulators.map fun acc ↦ (shapes acc.id).most).sum := by
  have from' {accs : List Accumulator} (ledger : Ledger) (counters : Counters) {before most : Nat}
      (settled : ∀ acc ∈ accs, Settled shapes operation acc)
      (tidy : ∀ acc ∈ accs, Tidy (shapes acc.id) acc.records)
      (charged : ledger.allocated = before + (accs.map Accumulator.footprint).sum)
      (unlimited : ledger.limit = none)
      (room : before + (accs.map fun acc ↦ (shapes acc.id).most).sum ≤ most) :
      ∀ store ∈ turnsFrom operation ledger counters accs, ∃ others,
        store.Balanced (shapes store.id) others ∧ others + (shapes store.id).most ≤ most := by
    induction accs generalizing ledger counters before with
    | nil => exact fun _ mem ↦ nomatch mem
    | cons acc rest ih =>
      rw [List.map_cons, List.sum_cons] at room
      have own : acc.footprint ≤ (shapes acc.id).most := (tidy acc List.mem_cons_self).footprint_le
      have behind : (rest.map Accumulator.footprint).sum ≤
          (rest.map fun acc ↦ (shapes acc.id).most).sum := by
        apply List.sum_le_sum
        exact fun a ha ↦ (tidy a (List.mem_cons_of_mem _ ha)).footprint_le
      have found := balanced_turn (tidy acc List.mem_cons_self) charged unlimited counters
      obtain ⟨id, after⟩ := settled acc List.mem_cons_self _ _ _ found
      intro store mem
      rcases List.mem_cons.1 mem with rfl | mem
      · exact ⟨_, found, by simp only; omega⟩
      · generalize operation ⟨acc, ledger, counters⟩ = next at id after mem
        have cost : next.toAccumulator.footprint ≤ (shapes acc.id).most := after.tidy.footprint_le
        have shares : next.ledger.allocated =
            (next.toAccumulator.footprint + before) + (rest.map Accumulator.footprint).sum :=
          after.charged.trans (Nat.add_assoc ..).symm
        exact ih next.ledger next.counters (fun a ha ↦ settled a (List.mem_cons_of_mem _ ha))
          (fun a ha ↦ tidy a (List.mem_cons_of_mem _ ha)) shares after.unlimited (by omega) store
          mem
  exact from' n.ledger n.counters settled h.tidy (h.charged.trans (Nat.zero_add _).symm)
    h.unlimited (Nat.le_of_eq (Nat.zero_add _))

/-- Cleaning up keeps the books. -/
theorem cleanup (flags : Flags) : (n.cleanup flags).Books shapes :=
  h.onEach fun _ _ _ _ _ found ↦ ⟨rfl, found.cleanup flags⟩

/-- Releasing what is on its way keeps the books. -/
theorem releasePending : n.releasePending.Books shapes :=
  h.of_map rfl rfl (fun _ ↦ rfl) fun acc ↦ by simp [Accumulator.releasePending]

/-- Marking records keeps the books, whatever is drawn meanwhile. -/
theorem markAll (urgent : Bool) (entries : UInt8 → List Wire.Entry) (gate : Gate)
    (source : Source) :
    Books shapes { n with
      gate, source, accumulators := Node.markAll urgent entries n.accumulators } :=
  h.of_map rfl rfl (fun _ ↦ rfl) fun _ ↦ Accumulator.map_entry_markReady ..

/-- Receiving entries of the right lengths keeps the books. -/
theorem receive (shaped : ∀ acc ∈ n.accumulators, acc.job.Shaped (shapes acc.id))
    {payload : Bytes} (fits : ∀ id, ∀ e ∈ Wire.entriesFor payload id, (shapes id).Fits e) :
    (n.receive payload).Books shapes := by
  rw [receive_eq]
  apply h.onEach
  intro acc hacc ledger counters others found
  refine ⟨Store.id_taking .., found.emitAll (shaped acc hacc) ?_⟩
  exact Store.forall_mem_arrivals (fits acc.id)

/-- A fact of the right lengths keeps the books. -/
theorem sow {id : UInt8} {elapsed : Nat} {key value : Bytes}
    (shaped : ∀ acc ∈ n.accumulators, acc.job.Shaped (shapes acc.id))
    (fits : ∀ acc ∈ n.accumulators, acc.id = id → ∀ c ∈ acc.job.map elapsed key value,
      (shapes id).Fits c.entry) :
    (n.sow id elapsed key value).2.Books shapes := by
  have step := n.sown_sow id elapsed key value
  generalize (n.sow id elapsed key value).2 = n' at step ⊢
  cases step with
  | unbound missing => exact h
  | @taken store _ found bindings here elsewhere rest =>
    obtain ⟨acc, bound, rfl⟩ := Option.map_eq_some_iff.1 found
    obtain ⟨before, after, split, rfl⟩ := rest
    obtain ⟨hacc, rfl⟩ := n.mem_accumulators_of_accumulator? bound
    have charged := h.charged
    rw [split, List.map_append, List.map_cons, List.sum_append, List.sum_cons] at charged
    have found : Store.Balanced ⟨acc, n.ledger, n.counters.addMapped⟩ (shapes acc.id)
        ((before.map Accumulator.footprint).sum + (after.map Accumulator.footprint).sum) :=
      ⟨h.tidy acc hacc, by simp only at charged ⊢; omega, h.unlimited⟩
    have sown := found.emitAll (shaped acc hacc) (fits acc hacc rfl)
    have charged' := sown.charged
    refine ⟨?_, ?_, sown.unlimited⟩
    · intro other hother
      rcases List.mem_append.1 hother with hother | hother
      · exact h.tidy other (by simp [split, hother])
      · rcases List.mem_cons.1 hother with rfl | hother
        · rw [id_sow]
          exact sown.tidy
        · exact h.tidy other (by simp [split, hother])
    · rw [List.map_append, List.map_cons, List.sum_append, List.sum_cons]
      simp only [Store.sow] at charged' ⊢
      omega

end Books
end Node
end CollectionTree
