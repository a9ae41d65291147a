import CollectionTree.Proofs.Store.Marks

/-!
# What taking in a record does to a store

`emitStep_emit` says once what can become of a candidate: it is folded into the first record about
its key, or put in front, or refused. Everything else is read off it: keys stay distinct, marks stay
where they are.
-/

namespace CollectionTree

/-! ## Jobs -/

namespace Job

/-- Folding changes the value only: the key and the marks of the stored record stay. -/
def KeepsIdentity (job : Job) : Prop :=
  ∀ r value, (job.reduce r value).key = r.key ∧ (job.reduce r value).flags = r.flags

/-- Folding keeps the key. -/
theorem KeepsIdentity.key_fold {job : Job} (h : job.KeepsIdentity) (candidate r : Record) :
    (job.fold candidate r).key = r.key := by
  unfold fold
  split
  · exact (h r candidate.value).1
  · exact (h r candidate.value).1

/-- Folding keeps whether a record is on its way. -/
theorem KeepsIdentity.isPending_fold {job : Job} (h : job.KeepsIdentity) (candidate r : Record) :
    (job.fold candidate r).isPending = r.isPending := by
  have flags := (h r candidate.value).2
  unfold fold
  split
  · simp [Record.isPending, Record.urgent, Record.mark, Flags.union, Flags.urgentOnly, flags]
  · simp [Record.isPending, flags]

/-- A folded record is urgent if one of the two was. -/
theorem KeepsIdentity.isUrgent_fold {job : Job} (h : job.KeepsIdentity) (candidate r : Record) :
    (job.fold candidate r).isUrgent = (r.isUrgent || candidate.isUrgent) := by
  have flags := (h r candidate.value).2
  unfold fold
  split
  · next urgent =>
    simp [Record.isUrgent, Record.urgent, Record.mark, Flags.union, Flags.urgentOnly] at urgent ⊢
    simp [urgent]
  · next urgent =>
    simp [Record.isUrgent, flags] at urgent ⊢
    simp [urgent]

/-- What is folded is the job's rule on the value. -/
@[simp] theorem entry_fold (job : Job) (candidate r : Record) :
    (job.fold candidate r).entry = (job.reduce r candidate.value).entry := by
  unfold fold
  split <;> rfl

end Job

namespace Store

/-- Storing a record keeps its key. -/
@[simp] theorem key_storedCopy (candidate : Record) :
    (storedCopy candidate).key = candidate.key := rfl

/-- Storing a record keeps its entry. -/
@[simp] theorem entry_storedCopy (candidate : Record) :
    (storedCopy candidate).entry = candidate.entry := rfl

/-- What was just stored is not on its way. -/
@[simp] theorem isPending_storedCopy (candidate : Record) :
    (storedCopy candidate).isPending = false := by
  simp [storedCopy, Record.isPending, Record.mark, Record.unmark, Flags.union, Flags.diff,
    Flags.storedOnly, Flags.pendingOnly]

/-- Storing a record keeps its urgency. -/
@[simp] theorem isUrgent_storedCopy (candidate : Record) :
    (storedCopy candidate).isUrgent = candidate.isUrgent := by
  simp [storedCopy, Record.isUrgent, Record.mark, Record.unmark, Flags.union, Flags.diff,
    Flags.storedOnly, Flags.pendingOnly]

/-! ## One candidate -/

/-- All that can become of a candidate. -/
inductive EmitStep (store : Store) (candidate : Record) : Except StoreError Emitted × Store → Prop
  /-- It is folded into the first record about its key. -/
  | merged {before after : List Record} {r : Record}
      (records : store.records = before ++ r :: after)
      (first : ∀ other ∈ before, other.key ≠ candidate.key) (about : r.key = candidate.key) :
      EmitStep store candidate (.ok .merged, { store with
        records := before ++ store.job.fold candidate r :: after
        counters := store.counters.addEmitted.addReduced })
  /-- A copy of it is put in front, and its bytes are charged. -/
  | inserted {ledger : Ledger} (absent : ∀ other ∈ store.records, other.key ≠ candidate.key)
      (charged : store.ledger.charge candidate.footprint = .ok ledger) :
      EmitStep store candidate (.ok .inserted, { store with
        records := storedCopy candidate :: store.records
        ledger
        counters := store.counters.addEmitted })
  /-- It is refused, and no record changes. -/
  | refused {cause : StoreError} (absent : ∀ other ∈ store.records, other.key ≠ candidate.key)
      (full : store.ledger.charge candidate.footprint = .error cause) :
      EmitStep store candidate
        (.error cause, { store with counters := store.counters.addEmitted })

private theorem modifyFirst?_eq_some {key : Bytes} {change : Record → Record}
    {records changed : List Record}
    (h : Accumulator.modifyFirst? key change records = some changed) :
    ∃ before r after, records = before ++ r :: after ∧ (∀ other ∈ before, other.key ≠ key) ∧
      r.key = key ∧ changed = before ++ change r :: after := by
  induction records generalizing changed with
  | nil => simp [Accumulator.modifyFirst?] at h
  | cons r rest ih =>
    simp only [Accumulator.modifyFirst?, Record.about, beq_iff_eq] at h
    split at h
    · next about =>
      obtain rfl := Option.some.inj h
      exact ⟨[], r, rest, rfl, by simp, about, rfl⟩
    · next other =>
      obtain ⟨changed, found, rfl⟩ := Option.map_eq_some_iff.1 h
      obtain ⟨before, s, after, rfl, first, about, rfl⟩ := ih found
      refine ⟨r :: before, s, after, rfl, ?_, about, rfl⟩
      simpa using ⟨other, first⟩

private theorem modifyFirst?_eq_none {key : Bytes} {change : Record → Record}
    {records : List Record}
    (h : Accumulator.modifyFirst? key change records = none) : ∀ r ∈ records, r.key ≠ key := by
  have none := Accumulator.modifyFirst?_isSome_iff key change records
  rw [h] at none
  intro r hr about
  simpa using none.2 ⟨r, hr, about⟩

/-- Emitting does what is said of it. -/
theorem emitStep_emit (store : Store) (candidate : Record) :
    EmitStep store candidate (store.emit candidate) := by
  unfold emit
  cases found : Accumulator.modifyFirst? candidate.key (store.job.fold candidate)
      store.records with
  | some records =>
    obtain ⟨before, r, after, split, first, about, rfl⟩ := modifyFirst?_eq_some found
    exact .merged split first about
  | none =>
    have absent := modifyFirst?_eq_none found
    cases charged : store.ledger.charge candidate.footprint with
    | ok ledger => exact .inserted absent charged
    | error cause => exact .refused absent charged

/-- Keys stay distinct. -/
theorem nodup_keys_emit {store : Store} (keeps : store.job.KeepsIdentity)
    (h : (store.records.map Record.key).Nodup) (candidate : Record) :
    ((store.emit candidate).2.records.map Record.key).Nodup := by
  have step := emitStep_emit store candidate
  generalize store.emit candidate = outcome at step ⊢
  cases step with
  | merged records first about =>
    rw [records] at h
    simpa [keeps.key_fold] using h
  | inserted absent charged =>
    simp only [List.map_cons, List.nodup_cons, key_storedCopy]
    refine ⟨?_, h⟩
    intro mem
    obtain ⟨r, hr, about⟩ := List.mem_map.1 mem
    exact absent r hr about
  | refused absent full => exact h

/-- The keys on their way stay the same, in the same order. -/
theorem keys_pending_emit {store : Store} (keeps : store.job.KeepsIdentity) (candidate : Record) :
    (Accumulator.pending (store.emit candidate).2.records).map Record.key =
      (Accumulator.pending store.records).map Record.key := by
  have step := emitStep_emit store candidate
  generalize store.emit candidate = outcome at step ⊢
  cases step with
  | merged records first about =>
    simp only [records, Accumulator.pending, List.filter_append, List.filter_cons,
      keeps.isPending_fold, List.map_append]
    split <;> simp [keeps.key_fold]
  | inserted absent charged => simp [Accumulator.pending]
  | refused absent full => rfl

/-- The keys held afterwards are those from before and, unless it was refused, the candidate's. -/
theorem mem_keys_emit {store : Store} (keeps : store.job.KeepsIdentity) {candidate : Record}
    {key : Bytes} :
    key ∈ (store.emit candidate).2.records.map Record.key ↔
      key ∈ store.records.map Record.key ∨
        (store.emit candidate).1.isOk = true ∧ key = candidate.key := by
  have step := emitStep_emit store candidate
  generalize store.emit candidate = outcome at step ⊢
  cases step with
  | @merged before after r records first about =>
    have held : candidate.key ∈ store.records.map Record.key := by simp [records, about]
    have same : (before ++ store.job.fold candidate r :: after).map Record.key =
        store.records.map Record.key := by simp [records, keeps.key_fold]
    rw [same]
    exact ⟨.inl, fun h ↦ h.elim id fun new ↦ new.2 ▸ held⟩
  | inserted absent charged => simp [Except.isOk, Except.toBool, or_comm]
  | refused absent full => simp [Except.isOk, Except.toBool]

/-- A property of records that folding keeps and the stored candidate has stays with all records. -/
theorem forall_mem_emit {store : Store} {candidate : Record} {P : Record → Prop}
    (fold : ∀ r, P r → r.key = candidate.key → P (store.job.fold candidate r))
    (stored : P (storedCopy candidate)) (h : ∀ r ∈ store.records, P r) :
    ∀ r ∈ (store.emit candidate).2.records, P r := by
  have step := emitStep_emit store candidate
  generalize store.emit candidate = outcome at step ⊢
  cases step with
  | @merged before after r records first about =>
    rw [records] at h
    intro s hs
    rcases List.mem_append.1 hs with hs | hs
    · exact h s (by simp [hs])
    · rcases List.mem_cons.1 hs with rfl | hs
      · exact fold r (h r (by simp)) about
      · exact h s (by simp [hs])
  | inserted absent charged =>
    intro s hs
    rcases List.mem_cons.1 hs with rfl | hs
    · exact stored
    · exact h s hs
  | refused absent full => exact h

/-! ## Candidates in order -/

/-- What every candidate keeps, all of them keep. -/
theorem emitAll_induction {P : Store → Prop} (candidates : List Record)
    (step : ∀ store, P store → ∀ c ∈ candidates, P (store.emit c).2) (store : Store)
    (h : P store) : P (store.emitAll candidates).2 := by
  induction candidates generalizing store with
  | nil => exact h
  | cons c rest ih =>
    exact ih (fun s hs d hd ↦ step s hs d (by simp [hd])) _ (step store h c (by simp))

/-- Taking candidates in keeps the id. -/
@[simp] theorem id_emitAll (store : Store) (candidates : List Record) :
    (store.emitAll candidates).2.id = store.id :=
  emitAll_induction (P := fun s ↦ s.id = store.id) candidates (fun s h c _ ↦ by simpa using h)
    store rfl

/-- Taking candidates in keeps the job. -/
@[simp] theorem job_emitAll (store : Store) (candidates : List Record) :
    (store.emitAll candidates).2.job = store.job :=
  emitAll_induction (P := fun s ↦ s.job = store.job) candidates (fun s h c _ ↦ by simpa using h)
    store rfl

/-- Taking candidates in keeps keys distinct. -/
theorem nodup_keys_emitAll (store : Store) (keeps : store.job.KeepsIdentity)
    (h : (store.records.map Record.key).Nodup) (candidates : List Record) :
    ((store.emitAll candidates).2.records.map Record.key).Nodup := by
  have both := emitAll_induction
    (P := fun s ↦ s.job = store.job ∧ (s.records.map Record.key).Nodup) candidates
    (fun s hs c _ ↦ ⟨by simpa using hs.1, nodup_keys_emit (hs.1 ▸ keeps) hs.2 c⟩) store ⟨rfl, h⟩
  exact both.2

/-- Taking candidates in keeps the keys on their way. -/
theorem keys_pending_emitAll (store : Store) (keeps : store.job.KeepsIdentity)
    (candidates : List Record) :
    (Accumulator.pending (store.emitAll candidates).2.records).map Record.key =
      (Accumulator.pending store.records).map Record.key := by
  have both := emitAll_induction
    (P := fun s ↦ s.job = store.job ∧ (Accumulator.pending s.records).map Record.key =
      (Accumulator.pending store.records).map Record.key) candidates
    (fun s hs c _ ↦ ⟨by simpa using hs.1, (keys_pending_emit (hs.1 ▸ keeps) c).trans hs.2⟩)
    store ⟨rfl, rfl⟩
  exact both.2

/-- What holds of stored copies and is kept by folding holds of all records. -/
theorem forall_mem_emitAll {store : Store} {candidates : List Record} {P : Record → Prop}
    (fold : ∀ c ∈ candidates, ∀ r, P r → r.key = c.key → P (store.job.fold c r))
    (stored : ∀ c ∈ candidates, P (storedCopy c)) (h : ∀ r ∈ store.records, P r) :
    ∀ r ∈ (store.emitAll candidates).2.records, P r := by
  have both := emitAll_induction
    (P := fun s ↦ s.job = store.job ∧ ∀ r ∈ s.records, P r) candidates
    (fun s hs c hc ↦ ⟨by simpa using hs.1,
      forall_mem_emit (hs.1 ▸ fold c hc) (stored c hc) hs.2⟩) store ⟨rfl, h⟩
  exact both.2

/-- The candidates that are not refused when they are taken in, in order. -/
def accepted (store : Store) : List Record → List Record
  | [] => []
  | candidate :: rest =>
    if (store.emit candidate).1.isOk then candidate :: (store.emit candidate).2.accepted rest
    else (store.emit candidate).2.accepted rest

/-- The candidates that are taken in come in their order. -/
theorem accepted_sublist (store : Store) (candidates : List Record) :
    (store.accepted candidates).Sublist candidates := by
  induction candidates generalizing store with
  | nil => exact List.Sublist.refl _
  | cons c rest ih =>
    rw [accepted]
    split
    · exact (ih _).cons_cons c
    · exact (ih _).cons c

/-- What is taken in was offered. -/
theorem mem_of_mem_accepted {store : Store} {candidates : List Record} {c : Record}
    (h : c ∈ store.accepted candidates) : c ∈ candidates :=
  (store.accepted_sublist candidates).subset h

/-- The keys held afterwards are those from before and those of the candidates not refused. -/
theorem mem_keys_emitAll {store : Store} (keeps : store.job.KeepsIdentity)
    {candidates : List Record} {key : Bytes} :
    key ∈ (store.emitAll candidates).2.records.map Record.key ↔
      key ∈ store.records.map Record.key ∨ key ∈ (store.accepted candidates).map Record.key := by
  induction candidates generalizing store with
  | nil => simp [emitAll, accepted]
  | cons c rest ih =>
    have later : (store.emit c).2.job.KeepsIdentity := by simpa using keeps
    rw [emitAll, accepted, ih later, mem_keys_emit keeps]
    by_cases taken : (store.emit c).1.isOk = true <;> simp [taken, or_assoc]

/-- An accumulator after it took in a candidate that was not refused. -/
def absorb (acc : Accumulator) (candidate : Record) : Accumulator :=
  match Accumulator.modifyFirst? candidate.key (acc.job.fold candidate) acc.records with
  | some records => { acc with records }
  | none => { acc with records := storedCopy candidate :: acc.records }

private theorem toAccumulator_emit (store : Store) (candidate : Record) :
    (store.emit candidate).2.toAccumulator =
      if (store.emit candidate).1.isOk then absorb store.toAccumulator candidate
      else store.toAccumulator := by
  unfold emit absorb
  cases found : Accumulator.modifyFirst? candidate.key (store.job.fold candidate)
      store.records with
  | some records => rfl
  | none => cases store.ledger.charge candidate.footprint <;> rfl

/-- Of the ledger, the records see only which candidates it refuses. -/
theorem toAccumulator_emitAll (store : Store) (candidates : List Record) :
    (store.emitAll candidates).2.toAccumulator =
      (store.accepted candidates).foldl absorb store.toAccumulator := by
  induction candidates generalizing store with
  | nil => rfl
  | cons c rest ih =>
    rw [emitAll, accepted, ih, toAccumulator_emit]
    by_cases taken : (store.emit c).1.isOk = true <;> simp [taken]

/-- A refused candidate leaves the records alone. -/
theorem emit_of_refused {store : Store} {candidate : Record}
    (refused : ¬(store.emit candidate).1.isOk = true) :
    (store.emit candidate).2.records = store.records := by
  have same := toAccumulator_emit store candidate
  rw [if_neg refused] at same
  exact congrArg Accumulator.records same

end Store

end CollectionTree
