import CollectionTree.Proofs.Store.Combining

/-!
# What a store knows about a key

Where the ledger refuses nothing, a store that took candidates in knows about a key the combination
of all values that it held or was offered, and that the key is urgent if one of these was
(`known_emitAll`). So the order of the candidates does not matter.
-/

namespace CollectionTree

/-! ## Ledgers that refuse nothing -/

/-- The ledger has no cap, and its count does not overflow with so many bytes more. Memory that is
addressed with 64 bits never holds enough records for that. -/
def Ledger.Counts (ledger : Ledger) (bytes : Nat) : Prop :=
  ledger.limit = none ∧ ledger.allocated + bytes < ledgerModulus

/-- A ledger that can count more can count less. -/
theorem Ledger.Counts.mono {ledger : Ledger} {bytes fewer : Nat} (h : ledger.Counts bytes)
    (le : fewer ≤ bytes) : ledger.Counts fewer :=
  ⟨h.1, by have := h.2; omega⟩

namespace Store

private theorem counts_emit {store : Store} {candidate : Record} {more : Nat}
    (h : store.ledger.Counts (candidate.footprint + more)) :
    (store.emit candidate).1.isOk = true ∧ (store.emit candidate).2.ledger.Counts more := by
  have step := emitStep_emit store candidate
  obtain ⟨uncapped, room⟩ := h
  generalize store.emit candidate = outcome at step ⊢
  cases step with
  | merged records first about => exact ⟨rfl, uncapped, by simp only; omega⟩
  | inserted absent charged =>
    obtain ⟨-, rfl⟩ := (Ledger.charge_eq_ok_iff ..).1 charged
    exact ⟨rfl, uncapped, by simp only; omega⟩
  | refused absent full =>
    have charged := (Ledger.charge_eq_ok_iff store.ledger _ candidate.footprint).2
      ⟨by rw [Ledger.cap, uncapped]; simp only [Option.getD_none]; omega, rfl⟩
    cases full.symm.trans charged

/-- A ledger that can count all candidates refuses none of them. -/
theorem counts_emitAll {store : Store} {candidates : List Record} {more : Nat}
    (h : store.ledger.Counts (Record.footprints candidates + more)) :
    store.accepted candidates = candidates ∧
      (store.emitAll candidates).2.ledger.Counts more := by
  induction candidates generalizing store with
  | nil => exact ⟨rfl, h.mono (by simp [Record.footprints])⟩
  | cons c rest ih =>
    rw [Record.footprints, Nat.add_assoc] at h
    obtain ⟨taken, left⟩ := counts_emit h
    obtain ⟨all, last⟩ := ih left
    exact ⟨by rw [accepted, if_pos taken, all], last⟩

/-- What the ledger can count is taken in. -/
theorem accepted_of_counts {store : Store} {candidates : List Record}
    (h : store.ledger.Counts (Record.footprints candidates)) :
    store.accepted candidates = candidates := by
  have exactly : store.ledger.Counts (Record.footprints candidates + 0) := h
  exact (counts_emitAll exactly).1

/-! ## Urgent keys -/

/-- Whether one of the records about a key is urgent. -/
def urgentAbout (key : Bytes) (records : List Record) : Bool :=
  records.any fun r ↦ r.about key && r.isUrgent

/-- An urgent record about a key makes it urgent. -/
theorem urgentAbout_iff {key : Bytes} {records : List Record} :
    urgentAbout key records = true ↔ ∃ r ∈ records, r.key = key ∧ r.isUrgent = true := by
  simp [urgentAbout, Record.about]

/-- A key is urgent where it is urgent in one of two lots of records. -/
theorem urgentAbout_append (key : Bytes) (records more : List Record) :
    urgentAbout key (records ++ more) = (urgentAbout key records || urgentAbout key more) :=
  List.any_append

private theorem urgentAbout_cons (key : Bytes) (r : Record) (rest : List Record) :
    urgentAbout key (r :: rest) = ((r.about key && r.isUrgent) || urgentAbout key rest) := rfl

/-- Only keys and urgency count. -/
theorem urgentAbout_congr {records others : List Record}
    (same : others.map (fun r ↦ (r.key, r.isUrgent)) = records.map fun r ↦ (r.key, r.isUrgent))
    (key : Bytes) : urgentAbout key others = urgentAbout key records := by
  have view (records : List Record) : urgentAbout key records =
      (records.map fun r ↦ (r.key, r.isUrgent)).any fun v ↦ v.1 == key && v.2 := by
    rw [List.any_map]
    rfl
  rw [view, view, same]

/-- A candidate that is not refused makes its key urgent if it is urgent. -/
theorem urgentAbout_emit {store : Store} (keeps : store.job.KeepsIdentity) {candidate : Record}
    (taken : (store.emit candidate).1.isOk = true) (key : Bytes) :
    urgentAbout key (store.emit candidate).2.records =
      (urgentAbout key store.records || (candidate.about key && candidate.isUrgent)) := by
  have step := emitStep_emit store candidate
  generalize store.emit candidate = outcome at step taken ⊢
  cases step with
  | @merged before after r records first about =>
    have same : (store.job.fold candidate r).about key = candidate.about key := by
      rw [Record.about, keeps.key_fold, about, Record.about]
    have before' : r.about key = candidate.about key := by
      rw [Record.about, about, Record.about]
    simp only [records, urgentAbout_append, urgentAbout_cons, same, before', keeps.isUrgent_fold]
    cases candidate.about key <;> simp [Bool.or_assoc, Bool.or_comm, Bool.or_left_comm]
  | inserted absent charged =>
    have same : (storedCopy candidate).about key = candidate.about key := rfl
    rw [urgentAbout_cons, same, isUrgent_storedCopy, Bool.or_comm]
  | refused absent full => cases taken

/-- What a store holds as urgent it held so before or took in so. -/
theorem urgentAbout_emitAll {store : Store} (keeps : store.job.KeepsIdentity)
    (candidates : List Record) (key : Bytes) :
    urgentAbout key (store.emitAll candidates).2.records =
      urgentAbout key (store.records ++ store.accepted candidates) := by
  induction candidates generalizing store with
  | nil => simp [emitAll, accepted]
  | cons c rest ih =>
    have keeps' : (store.emit c).2.job.KeepsIdentity := by simpa using keeps
    have later := ih keeps'
    rw [urgentAbout_append] at later ⊢
    by_cases taken : (store.emit c).1.isOk = true
    · rw [accepted, if_pos taken, urgentAbout_cons, ← Bool.or_assoc, ← urgentAbout_emit keeps taken]
      exact later
    · rw [accepted, if_neg taken, ← emit_of_refused taken]
      exact later

end Store

/-! ## Values -/

/-- What is known about a key: its value, and whether it is urgent. -/
def Accumulator.known (acc : Accumulator) (key : Bytes) : Option (Bytes × Bool) :=
  (acc.find? key).map fun r ↦ (r.value, r.isUrgent)

namespace Accumulator

variable {op : Bytes → Bytes → Bytes}

/-- Where keys are distinct, what is found about a key is all that the records say about it. -/
theorem find?_about_eq_total {records : List Record} (distinct : (records.map Record.key).Nodup)
    (op : Bytes → Bytes → Bytes) (key : Bytes) :
    (records.find? (·.about key)).map (fun r ↦ (r.value, r.isUrgent)) =
      (total op (under key (records.map Record.entry))).map fun value ↦
        (value, Store.urgentAbout key records) := by
  induction records with
  | nil => rfl
  | cons r rest ih =>
    obtain ⟨other, restDistinct⟩ := List.nodup_cons.1 distinct
    by_cases about : r.key = key
    · subst about
      have alone : ∀ s ∈ rest, s.key ≠ r.key := fun s hs same ↦
        other (same ▸ List.mem_map.2 ⟨s, hs, rfl⟩)
      have value : under r.key ((r :: rest).map Record.entry) = [r.value] := by
        simpa [under, List.filter_eq_nil_iff, Record.entry] using alone
      have marks : Store.urgentAbout r.key rest = false := by
        simpa [Store.urgentAbout, Record.about] using fun s hs same ↦ absurd same (alone s hs)
      rw [List.find?_cons_of_pos (by simp [Record.about]), value, Store.urgentAbout_cons, marks]
      simp [total, Record.about]
    · have skip : (r.about key) = false := beq_false_of_ne about
      rw [List.find?_cons_of_neg (by simp [skip]), ih restDistinct]
      simp [under, about, Store.urgentAbout_cons, skip]

/-- Where keys are distinct, a key's values are combined and its marks gathered already. -/
theorem known_eq_total {acc : Accumulator} (distinct : (acc.records.map Record.key).Nodup)
    (op : Bytes → Bytes → Bytes) (key : Bytes) :
    acc.known key = (total op (under key (acc.records.map Record.entry))).map fun value ↦
      (value, Store.urgentAbout key acc.records) :=
  find?_about_eq_total distinct op key

end Accumulator

namespace Store

variable {store : Store} {op : Bytes → Bytes → Bytes} {width : Bytes → Nat}

/-- A store knows of a key what its records and the candidates said about it. -/
theorem known_emitAll (combining : store.job.CombinesBy op width)
    (distinct : (store.records.map Record.key).Nodup)
    (wideRecords : ∀ r ∈ store.records, Wide width r.entry) {candidates : List Record}
    (wideCandidates : ∀ c ∈ candidates, Wide width c.entry)
    (counts : store.ledger.Counts (Record.footprints candidates)) (key : Bytes) :
    (store.emitAll candidates).2.known key =
      (total op (under key ((store.records ++ candidates).map Record.entry))).map fun value ↦
        (value, urgentAbout key (store.records ++ candidates)) := by
  have additive := combining.additive key
  have all := accepted_of_counts counts
  have weighs := weigh_emitAll additive wideRecords wideCandidates
  have urgent := urgentAbout_emitAll combining.keeps candidates key
  rw [all] at urgent
  rw [all, ← weigh_append] at weighs
  have wideBoth : ∀ e ∈ (store.records ++ candidates).map Record.entry, Wide width e := by
    simpa [or_imp, forall_and] using And.intro wideRecords wideCandidates
  have wideAfter : ∀ e ∈ (store.emitAll candidates).2.records.map Record.entry, Wide width e := by
    simpa using valid_emitAll additive wideRecords wideCandidates
  rw [Accumulator.known_eq_total (nodup_keys_emitAll store combining.keeps distinct candidates) op,
    total_under_eq (combining.combines key) wideAfter wideBoth weighs, urgent]

/-- The keys held afterwards are those held before and those of the candidates. -/
theorem mem_keys_emitAll_of_counts (keeps : store.job.KeepsIdentity) {candidates : List Record}
    (counts : store.ledger.Counts (Record.footprints candidates)) (key : Bytes) :
    key ∈ (store.emitAll candidates).2.records.map Record.key ↔
      key ∈ (store.records ++ candidates).map Record.key := by
  have all := accepted_of_counts counts
  rw [mem_keys_emitAll keeps, all, List.map_append, List.mem_append]

end Store
end CollectionTree
