import CollectionTree.Proofs.Store.Emission
import Mathlib.Algebra.BigOperators.Group.List.Basic

/-!
# What records weigh

A weight gives every entry a value in a commutative monoid: a tally, a number of bytes, a
combination of values. For a job whose folding adds weights, taking in candidates adds exactly what
they weigh (`weigh_emitAll`), and what is folded into records on their way adds to these
(`weigh_pending_emitAll`).
-/

namespace CollectionTree

variable {M : Type} [AddCommMonoid M]

/-- What some entries weigh together. -/
def weighEntries (weight : Wire.Entry → M) (entries : List Wire.Entry) : M :=
  (entries.map weight).sum

/-- What some records weigh together. -/
def weigh (weight : Wire.Entry → M) (records : List Record) : M :=
  weighEntries weight (records.map Record.entry)

/-- No entries weigh nothing. -/
@[simp] theorem weighEntries_nil (weight : Wire.Entry → M) : weighEntries weight [] = 0 := rfl

/-- The first entry adds its weight. -/
@[simp] theorem weighEntries_cons (weight : Wire.Entry → M) (e : Wire.Entry)
    (rest : List Wire.Entry) :
    weighEntries weight (e :: rest) = weight e + weighEntries weight rest := by
  simp [weighEntries]

/-- Weights add up over two lots of entries. -/
@[simp] theorem weighEntries_append (weight : Wire.Entry → M) (entries more : List Wire.Entry) :
    weighEntries weight (entries ++ more) =
      weighEntries weight entries + weighEntries weight more := by
  simp [weighEntries]

/-- No records weigh nothing. -/
@[simp] theorem weigh_nil (weight : Wire.Entry → M) : weigh weight [] = 0 := rfl

/-- The first record adds its weight. -/
@[simp] theorem weigh_cons (weight : Wire.Entry → M) (r : Record) (rest : List Record) :
    weigh weight (r :: rest) = weight r.entry + weigh weight rest := by
  simp [weigh]

/-- Weights add up over two lots of records. -/
@[simp] theorem weigh_append (weight : Wire.Entry → M) (records more : List Record) :
    weigh weight (records ++ more) = weigh weight records + weigh weight more := by
  simp [weigh]

/-- What holds of all entries holds whatever the marks of the records are. -/
theorem forall_entry_of_map_eq {valid : Wire.Entry → Prop} {records others : List Record}
    (same : others.map Record.entry = records.map Record.entry)
    (h : ∀ r ∈ records, valid r.entry) : ∀ r ∈ others, valid r.entry := by
  rw [← List.forall_mem_map (f := Record.entry) (P := valid)] at h ⊢
  rwa [same]

/-- Records weigh what those with a mark and those without it weigh. -/
theorem weigh_filter_add (weight : Wire.Entry → M) (p : Record → Bool) (records : List Record) :
    weigh weight (records.filter p) + weigh weight (records.filter fun r ↦ !p r) =
      weigh weight records := by
  induction records with
  | nil => simp
  | cons r rest ih =>
    cases h : p r with
    | true => simp [h, ← ih, add_assoc]
    | false => simp [h, ← ih, add_left_comm]

/-- Entries that weigh nothing each weigh nothing together. -/
theorem weighEntries_eq_zero {weight : Wire.Entry → M} {entries : List Wire.Entry}
    (none : ∀ e ∈ entries, weight e = 0) :
    weighEntries weight entries = 0 :=
  List.sum_eq_zero fun _ mem ↦ by
    obtain ⟨e, he, rfl⟩ := List.mem_map.1 mem
    exact none e he

/-- Where every key occurs once, some of the entries have all of what weighs under one key, or
nothing. -/
theorem weighEntries_of_sublist {weight : Wire.Entry → M} {key : Bytes}
    (single : ∀ e : Wire.Entry, e.key ≠ key → weight e = 0) {some all : List Wire.Entry}
    (among : some.Sublist all) (nodup : (all.map Wire.Entry.key).Nodup) :
    weighEntries weight some = 0 ∨ weighEntries weight some = weighEntries weight all := by
  -- Behind an entry about the key no other one is.
  have behind {e : Wire.Entry} {rest : List Wire.Entry} (about : e.key = key)
      (apart : e.key ∉ rest.map Wire.Entry.key) : ∀ other ∈ rest, weight other = 0 := by
    intro other mem
    refine single other fun same ↦ apart ?_
    exact List.mem_map.2 ⟨other, mem, same.trans about.symm⟩
  induction among with
  | slnil => exact .inl rfl
  | @cons some rest e among ih =>
    rw [List.map_cons, List.nodup_cons] at nodup
    by_cases about : e.key = key
    · refine .inl (weighEntries_eq_zero fun other mem ↦ ?_)
      exact behind about nodup.1 other (among.subset mem)
    · rw [weighEntries_cons, single e about, zero_add]
      exact ih nodup.2
  | @cons_cons some rest e among ih =>
    rw [List.map_cons, List.nodup_cons] at nodup
    rw [weighEntries_cons, weighEntries_cons]
    by_cases about : e.key = key
    · right
      rw [weighEntries_eq_zero (behind about nodup.1),
        weighEntries_eq_zero fun other mem ↦ behind about nodup.1 other (among.subset mem)]
    · rw [single e about, zero_add, zero_add]
      exact ih nodup.2

/-- Folding one value into another adds what it weighs, as long as both are valid for their key. -/
structure Job.Additive (job : Job) (valid : Wire.Entry → Prop) (weight : Wire.Entry → M) :
    Prop where
  keeps : job.KeepsIdentity
  valid_reduce : ∀ r value, valid r.entry → valid ⟨r.key, value⟩ →
    valid (job.reduce r value).entry
  weight_reduce : ∀ r value, valid r.entry → valid ⟨r.key, value⟩ →
    weight (job.reduce r value).entry = weight r.entry + weight ⟨r.key, value⟩

namespace Job.Additive

variable {job : Job} {valid : Wire.Entry → Prop} {weight : Wire.Entry → M}
  (additive : job.Additive valid weight) {candidate r : Record}

include additive

/-- Folding valid records leaves a valid one. -/
theorem valid_fold (hr : valid r.entry) (hc : valid candidate.entry)
    (about : r.key = candidate.key) : valid (job.fold candidate r).entry := by
  rw [Job.entry_fold]
  exact additive.valid_reduce r candidate.value hr (about ▸ hc)

private theorem weight_fold (hr : valid r.entry) (hc : valid candidate.entry)
    (about : r.key = candidate.key) :
    weight (job.fold candidate r).entry = weight r.entry + weight candidate.entry := by
  have hc' : valid ⟨r.key, candidate.value⟩ := about ▸ hc
  rw [Job.entry_fold, additive.weight_reduce r candidate.value hr hc', about]
  rfl

end Job.Additive

namespace Store

variable {store : Store} {valid : Wire.Entry → Prop} {weight : Wire.Entry → M}

/-- Taking valid candidates in keeps all records valid. -/
theorem valid_emitAll (additive : store.job.Additive valid weight) {candidates : List Record}
    (validRecords : ∀ r ∈ store.records, valid r.entry)
    (validCandidates : ∀ c ∈ candidates, valid c.entry) :
    ∀ r ∈ (store.emitAll candidates).2.records, valid r.entry :=
  forall_mem_emitAll (P := fun r ↦ valid r.entry)
    (fun c hc _ hr about ↦ additive.valid_fold hr (validCandidates c hc) about)
    (fun c hc ↦ validCandidates c hc) validRecords

/-- A candidate that is not refused adds what it weighs. -/
theorem weigh_emit (additive : store.job.Additive valid weight) {candidate : Record}
    (validRecords : ∀ r ∈ store.records, valid r.entry) (validCandidate : valid candidate.entry)
    (taken : (store.emit candidate).1.isOk = true) :
    weigh weight (store.emit candidate).2.records =
      weigh weight store.records + weight candidate.entry := by
  have step := emitStep_emit store candidate
  generalize store.emit candidate = outcome at step taken ⊢
  cases step with
  | @merged before after r records first about =>
    have hr : valid r.entry := validRecords r (by simp [records])
    simp only [records, weigh_append, weigh_cons, additive.weight_fold hr validCandidate about]
    ac_rfl
  | inserted absent charged => simp [add_comm]
  | refused absent full => cases taken

/-- Taking candidates in adds what those weigh that are not refused. -/
theorem weigh_emitAll (additive : store.job.Additive valid weight) {candidates : List Record}
    (validRecords : ∀ r ∈ store.records, valid r.entry)
    (validCandidates : ∀ c ∈ candidates, valid c.entry) :
    weigh weight (store.emitAll candidates).2.records =
      weigh weight store.records + weigh weight (store.accepted candidates) := by
  induction candidates generalizing store with
  | nil => simp [emitAll, accepted]
  | cons c rest ih =>
    have validCandidate := validCandidates c (by simp)
    have validAfter := forall_mem_emit (P := fun r ↦ valid r.entry)
      (fun r hr about ↦ additive.valid_fold hr validCandidate about) validCandidate validRecords
    have additiveAfter : (store.emit c).2.job.Additive valid weight := by simpa using additive
    have later := ih additiveAfter validAfter fun d hd ↦ validCandidates d (by simp [hd])
    by_cases taken : (store.emit c).1.isOk = true
    · rw [accepted, if_pos taken, weigh_cons, ← add_assoc,
        ← weigh_emit additive validRecords validCandidate taken]
      exact later
    · rw [accepted, if_neg taken, ← emit_of_refused taken]
      exact later

/-! ## Records on their way -/

/-- The record that a candidate about this key would be folded into is on its way. -/
def marksKey (records : List Record) (key : Bytes) : Bool :=
  (records.find? (·.about key)).any (·.isPending)

private theorem find?_of_first {before after : List Record} {r : Record} {key : Bytes}
    (first : ∀ other ∈ before, other.key ≠ key) (about : r.key = key) :
    (before ++ r :: after).find? (·.about key) = some r := by
  rw [List.find?_append, List.find?_eq_none.2]
  · simp [Record.about, about]
  · intro other hother
    simpa [Record.about] using first other hother

private theorem find?_eq_none_of_absent {records : List Record} {key : Bytes}
    (absent : ∀ r ∈ records, r.key ≠ key) : records.find? (·.about key) = none := by
  rw [List.find?_eq_none]
  intro r hr
  simpa [Record.about] using absent r hr

/-- No candidate changes which keys' records are on their way. -/
theorem marksKey_emit (keeps : store.job.KeepsIdentity) (candidate : Record) (key : Bytes) :
    marksKey (store.emit candidate).2.records key = marksKey store.records key := by
  have step := emitStep_emit store candidate
  generalize store.emit candidate = outcome at step ⊢
  cases step with
  | @merged before after r records first about =>
    simp only [records, marksKey, List.find?_append, List.find?_cons, Record.about,
      keeps.key_fold]
    cases before.find? (·.key == key) with
    | some s => rfl
    | none =>
      by_cases same : r.key = key
      · simp [same, keeps.isPending_fold]
      · rw [beq_false_of_ne same]
  | inserted absent charged =>
    by_cases same : candidate.key = key
    · subst same
      rw [marksKey, marksKey, find?_eq_none_of_absent absent]
      simp [Record.about]
    · simp [marksKey, Record.about, same]
  | refused absent full => rfl

/-- What is folded into records on their way adds to what these weigh. -/
theorem weigh_pending_emit (additive : store.job.Additive valid weight) {candidate : Record}
    (validRecords : ∀ r ∈ store.records, valid r.entry) (validCandidate : valid candidate.entry) :
    weigh weight (Accumulator.pending (store.emit candidate).2.records) =
      weigh weight (Accumulator.pending store.records) +
        if marksKey store.records candidate.key then weight candidate.entry else 0 := by
  have step := emitStep_emit store candidate
  generalize store.emit candidate = outcome at step ⊢
  cases step with
  | @merged before after r records first about =>
    have hr : valid r.entry := validRecords r (by simp [records])
    have found : marksKey store.records candidate.key = r.isPending := by
      rw [marksKey, records, find?_of_first first about]
      rfl
    rw [found]
    simp only [records, Accumulator.pending, List.filter_append, List.filter_cons,
      additive.keeps.isPending_fold, weigh_append]
    cases r.isPending with
    | true =>
      simp only [if_true, weigh_cons, additive.weight_fold hr validCandidate about]
      ac_rfl
    | false => simp
  | inserted absent charged =>
    simp [marksKey, find?_eq_none_of_absent absent, Accumulator.pending]
  | refused absent full => simp [marksKey, find?_eq_none_of_absent absent]

/-- The candidates about keys whose records are on their way. -/
def lateAmong (records : List Record) (candidates : List Record) : List Record :=
  candidates.filter fun c ↦ marksKey records c.key

/-- What is on its way gains the weight of the candidates that were folded into it. -/
theorem weigh_pending_emitAll (additive : store.job.Additive valid weight)
    {candidates : List Record} (validRecords : ∀ r ∈ store.records, valid r.entry)
    (validCandidates : ∀ c ∈ candidates, valid c.entry) :
    weigh weight (Accumulator.pending (store.emitAll candidates).2.records) =
      weigh weight (Accumulator.pending store.records) +
        weigh weight (lateAmong store.records candidates) := by
  induction candidates generalizing store with
  | nil => simp [emitAll, lateAmong]
  | cons c rest ih =>
    have validCandidate := validCandidates c (by simp)
    have validAfter := forall_mem_emit (P := fun r ↦ valid r.entry)
      (fun r hr about ↦ additive.valid_fold hr validCandidate about) validCandidate validRecords
    have additiveAfter : (store.emit c).2.job.Additive valid weight := by simpa using additive
    have later := ih additiveAfter validAfter fun d hd ↦ validCandidates d (by simp [hd])
    have same : lateAmong (store.emit c).2.records rest = lateAmong store.records rest := by
      simp [lateAmong, marksKey_emit additive.keeps]
    have head : weigh weight (lateAmong store.records (c :: rest)) =
        (if marksKey store.records c.key then weight c.entry else 0) +
          weigh weight (lateAmong store.records rest) := by
      cases marks : marksKey store.records c.key <;> simp [lateAmong, marks]
    rw [head, ← add_assoc, ← weigh_pending_emit additive validRecords validCandidate, ← same]
    exact later

end Store

end CollectionTree
