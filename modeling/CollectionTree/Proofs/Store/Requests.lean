import CollectionTree.Proofs.Store.Emission
import Mathlib.Data.List.Nodup

/-!
# What a store is asked to do

A request is one operation on a store's records. Three of them offer candidates, which are taken in
one after another: an emission is such a candidate together with the store that it finds. The others
only mark records or remove them.
-/

namespace CollectionTree
namespace Store

/-- What a store may be asked to do with its records. -/
inductive Request where
  /-- Take in a candidate. -/
  | emit (candidate : Record)
  /-- Map a fact sensed after so many seconds, and take in what it becomes. -/
  | sow (elapsed : Nat) (key value : Bytes)
  /-- Take in the segment at the front of some bytes. -/
  | feed (bytes : Bytes) (urgent : Bool)
  /-- Write the ready records into a segment of at most so many bytes. -/
  | gather (room : Nat) (urgentOnly : Bool)
  /-- Remove the records that bear one of these marks. -/
  | cleanup (flags : Flags)
  /-- Make the pending records ready again. -/
  | releasePending

/-- The store after it did what it was asked. -/
def serve (store : Store) : Request → Store
  | .emit candidate => (store.emit candidate).2
  | .sow elapsed key value => (store.sow elapsed key value).2
  | .feed bytes urgent => (store.feed bytes urgent).2
  | .gather room urgentOnly => (store.gather room urgentOnly).2
  | .cleanup flags => (store.cleanup flags).2
  | .releasePending => store.releasePending.2

/-- Whether a request offers candidates. -/
def Request.offers : Request → Bool
  | .emit _ | .sow _ _ _ | .feed _ _ => true
  | .gather _ _ | .cleanup _ | .releasePending => false

/-- The candidates of the segment at the front of some bytes; none if it is for another accumulator
or broken. -/
def segmentCandidates (store : Store) (bytes : Bytes) (urgent : Bool) : List Record :=
  match Wire.SegmentHeader.decode bytes, Wire.Segment.parse bytes >>= Wire.Segment.entries with
  | .ok header, .ok entries => if header.owner = store.id then candidates urgent entries else []
  | _, _ => []

/-- The candidates that a request offers, in order. -/
def offered (store : Store) : Request → List Record
  | .emit candidate => [candidate]
  | .sow elapsed key value => store.job.map elapsed key value
  | .feed bytes urgent => store.segmentCandidates bytes urgent
  | .gather _ _ | .cleanup _ | .releasePending => []

/-- The store that the first candidate of a request finds. -/
def offering (store : Store) (request : Request) : Store :=
  { store with
    counters := match request with
      | .sow _ _ _ => store.counters.addMapped
      | _ => store.counters }

private theorem feed_eq_emitAll (store : Store) (bytes : Bytes) (urgent : Bool) :
    (store.feed bytes urgent).2 = (store.emitAll (store.segmentCandidates bytes urgent)).2 := by
  unfold feed segmentCandidates
  cases Wire.SegmentHeader.decode bytes with
  | error cause => rfl
  | ok header =>
    cases Wire.Segment.parse bytes >>= Wire.Segment.entries with
    | error cause =>
      simp only [emitAll]
      split <;> rfl
    | ok entries =>
      by_cases own : header.owner = store.id
      · simp only [if_pos own]
      · simp only [if_neg own, emitAll]

/-- A request that offers candidates takes them in and does nothing else. -/
theorem serve_of_offers (store : Store) {request : Request} (offers : request.offers = true) :
    store.serve request = ((store.offering request).emitAll (store.offered request)).2 := by
  cases request with
  | emit candidate => rfl
  | sow elapsed key value => rfl
  | feed bytes urgent => exact store.feed_eq_emitAll bytes urgent
  | gather | cleanup | releasePending => cases offers

/-- What all candidates keep, and removing records and changing their marks keep, every request
keeps. -/
theorem serve_induction {P : Store → Prop} {store : Store} (request : Request)
    (count : ∀ counters, P store → P { store with counters })
    (emit : ∀ s, P s → ∀ candidate, P (s.emit candidate).2)
    (gather : ∀ room urgentOnly, P store → P (store.gather room urgentOnly).2)
    (cleanup : ∀ flags, P store → P (store.cleanup flags).2)
    (release : P store → P store.releasePending.2) (h : P store) : P (store.serve request) := by
  cases request with
  | emit | sow | feed =>
    rw [serve_of_offers store rfl]
    exact emitAll_induction _ (fun s hs c _ ↦ emit s hs c) _ (count _ h)
  | gather room urgentOnly => exact gather room urgentOnly h
  | cleanup flags => exact cleanup flags h
  | releasePending => exact release h

/-- A request keeps the job. -/
@[simp] theorem job_serve (store : Store) (request : Request) :
    (store.serve request).job = store.job := by
  apply serve_induction (P := fun s ↦ s.job = store.job) request
  · exact fun _ h ↦ h
  · exact fun s h candidate ↦ (job_emit s candidate).trans h
  · intro room urgentOnly _
    simp only [gather, Accumulator.gather_eq]
    rfl
  · exact fun _ _ ↦ rfl
  · exact fun _ ↦ rfl
  · rfl

/-- A request keeps the id. -/
@[simp] theorem id_serve (store : Store) (request : Request) :
    (store.serve request).id = store.id := by
  apply serve_induction (P := fun s ↦ s.id = store.id) request
  · exact fun _ h ↦ h
  · exact fun s h candidate ↦ (id_emit s candidate).trans h
  · intro room urgentOnly _
    simp only [gather, Accumulator.gather_eq]
    rfl
  · exact fun _ _ ↦ rfl
  · exact fun _ ↦ rfl
  · rfl

/-- Gathering leaves the entries and their order alone. -/
theorem map_entry_gather (store : Store) (room : Nat) (urgentOnly : Bool) :
    (store.gather room urgentOnly).2.records.map Record.entry = store.records.map Record.entry := by
  simp only [gather, Accumulator.gather_eq]
  exact Accumulator.map_entry_markReady ..

/-- Making records ready again leaves the entries and their order alone. -/
theorem map_entry_releasePending (store : Store) :
    store.releasePending.2.records.map Record.entry = store.records.map Record.entry := by
  simp [releasePending, Accumulator.releasePending]

/-! ## Emissions -/

/-- A candidate and the store that it finds. -/
structure Emission where
  before : Store
  candidate : Record

namespace Emission

/-- The store afterwards. -/
def after (e : Emission) : Store := (e.before.emit e.candidate).2

/-- What became of the candidate. -/
def result (e : Emission) : Except StoreError Emitted := (e.before.emit e.candidate).1

/-- The store has a record about the candidate's key. -/
def Known (e : Emission) : Prop := ∃ r ∈ e.before.records, r.key = e.candidate.key

instance : DecidablePred Known := fun e ↦
  inferInstanceAs (Decidable (∃ r ∈ e.before.records, r.key = e.candidate.key))

/-- A copy of the candidate was stored. -/
def Inserted (e : Emission) : Prop := e.result.toOption = some .inserted

instance : DecidablePred Inserted := fun e ↦
  inferInstanceAs (Decidable (e.result.toOption = some .inserted))

/-- The candidate was refused. -/
def Refused (e : Emission) : Prop := e.result.toOption = none

instance : DecidablePred Refused := fun e ↦ inferInstanceAs (Decidable (e.result.toOption = none))

/-- A known key's record takes the candidate's value in, by one call of the job's rule, and no other
record changes. -/
def FoldsKnown (e : Emission) : Prop :=
  ∀ r ∈ e.before.records, r.key = e.candidate.key →
    ∃ front rest, e.before.records = front ++ r :: rest ∧ e.result = .ok .merged ∧
      e.after = { e.before with
        records := front ++ e.before.job.fold e.candidate r :: rest
        counters := e.before.counters.addEmitted.addReduced }

/-- A candidate about a new key is put in front if the ledger has room; otherwise it is refused, and
neither the records nor the ledger change. The job's rule is not called. -/
def StoresNew (e : Emission) : Prop :=
  ¬e.Known →
    (∃ ledger, e.before.ledger.charge e.candidate.footprint = .ok ledger ∧
      e.result = .ok .inserted ∧
      e.after = { e.before with
        records := storedCopy e.candidate :: e.before.records
        ledger
        counters := e.before.counters.addEmitted }) ∨
    ∃ cause, e.before.ledger.charge e.candidate.footprint = .error cause ∧
      e.result = .error cause ∧
      e.after = { e.before with counters := e.before.counters.addEmitted }

/-- An emission does what is said of emitting. -/
theorem emitStep (e : Emission) : EmitStep e.before e.candidate (e.result, e.after) :=
  emitStep_emit e.before e.candidate

/-- Where keys are distinct, a candidate about a known key is folded into its record. -/
theorem foldsKnown {e : Emission} (distinct : (e.before.records.map Record.key).Nodup) :
    e.FoldsKnown := by
  intro r hr about
  have step := e.emitStep
  generalize e.result = result at step ⊢
  generalize e.after = after at step ⊢
  cases step with
  | @merged front rest s records first same =>
    have hs : s ∈ e.before.records := by simp [records]
    obtain rfl : r = s := List.inj_on_of_nodup_map distinct hr hs (about.trans same.symm)
    exact ⟨front, rest, records, rfl, rfl⟩
  | inserted absent charged => exact absurd about (absent r hr)
  | refused absent full => exact absurd about (absent r hr)

/-- A candidate about a new key is stored if there is room. -/
theorem storesNew (e : Emission) : e.StoresNew := by
  intro new
  have step := e.emitStep
  generalize e.result = result at step ⊢
  generalize e.after = after at step ⊢
  cases step with
  | @merged front rest s records first same =>
    exact absurd ⟨s, by simp [records], same⟩ new
  | inserted absent charged => exact .inl ⟨_, charged, rfl, rfl⟩
  | refused absent full => exact .inr ⟨_, full, rfl, rfl⟩

/-- A refusal changes neither the records nor the ledger. -/
theorem unchanged_of_refused {e : Emission} (refused : e.Refused) :
    e.after.toAccumulator = e.before.toAccumulator ∧ e.after.ledger = e.before.ledger := by
  have step := e.emitStep
  rw [Refused] at refused
  generalize e.result = result at step refused
  generalize e.after = after at step ⊢
  cases step with
  | merged records first about => cases refused
  | inserted absent charged => cases refused
  | refused absent full => exact ⟨rfl, rfl⟩

end Emission

/-- The emissions of some candidates in order. -/
def emissionsOf (store : Store) : List Record → List Emission
  | [] => []
  | candidate :: rest => ⟨store, candidate⟩ :: (store.emit candidate).2.emissionsOf rest

/-- There is one emission for each candidate, in order. -/
@[simp] theorem map_candidate_emissionsOf (store : Store) (candidates : List Record) :
    (store.emissionsOf candidates).map Emission.candidate = candidates := by
  induction candidates generalizing store with
  | nil => rfl
  | cons candidate rest ih => simp [emissionsOf, ih]

/-- The emissions of a request. -/
def emissions (store : Store) (request : Request) : List Emission :=
  (store.offering request).emissionsOf (store.offered request)

/-- What every candidate keeps holds before and after every emission. -/
theorem forall_mem_emissionsOf {P : Store → Prop}
    (emit : ∀ s, P s → ∀ candidate, P (s.emit candidate).2)
    {store : Store} (h : P store) (candidates : List Record) :
    ∀ e ∈ store.emissionsOf candidates, P e.before ∧ P e.after := by
  induction candidates generalizing store with
  | nil => exact fun _ mem ↦ nomatch mem
  | cons c rest ih =>
    intro e mem
    rcases List.mem_cons.1 mem with rfl | mem
    · exact ⟨h, emit store h c⟩
    · exact ih (emit store h c) e mem

end Store
end CollectionTree
