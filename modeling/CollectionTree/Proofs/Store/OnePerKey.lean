import CollectionTree.Proofs.Store.Requests
import CollectionTree.Workload.Bytewise

/-!
# One record for each key

Whatever happens to a store in whatever order, it holds one record for each key and every record
bears the mark of a stored one. A candidate about a known key is folded into the one record about
it; any other is put in front or refused. So the records offered, as the store counts them, are
those inserted, those folded and those refused.

The main statement is `onePerKey_run`; it holds for every ledger, whoever else uses it.
-/

namespace CollectionTree
namespace Store

/-- The keys are distinct, and every record is marked as stored. -/
structure OnePerKey (store : Store) : Prop where
  distinct : (store.records.map Record.key).Nodup
  stored : ∀ r ∈ store.records, r.flags.stored = true

variable {store : Store}

namespace OnePerKey

/-- A store without records holds none twice. -/
theorem of_empty (empty : store.records = []) : store.OnePerKey := by
  constructor <;> simp [empty]

private theorem bears_all (h : store.OnePerKey) : ∀ r ∈ store.records, r.bears .all = true := by
  intro r hr
  simp [Record.bears, Flags.intersects, Flags.all, h.stored r hr]

private theorem size_all (h : store.OnePerKey) :
    store.toAccumulator.size .all = store.records.length :=
  List.countP_eq_length.2 h.bears_all

private theorem records_cleanup_all (h : store.OnePerKey) :
    (store.cleanup .all).2.records = [] := by
  simp only [cleanup, List.partition_eq_filter_filter]
  rw [List.filter_eq_nil_iff]
  intro r hr
  simp [h.bears_all r hr]

private theorem emit (h : store.OnePerKey) (keeps : store.job.KeepsIdentity) (candidate : Record) :
    (store.emit candidate).2.OnePerKey where
  distinct := nodup_keys_emit keeps h.distinct candidate
  stored := by
    apply forall_mem_emit (P := fun r ↦ r.flags.stored = true)
    · intro r stored _
      have flags := (keeps r candidate.value).2
      unfold Job.fold
      split
      · simp [Record.urgent, Record.mark, Flags.union, flags, stored]
      · rwa [flags]
    · simp [storedCopy, Record.mark, Flags.union, Flags.storedOnly]
    · exact h.stored

/-- Changes of marks that leave the mark of stored records. -/
theorem of_marks (h : store.OnePerKey) {store' : Store}
    (entries : store'.records.map Record.entry = store.records.map Record.entry)
    (stored : ∀ r ∈ store'.records, r.flags.stored = true) : store'.OnePerKey where
  distinct := by
    rw [← Record.map_key_map_entry, entries, Record.map_key_map_entry]
    exact h.distinct
  stored := stored

private theorem gather (h : store.OnePerKey) (room : Nat) (urgentOnly : Bool) :
    (store.gather room urgentOnly).2.OnePerKey := by
  apply h.of_marks (map_entry_gather ..)
  simp only [Store.gather, Accumulator.gather_eq]
  apply Accumulator.forall_mem_markReady (P := fun r ↦ r.flags.stored = true)
  · intro r stored
    simp [Record.mark, Flags.union, stored]
  · exact h.stored

private theorem cleanup (h : store.OnePerKey) (flags : Flags) :
    (store.cleanup flags).2.OnePerKey := by
  simp only [Store.cleanup, List.partition_eq_filter_filter]
  exact ⟨h.distinct.sublist (List.filter_sublist.map _),
    fun r hr ↦ h.stored r (List.mem_filter.1 hr).1⟩

private theorem releasePending (h : store.OnePerKey) : store.releasePending.2.OnePerKey := by
  apply h.of_marks (map_entry_releasePending store)
  intro r hr
  obtain ⟨s, hs, rfl⟩ := List.mem_map.1 hr
  simp [Record.unmark, Flags.diff, Flags.pendingOnly, h.stored s hs]

private theorem emissionsOf (h : store.OnePerKey) (keeps : store.job.KeepsIdentity)
    (candidates : List Record) :
    ∀ e ∈ store.emissionsOf candidates, e.before.OnePerKey ∧ e.after.OnePerKey := by
  have both := forall_mem_emissionsOf
    (P := fun s ↦ s.job = store.job ∧ s.OnePerKey)
    (fun s hs c ↦ ⟨(job_emit s c).trans hs.1, hs.2.emit (hs.1 ▸ keeps) c⟩) ⟨rfl, h⟩ candidates
  exact fun e mem ↦ ⟨(both e mem).1.2, (both e mem).2.2⟩

private theorem serve (h : store.OnePerKey) (keeps : store.job.KeepsIdentity) (request : Request) :
    (store.serve request).OnePerKey := by
  have both := serve_induction (P := fun s ↦ s.job = store.job ∧ s.OnePerKey) request
    (fun counters hs ↦ ⟨hs.1, hs.2.distinct, hs.2.stored⟩)
    (fun s hs c ↦ ⟨(job_emit s c).trans hs.1, hs.2.emit (hs.1 ▸ keeps) c⟩)
    (fun room urgentOnly hs ↦ ⟨job_serve store (.gather room urgentOnly), hs.2.gather ..⟩)
    (fun flags hs ↦ ⟨rfl, hs.2.cleanup flags⟩)
    (fun hs ↦ ⟨rfl, hs.2.releasePending⟩) ⟨rfl, h⟩
  exact both.2

end OnePerKey

/-! ## A store over time -/

/-- What may happen to a store. -/
inductive Episode where
  /-- It does what it is asked. -/
  | asked (request : Request)
  /-- Its records are charged to another ledger, and it reports to other counters. -/
  | attached (ledger : Ledger) (counters : Counters)
  /-- Its records are charged to a ledger of its own, and it reports to counters of its own. -/
  | detached
  /-- Whoever shares its ledger and its counters changes them. -/
  | meanwhile (ledger : Ledger) (counters : Counters)

/-- The store after an episode. -/
def live (store : Store) : Episode → Store
  | .asked request => store.serve request
  | .attached ledger counters => attach store.toAccumulator ledger counters
  | .detached => Store.detached store.toAccumulator
  | .meanwhile ledger counters => { store with ledger, counters }

/-- The store after some episodes. -/
def run (store : Store) (episodes : List Episode) : Store := episodes.foldl live store

/-- The emissions of an episode. -/
def emissionsIn (store : Store) : Episode → List Emission
  | .asked request => store.emissions request
  | .attached _ _ | .detached | .meanwhile _ _ => []

/-- The emissions of some episodes. -/
def emissionsAlong (store : Store) : List Episode → List Emission
  | [] => []
  | episode :: rest => store.emissionsIn episode ++ (store.live episode).emissionsAlong rest

/-- A number of every episode, added up along some episodes. -/
def along (number : Store → Episode → Nat) (store : Store) : List Episode → Nat
  | [] => 0
  | episode :: rest => number store episode + along number (store.live episode) rest

/-- By how much the store advances one of its counts in an episode. -/
def advanced (count : Counters → Nat) (store : Store) : Episode → Nat
  | .asked request => count (store.serve request).counters - count store.counters
  | .attached _ _ | .detached | .meanwhile _ _ => 0

/-- How many records an episode removes. -/
def removed (store : Store) : Episode → Nat
  | .asked (.cleanup flags) => (store.cleanup flags).1
  | _ => 0

private theorem job_live (store : Store) (episode : Episode) :
    (store.live episode).job = store.job := by
  cases episode with
  | asked request => exact job_serve store request
  | attached | detached | meanwhile => rfl

private theorem id_live (store : Store) (episode : Episode) :
    (store.live episode).id = store.id := by
  cases episode with
  | asked request => exact id_serve store request
  | attached | detached | meanwhile => rfl

/-- Episodes keep the job. -/
@[simp] theorem job_run (store : Store) (episodes : List Episode) :
    (store.run episodes).job = store.job := by
  induction episodes generalizing store with
  | nil => rfl
  | cons episode rest ih => exact (ih (store.live episode)).trans (store.job_live episode)

/-- Episodes keep the id. -/
@[simp] theorem id_run (store : Store) (episodes : List Episode) :
    (store.run episodes).id = store.id := by
  induction episodes generalizing store with
  | nil => rfl
  | cons episode rest ih => exact (ih (store.live episode)).trans (store.id_live episode)

private theorem OnePerKey.live (h : store.OnePerKey) (keeps : store.job.KeepsIdentity)
    (episode : Episode) : (store.live episode).OnePerKey := by
  cases episode with
  | asked request => exact h.serve keeps request
  | attached | detached | meanwhile => exact ⟨h.distinct, h.stored⟩

/-- Episodes keep one record for each key. -/
theorem OnePerKey.run (h : store.OnePerKey) (keeps : store.job.KeepsIdentity)
    (episodes : List Episode) : (store.run episodes).OnePerKey := by
  induction episodes generalizing store with
  | nil => exact h
  | cons episode rest ih => exact ih (h.live keeps episode) (store.job_live episode ▸ keeps)

private theorem OnePerKey.emissions (h : store.OnePerKey) (keeps : store.job.KeepsIdentity)
    (request : Request) :
    ∀ e ∈ store.emissions request, e.before.OnePerKey ∧ e.after.OnePerKey := by
  have offering : (store.offering request).OnePerKey := ⟨h.distinct, h.stored⟩
  exact offering.emissionsOf keeps (store.offered request)

private theorem OnePerKey.emissionsAlong (h : store.OnePerKey) (keeps : store.job.KeepsIdentity)
    (episodes : List Episode) :
    ∀ e ∈ store.emissionsAlong episodes, e.before.OnePerKey ∧ e.after.OnePerKey := by
  induction episodes generalizing store with
  | nil => exact fun _ mem ↦ nomatch mem
  | cons episode rest ih =>
    intro e mem
    rcases List.mem_append.1 mem with mem | mem
    · cases episode with
      | asked request => exact h.emissions keeps request e mem
      | attached | detached | meanwhile => cases mem
    · exact ih (h.live keeps episode) (store.job_live episode ▸ keeps) e mem

/-! ## Counting -/

/-- The counts and the number of records advance by what some emissions amount to. -/
structure Counted (store last : Store) (emissions : List Emission) : Prop where
  emitted : last.counters.emitted = store.counters.emitted + emissions.length
  reduced : last.counters.reduced = store.counters.reduced + emissions.countP (·.Known)
  records : last.records.length = store.records.length + emissions.countP (·.Inserted)

/-- What an emission counts, and that it inserts, folds or refuses. -/
theorem Emission.counted (e : Emission) :
    Counted e.before e.after [e] ∧
      1 = [e].countP (·.Inserted) + [e].countP (·.Known) + [e].countP (·.Refused) := by
  have step := e.emitStep
  obtain ⟨result, become⟩ : ∃ result, e.result = result := ⟨_, rfl⟩
  obtain ⟨after, left⟩ : ∃ after, e.after = after := ⟨_, rfl⟩
  rw [become, left] at step
  rw [left]
  cases step with
  | @merged front rest r records first about =>
    have known : e.Known := ⟨r, by simp [records], about⟩
    have neither : ¬e.Inserted ∧ ¬e.Refused := by simp [Inserted, Refused, become, Except.toOption]
    refine ⟨⟨rfl, ?_, ?_⟩, ?_⟩ <;> simp [known, neither, records, Counters.addReduced,
      Counters.addEmitted]
  | inserted absent charged =>
    have new : ¬e.Known := by
      rintro ⟨r, hr, about⟩
      exact absent r hr about
    have only : e.Inserted ∧ ¬e.Refused := by simp [Inserted, Refused, become, Except.toOption]
    refine ⟨⟨rfl, ?_, ?_⟩, ?_⟩ <;> simp [new, only, Counters.addEmitted]
  | refused absent full =>
    have new : ¬e.Known := by
      rintro ⟨r, hr, about⟩
      exact absent r hr about
    have only : ¬e.Inserted ∧ e.Refused := by simp [Inserted, Refused, become, Except.toOption]
    refine ⟨⟨rfl, ?_, ?_⟩, ?_⟩ <;> simp [new, only, Counters.addEmitted]

/-- Every emission inserts, folds or refuses. -/
theorem length_eq_inserted_add_known_add_refused (emissions : List Emission) :
    emissions.length = emissions.countP (·.Inserted) + emissions.countP (·.Known) +
      emissions.countP (·.Refused) := by
  induction emissions with
  | nil => rfl
  | cons e rest ih =>
    have one := e.counted.2
    simp only [List.countP_cons, List.countP_nil, List.length_cons] at one ⊢
    omega

private theorem Counted.trans {mid last : Store} {emissions more : List Emission}
    (h : Counted store mid emissions) (h' : Counted mid last more) :
    Counted store last (emissions ++ more) where
  emitted := by rw [h'.emitted, h.emitted, List.length_append, Nat.add_assoc]
  reduced := by rw [h'.reduced, h.reduced, List.countP_append, Nat.add_assoc]
  records := by rw [h'.records, h.records, List.countP_append, Nat.add_assoc]

private theorem counted_emitAll (store : Store) (candidates : List Record) :
    Counted store (store.emitAll candidates).2 (store.emissionsOf candidates) := by
  induction candidates generalizing store with
  | nil => exact ⟨rfl, rfl, rfl⟩
  | cons c rest ih =>
    have first := (Emission.counted ⟨store, c⟩).1
    exact first.trans (ih (store.emit c).2)

private theorem counted_serve (store : Store) {request : Request} (offers : request.offers = true) :
    Counted store (store.serve request) (store.emissions request) := by
  have counted := (store.offering request).counted_emitAll (store.offered request)
  rw [← store.serve_of_offers offers] at counted
  cases request with
  | emit | sow | feed => exact ⟨counted.emitted, counted.reduced, counted.records⟩
  | gather | cleanup | releasePending => cases offers

/-- What an episode counts, keeps and removes. -/
theorem counted_live (store : Store) (episode : Episode) :
    let emissions := store.emissionsIn episode
    store.advanced (·.emitted) episode = emissions.length ∧
      store.advanced (·.reduced) episode = emissions.countP (·.Known) ∧
      (store.live episode).records.length + store.removed episode =
        store.records.length + emissions.countP (·.Inserted) := by
  have taken {request : Request} (offers : request.offers = true) :
      let emissions := store.emissions request
      store.advanced (·.emitted) (.asked request) = emissions.length ∧
        store.advanced (·.reduced) (.asked request) = emissions.countP (·.Known) ∧
        (store.serve request).records.length =
          store.records.length + emissions.countP (·.Inserted) := by
    have counted := store.counted_serve offers
    exact ⟨Nat.sub_eq_of_eq_add' counted.emitted, Nat.sub_eq_of_eq_add' counted.reduced,
      counted.records⟩
  have quiet {request : Request} (silent : (store.serve request).counters = store.counters)
      (count : Counters → Nat) : store.advanced count (.asked request) = 0 := by
    simp only [advanced, silent, Nat.sub_self]
  have marked {request : Request} (entries : (store.serve request).records.map Record.entry =
      store.records.map Record.entry) :
      (store.serve request).records.length = store.records.length := by
    simpa using congrArg List.length entries
  cases episode with
  | attached | detached | meanwhile => exact ⟨rfl, rfl, rfl⟩
  | asked request =>
    cases request with
    | emit | sow | feed => exact taken rfl
    | gather room urgentOnly =>
      have silent : (store.serve (.gather room urgentOnly)).counters = store.counters := rfl
      exact ⟨quiet silent _, quiet silent _, marked (store.map_entry_gather room urgentOnly)⟩
    | releasePending =>
      have silent : (store.serve .releasePending).counters = store.counters := rfl
      exact ⟨quiet silent _, quiet silent _, marked store.map_entry_releasePending⟩
    | cleanup flags =>
      have silent : (store.serve (.cleanup flags)).counters = store.counters := rfl
      refine ⟨quiet silent _, quiet silent _, ?_⟩
      have parts := List.length_eq_length_filter_add (l := store.records) (·.bears flags)
      simp only [live, serve, removed, cleanup, List.partition_eq_filter_filter, emissionsIn,
        emissions, offered, emissionsOf, List.countP_nil, Function.comp_def]
      omega

private theorem counted_run (store : Store) (episodes : List Episode) :
    let emissions := store.emissionsAlong episodes
    along (advanced (·.emitted)) store episodes = emissions.length ∧
      along (advanced (·.reduced)) store episodes = emissions.countP (·.Known) ∧
      (store.run episodes).records.length + along removed store episodes =
        store.records.length + emissions.countP (·.Inserted) := by
  induction episodes generalizing store with
  | nil => exact ⟨rfl, rfl, rfl⟩
  | cons episode rest ih =>
    obtain ⟨emitted, reduced, length⟩ := store.counted_live episode
    obtain ⟨emitted', reduced', length'⟩ := ih (store.live episode)
    simp only [along, emissionsAlong, run, List.foldl_cons, List.length_append,
      List.countP_append] at length' ⊢
    omega

/-- Whatever happens to a store that starts without records and whose job leaves keys and marks
alone: it holds one record for each key, all of them marked as stored, so that all are counted and
removed where all marks are asked for. A candidate about a known key is folded into the record about
it by one call of the job's rule; about a new key it is put in front, or refused without a change of
records or ledger, by none. The records offered, as counted by the store, are those inserted, those
folded and those refused; and those inserted are still held or were removed. -/
theorem onePerKey_run (keeps : store.job.KeepsIdentity) (empty : store.records = [])
    (episodes : List Episode) :
    let last := store.run episodes
    let emissions := store.emissionsAlong episodes
    let emits := along (advanced (·.emitted)) store episodes
    let reduces := along (advanced (·.reduced)) store episodes
    let inserts := emissions.countP (·.Inserted)
    let refusals := emissions.countP (·.Refused)
    last.OnePerKey ∧ last.toAccumulator.size .all = last.records.length ∧
      (last.cleanup .all).2.records = [] ∧
      (∀ e ∈ emissions, e.before.OnePerKey ∧ e.after.OnePerKey ∧ e.FoldsKnown ∧ e.StoresNew) ∧
      emits = emissions.length ∧ reduces = emissions.countP (·.Known) ∧
      last.records.length + along removed store episodes = inserts ∧
      emits = inserts + reduces + refusals := by
  intro last emissions emits reduces inserts refusals
  have one := OnePerKey.of_empty empty
  have held := one.run keeps episodes
  have split : emissions.length = _ := length_eq_inserted_add_known_add_refused emissions
  obtain ⟨emitted, reduced, length⟩ := store.counted_run episodes
  rw [empty, List.length_nil, Nat.zero_add] at length
  refine ⟨held, held.size_all, held.records_cleanup_all, fun e mem ↦ ?_, emitted, reduced, length,
    emitted.trans (by rw [split, ← reduced])⟩
  obtain ⟨before, after⟩ := one.emissionsAlong keeps episodes e mem
  exact ⟨before, after, Emission.foldsKnown before.distinct, e.storesNew⟩

/-- Keeping the latest value leaves keys and marks alone. -/
theorem keepsIdentity_latest : Bytewise.latest.KeepsIdentity := fun _ _ ↦ ⟨rfl, rfl⟩

/-- An empty store that keeps the latest value of every key. -/
def latestValues : Store := { id := 1, job := Bytewise.latest }

/-- A cap leaves room for two of the three keys of a segment that names the first one twice. The
store is emptied once these two were confirmed, and takes the third in without a cap. -/
def tightEpisodes : List Episode :=
  [.attached { limit := some 20 } {},
    .asked (.feed [1, 16, 1, 1, 97, 1, 0, 1, 2, 1, 1, 97, 3, 1, 0, 98] true),
    .asked (.gather 20 false), .asked (.emit ⟨[97], [4], .pendingOnly⟩),
    .asked (.cleanup .pendingOnly), .detached, .asked (.sow 0 [98] [])]

/-- Six records are offered: three are inserted, two are folded, and one is refused. -/
theorem onePerKey_tightEpisodes :
    latestValues.job.KeepsIdentity ∧ latestValues.records = [] ∧
      (latestValues.run tightEpisodes).OnePerKey ∧
      along (advanced (·.emitted)) latestValues tightEpisodes = 6 ∧
      (latestValues.emissionsAlong tightEpisodes).countP (·.Inserted) = 3 ∧
      along (advanced (·.reduced)) latestValues tightEpisodes = 2 ∧
      (latestValues.emissionsAlong tightEpisodes).countP (·.Refused) = 1 := by
  obtain ⟨held, -, -, -, emits, reduces, -, -⟩ :=
    onePerKey_run keepsIdentity_latest (rfl : latestValues.records = []) tightEpisodes
  refine ⟨keepsIdentity_latest, rfl, held, ?_, by decide +kernel, ?_, by decide +kernel⟩
  · rw [emits]
    decide +kernel
  · rw [reduces]
    decide +kernel

end Store
end CollectionTree
