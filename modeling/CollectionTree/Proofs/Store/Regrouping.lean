import CollectionTree.Proofs.Store.Books
import CollectionTree.Proofs.Store.Knowledge
import CollectionTree.Proofs.Store.Transfer
import CollectionTree.Workload.Bytewise

/-!
# Candidates in another order and over several stores

Some stores are drained into another one pass by pass: one of them gathers a segment, the other one
is fed with it, and what was gathered is removed. `Drained` states this for passes in any order.
What is left to move and what has arrived weigh the same throughout (`Draining.weigh_drained`), so
it does not matter over how many stores the candidates were spread at first.

The main statement is `unordered_emitAll`.
-/

namespace CollectionTree
namespace Store

/-! ## One pass -/

/-- A store after a segment was gathered from it and the records in the segment were removed. -/
def passed (source : Store) (room : Nat) (urgentOnly : Bool) : Store :=
  ((source.gather room urgentOnly).2.cleanup .pendingOnly).2

/-- A store after it was fed with a segment that was gathered from another. -/
def hearing (receiver source : Store) (room : Nat) (urgentOnly urgent : Bool) : Store :=
  (receiver.feed (source.gather room urgentOnly).1 urgent).2

/-- Nothing is on its way from the store. -/
def Free (store : Store) : Prop := Accumulator.pending store.records = []

/-- The entries of the records of some stores. -/
def entriesLeft (sources : List Store) : List Wire.Entry :=
  sources.flatMap fun source ↦ source.records.map Record.entry

/-- The first store's entries come first. -/
@[simp] theorem entriesLeft_cons (source : Store) (rest : List Store) :
    entriesLeft (source :: rest) = source.records.map Record.entry ++ entriesLeft rest := rfl

/-- The entries of some stores come before those of further ones. -/
@[simp] theorem entriesLeft_append (sources more : List Store) :
    entriesLeft (sources ++ more) = entriesLeft sources ++ entriesLeft more :=
  List.flatMap_append ..

variable {source receiver : Store}

/-- A pass keeps the id. -/
@[simp] theorem id_passed (source : Store) (room : Nat) (urgentOnly : Bool) :
    (source.passed room urgentOnly).id = source.id := by
  simp [passed, cleanup, gather, Accumulator.gather_eq]

/-- What a pass takes from a store is what was gathered; all else stays. -/
theorem Free.passed (free : source.Free) (room : Nat) (urgentOnly : Bool) :
    (source.passed room urgentOnly).Free ∧
      ((source.passed room urgentOnly).records.map Record.entry ++
        source.toAccumulator.gathered room urgentOnly).Perm (source.records.map Record.entry) := by
  have front : source.toAccumulator.gathered room urgentOnly <+:
      Accumulator.ready urgentOnly source.records := Accumulator.fitting_prefix ..
  generalize taken_def : source.toAccumulator.gathered room urgentOnly = taken at front
  have marked := Accumulator.pending_markReady_perm urgentOnly taken.length source.records
  have records : (source.passed room urgentOnly).records =
      (Accumulator.markReady urgentOnly taken.length source.records).filter (!·.isPending) := by
    simp [Store.passed, cleanup, gather, Accumulator.gather_eq, Accumulator.marked, taken_def,
      List.partition_eq_filter_filter, Function.comp_def]
  rw [free, List.map_nil, List.nil_append, ← List.prefix_iff_eq_take.1 front] at marked
  refine ⟨by simp [Free, records, Accumulator.pending], ?_⟩
  have parts := (List.filter_append_perm (·.isPending)
    (Accumulator.markReady urgentOnly taken.length source.records)).map Record.entry
  rw [List.map_append, Accumulator.map_entry_markReady] at parts
  rw [records]
  exact (List.perm_append_comm.trans (marked.symm.append_right _)).trans parts

/-- What a pass hands to a store is taken in there. -/
theorem hearing_eq (sameId : receiver.id = source.id) (room : Nat) (urgentOnly urgent : Bool) :
    receiver.hearing source room urgentOnly urgent =
      (receiver.emitAll
        ((source.toAccumulator.gathered room urgentOnly).map (candidateOf urgent))).2 := by
  have sized := source.toAccumulator.segmentSized_gathered room urgentOnly
  simp only [hearing, gather, Accumulator.gather_eq]
  split
  · next empty => simp [empty, feed, Wire.SegmentHeader.decode, emitAll]
  · have fed : receiver.feed (Wire.segmentOf receiver.id _ ++ []) urgent = _ :=
      feed_segmentOf sized [] urgent
    rw [List.append_nil, sameId] at fed
    rw [fed]

/-- A store whose first record fits gives something away. -/
theorem gathered_ne_nil (free : source.Free) {room : Nat} (some : source.records ≠ [])
    (fits : ∀ r ∈ source.records,
      Wire.segmentHeaderLength + r.entry.length ≤ min room Wire.maxFieldLength) :
    source.toAccumulator.gathered room false ≠ [] := by
  obtain ⟨r, rest, records⟩ := List.exists_cons_of_ne_nil some
  have idle : r.isPending = false := by
    cases pending : r.isPending with
    | false => rfl
    | true => simp [Free, records, Accumulator.pending, pending] at free
  have first := fits r (by simp [records])
  have ready : Accumulator.ready false source.records =
      r.entry :: Accumulator.ready false rest := by
    simp [Accumulator.ready, records, Record.eligible, idle]
  rw [Accumulator.gathered, ready, Accumulator.fitting, if_pos (by omega)]
  simp

/-! ## Passes in any order -/

/-- Some stores are drained into another one, which is last as stated. Each pass is made with a
buffer of so many bytes, from any of the stores, of all its records or of the urgent ones, and heard
as urgent or not. -/
inductive Drained (room : Nat) : List Store → Store → Store → Prop
  | done {sources : List Store} {receiver : Store}
      (empty : ∀ source ∈ sources, source.records = []) : Drained room sources receiver receiver
  | pass {before after : List Store} {source receiver last : Store} (urgentOnly urgent : Bool)
      (more : Drained room (before ++ source.passed room urgentOnly :: after)
        (receiver.hearing source room urgentOnly urgent) last) :
      Drained room (before ++ source :: after) receiver last

private theorem entriesLeft_passed (free : source.Free) (room : Nat) (urgentOnly : Bool)
    (before after : List Store) :
    (entriesLeft (before ++ source.passed room urgentOnly :: after) ++
      source.toAccumulator.gathered room urgentOnly).Perm
      (entriesLeft (before ++ source :: after)) := by
  have moved := (free.passed room urgentOnly).2
  simp only [entriesLeft_append, entriesLeft_cons, List.append_assoc]
  refine List.Perm.append_left _ ?_
  calc List.Perm _ ((source.passed room urgentOnly).records.map Record.entry ++
        (source.toAccumulator.gathered room urgentOnly ++ entriesLeft after)) :=
      List.perm_append_comm.append_left _
    List.Perm _ (source.records.map Record.entry ++ entriesLeft after) := by
      rw [← List.append_assoc]
      exact moved.append_right _

private theorem forall_mem_passed {P : Store → Prop} {before after : List Store} {part : Store}
    (h : ∀ s ∈ before ++ source :: after, P s) (here : P part) :
    ∀ s ∈ before ++ part :: after, P s := by
  intro s hs
  rcases List.mem_append.1 hs with hs | hs
  · exact h s (by simp [hs])
  · rcases List.mem_cons.1 hs with rfl | hs
    · exact here
    · exact h s (by simp [hs])

/-- Stores can be drained as long as every record fits into the buffer: each pass from a store that
is not empty leaves fewer records. -/
theorem exists_drained {room : Nat} {sources : List Store} (free : ∀ s ∈ sources, s.Free)
    (fits : ∀ e ∈ entriesLeft sources,
      Wire.segmentHeaderLength + e.length ≤ min room Wire.maxFieldLength) (receiver : Store) :
    ∃ last, Drained room sources receiver last := by
  induction left : (entriesLeft sources).length using Nat.strong_induction_on
    generalizing sources receiver with
  | _ count ih =>
    by_cases empty : ∀ source ∈ sources, source.records = []
    · exact ⟨receiver, .done empty⟩
    · simp only [not_forall] at empty
      obtain ⟨source, mem, some⟩ := empty
      obtain ⟨before, after, rfl⟩ := List.append_of_mem mem
      have idle := free source (by simp)
      have moved := entriesLeft_passed idle room false before after
      have nonempty := gathered_ne_nil idle some fun r hr ↦
        fits r.entry (by simpa using .inr (.inl ⟨r, hr, rfl⟩))
      have fewer : (entriesLeft (before ++ source.passed room false :: after)).length < count := by
        rw [← left, ← moved.length_eq, List.length_append]
        exact Nat.lt_add_of_pos_right (List.length_pos_iff.2 nonempty)
      have freeAfter := forall_mem_passed free (idle.passed room false).1
      have fitsAfter : ∀ e ∈ entriesLeft (before ++ source.passed room false :: after),
          Wire.segmentHeaderLength + e.length ≤ min room Wire.maxFieldLength := fun e he ↦
        fits e (moved.subset (List.mem_append_left _ he))
      obtain ⟨last, drained⟩ := ih _ fewer freeAfter fitsAfter
        (receiver.hearing source room false false) rfl
      exact ⟨last, .pass false false drained⟩

/-! ## What arrives -/

/-- Some stores can be drained into another: they are for its id, have nothing on its way, and all
that they hold can be told apart, combined and charged there. -/
structure Draining (job : Job) (width : Bytes → Nat) (sources : List Store) (receiver : Store) :
    Prop where
  job : receiver.job = job
  ids : ∀ s ∈ sources, s.id = receiver.id
  free : ∀ s ∈ sources, s.Free
  distinct : (receiver.records.map Record.key).Nodup
  wide : ∀ r ∈ receiver.records, Wide width r.entry
  wideLeft : ∀ e ∈ entriesLeft sources, Wide width e
  counts : receiver.ledger.Counts (weighEntries entryCost (entriesLeft sources))

section

variable {job : Job} {op : Bytes → Bytes → Bytes} {width : Bytes → Nat} {room : Nat}
  {before after sources : List Store} {last : Store}

private theorem weighEntries_perm {M : Type} [AddCommMonoid M] (weight : Wire.Entry → M)
    {entries others : List Wire.Entry} (h : entries.Perm others) :
    weighEntries weight entries = weighEntries weight others :=
  (h.map weight).sum_eq

private theorem weigh_map_candidateOf {M : Type} [AddCommMonoid M] (weight : Wire.Entry → M)
    (urgent : Bool) (entries : List Wire.Entry) :
    weigh weight (entries.map (candidateOf urgent)) = weighEntries weight entries := by
  simp [weigh, Function.comp_def]

/-- A ledger that can count all that is left can count what a pass hands over, and then the rest. -/
theorem counts_handed {ledger : Ledger} {left rest taken : List Wire.Entry}
    (moved : (rest ++ taken).Perm left) (counts : ledger.Counts (weighEntries entryCost left))
    (urgent : Bool) :
    ledger.Counts (Record.footprints (taken.map (candidateOf urgent)) +
      weighEntries entryCost rest) := by
  rw [← weigh_entryCost, weigh_map_candidateOf, Nat.add_comm, ← weighEntries_append,
    weighEntries_perm entryCost moved]
  exact counts

/-- A pass leaves what is needed to go on, and what was moved weighs the same in its new place. -/
theorem Draining.pass (combining : job.CombinesBy op width)
    (h : Draining job width (before ++ source :: after) receiver) (urgentOnly urgent : Bool) :
    Draining job width (before ++ source.passed room urgentOnly :: after)
        (receiver.hearing source room urgentOnly urgent) ∧
      ∀ key, weigh (weightUnder (combining.combines key))
          (receiver.hearing source room urgentOnly urgent).records +
          weighEntries (weightUnder (combining.combines key))
            (entriesLeft (before ++ source.passed room urgentOnly :: after)) =
        weigh (weightUnder (combining.combines key)) receiver.records +
          weighEntries (weightUnder (combining.combines key))
            (entriesLeft (before ++ source :: after)) := by
  have sameId : receiver.id = source.id := (h.ids source (by simp)).symm
  have free := h.free source (by simp)
  have moved := entriesLeft_passed free room urgentOnly before after
  have combines : receiver.job.CombinesBy op width := h.job ▸ combining
  rw [hearing_eq sameId]
  generalize source.toAccumulator.gathered room urgentOnly = taken at moved
  have wideTaken : ∀ c ∈ taken.map (candidateOf urgent), Wide width c.entry := by
    intro c hc
    obtain ⟨e, he, rfl⟩ := List.mem_map.1 hc
    rw [entry_candidateOf]
    exact h.wideLeft e (moved.subset (List.mem_append_right _ he))
  obtain ⟨all, left⟩ := counts_emitAll (counts_handed moved h.counts urgent)
  refine ⟨⟨?_, ?_, ?_, ?_, ?_, ?_, left⟩, ?_⟩
  · rw [job_emitAll, h.job]
  · rw [id_emitAll]
    exact forall_mem_passed (P := fun s ↦ s.id = receiver.id) h.ids
      ((id_passed ..).trans sameId.symm)
  · exact forall_mem_passed h.free (free.passed room urgentOnly).1
  · exact nodup_keys_emitAll receiver combines.keeps h.distinct _
  · exact valid_emitAll (combines.additive []) h.wide wideTaken
  · exact fun e he ↦ h.wideLeft e (moved.subset (List.mem_append_left _ he))
  · intro key
    have additive : receiver.job.Additive (Wide width) (weightUnder (combining.combines key)) :=
      combines.additive key
    have gained := weigh_emitAll additive h.wide wideTaken
    rw [all, weigh_map_candidateOf] at gained
    rw [gained, ← weighEntries_perm _ moved, weighEntries_append]
    ac_rfl

/-- What arrives weighs what was left to move. -/
theorem Draining.weigh_drained (combining : job.CombinesBy op width)
    (h : Draining job width sources receiver) (drained : Drained room sources receiver last) :
    (last.records.map Record.key).Nodup ∧ (∀ r ∈ last.records, Wide width r.entry) ∧
      ∀ key, weigh (weightUnder (combining.combines key)) last.records =
        weigh (weightUnder (combining.combines key)) receiver.records +
          weighEntries (weightUnder (combining.combines key)) (entriesLeft sources) := by
  induction drained with
  | @done sources receiver empty =>
    have nothing : entriesLeft sources = [] := by
      simpa [entriesLeft] using empty
    exact ⟨h.distinct, h.wide, by simp [nothing]⟩
  | pass urgentOnly urgent more ih =>
    obtain ⟨next, same⟩ := h.pass combining urgentOnly urgent
    obtain ⟨distinct, wide, weighs⟩ := ih next
    exact ⟨distinct, wide, fun key ↦ (weighs key).trans (same key)⟩

/-! ## Candidates spread over stores -/

/-- Folding changes neither the key nor the length of the value. -/
theorem key_and_length_fold (combining : job.CombinesBy op width) {candidate r : Record}
    (wide : Wide width r.entry) (wide' : Wide width candidate.entry)
    (about : r.key = candidate.key) :
    (job.fold candidate r).entry.key = r.key ∧
      (job.fold candidate r).entry.value.length = r.value.length := by
  have kept := combining.keeps.key_fold candidate r
  have after : Wide width (job.fold candidate r).entry :=
    (combining.additive []).valid_fold wide wide' about
  refine ⟨kept, ?_⟩
  rw [after, Record.entry_key, kept]
  exact wide.symm

private theorem cost_emit_le {store : Store} (combining : store.job.CombinesBy op width)
    (wide : ∀ r ∈ store.records, Wide width r.entry) {candidate : Record}
    (wide' : Wide width candidate.entry) :
    weigh entryCost (store.emit candidate).2.records ≤
      weigh entryCost store.records + entryCost candidate.entry := by
  have step := emitStep_emit store candidate
  generalize store.emit candidate = outcome at step ⊢
  cases step with
  | @merged before after r records first about =>
    obtain ⟨key, length⟩ := key_and_length_fold combining (wide r (by simp [records])) wide' about
    have cost : entryCost (store.job.fold candidate r).entry = entryCost r.entry := by
      rw [entryCost, entryCost, key, length]
      rfl
    simp only [records, weigh_append, weigh_cons, cost]
    omega
  | inserted absent charged => simp [Nat.add_comm]
  | refused absent full => exact Nat.le_add_right ..

/-- Candidates add at most what they cost. -/
theorem cost_emitAll_le {store : Store} (combining : store.job.CombinesBy op width)
    (wide : ∀ r ∈ store.records, Wide width r.entry) {candidates : List Record}
    (wideCandidates : ∀ c ∈ candidates, Wide width c.entry) :
    weigh entryCost (store.emitAll candidates).2.records ≤
      weigh entryCost store.records + weigh entryCost candidates := by
  induction candidates generalizing store with
  | nil => exact Nat.le_add_right ..
  | cons c rest ih =>
    have wideFirst := wideCandidates c (by simp)
    have first := cost_emit_le combining wide wideFirst
    have combining' : (store.emit c).2.job.CombinesBy op width := by simpa using combining
    have wide' := forall_mem_emit (P := fun r ↦ Wide width r.entry)
      (fun r hr about ↦ (combining.additive []).valid_fold hr wideFirst about) wideFirst wide
    have later := ih combining' wide' fun d hd ↦ wideCandidates d (by simp [hd])
    rw [weigh_cons, emitAll]
    exact later.trans (by omega)

/-- A store for an id that holds nothing, with a ledger that can count so many bytes. -/
structure Blank (job : Job) (id : UInt8) (bytes : Nat) (store : Store) : Prop where
  job : store.job = job
  id : store.id = id
  empty : store.records = []
  counts : store.ledger.Counts bytes

/-- Some stores that took in candidates each. -/
def spread (pieces : List (Store × List Record)) : List Store :=
  pieces.map fun piece ↦ (piece.1.emitAll piece.2).2

variable {id : UInt8} {pieces : List (Store × List Record)} {candidates others : List Record}

/-- What a blank store makes of candidates can be drained, and costs and weighs no more than they.
-/
theorem Blank.emitted {store : Store} (combining : job.CombinesBy op width)
    (blank : store.Blank job id (Record.footprints candidates))
    (wide : ∀ c ∈ candidates, Wide width c.entry) :
    (store.emitAll candidates).2.id = id ∧ (store.emitAll candidates).2.Free ∧
      (∀ r ∈ (store.emitAll candidates).2.records, Wide width r.entry) ∧
      weigh entryCost (store.emitAll candidates).2.records ≤ weigh entryCost candidates ∧
      ∀ key, weigh (weightUnder (combining.combines key)) (store.emitAll candidates).2.records =
        weigh (weightUnder (combining.combines key)) candidates := by
  obtain ⟨rfl, rfl, empty, counts⟩ := blank
  have wideNone : ∀ r ∈ store.records, Wide width r.entry := by simp [empty]
  have free := keys_pending_emitAll store combining.keeps candidates
  have cost := cost_emitAll_le combining wideNone wide
  rw [empty] at free cost
  refine ⟨id_emitAll .., List.map_eq_nil_iff.1 free, ?_, by simpa using cost, ?_⟩
  · exact valid_emitAll (combining.additive []) wideNone wide
  · intro key
    rw [weigh_emitAll (combining.additive key) wideNone wide, empty, accepted_of_counts counts,
      weigh_nil, zero_add]

/-- An entry fits afterwards if all candidates fit. -/
theorem Blank.fits_emitted {store : Store} (combining : job.CombinesBy op width)
    (blank : store.Blank job id (Record.footprints candidates))
    (wide : ∀ c ∈ candidates, Wide width c.entry) {most : Nat}
    (fits : ∀ c ∈ candidates, Wire.segmentHeaderLength + c.entry.length ≤ most) :
    ∀ r ∈ (store.emitAll candidates).2.records,
      Wire.segmentHeaderLength + r.entry.length ≤ most := by
  obtain ⟨rfl, rfl, empty, -⟩ := blank
  have both : ∀ r ∈ (store.emitAll candidates).2.records,
      Wide width r.entry ∧ Wire.segmentHeaderLength + r.entry.length ≤ most := by
    refine forall_mem_emitAll
      (P := fun r ↦ Wide width r.entry ∧ Wire.segmentHeaderLength + r.entry.length ≤ most) ?_
      (fun c hc ↦ ⟨wide c hc, fits c hc⟩) (by simp [empty])
    intro c hc r hr about
    obtain ⟨key, length⟩ := key_and_length_fold combining hr.1 (wide c hc) about
    refine ⟨(combining.additive []).valid_fold hr.1 (wide c hc) about, ?_⟩
    have before := hr.2
    rw [Wire.length_entry] at before ⊢
    rw [key, length]
    exact before
  exact fun r hr ↦ (both r hr).2

/-- Spreading candidates over blank stores loses nothing, and all of it can be drained. -/
theorem spread_blank (combining : job.CombinesBy op width)
    (blank : ∀ piece ∈ pieces, piece.1.Blank job id (Record.footprints piece.2))
    (wide : ∀ c ∈ pieces.flatMap Prod.snd, Wide width c.entry) :
    (∀ s ∈ spread pieces, s.id = id ∧ s.Free) ∧
      (∀ e ∈ entriesLeft (spread pieces), Wide width e) ∧
      weighEntries entryCost (entriesLeft (spread pieces)) ≤
        weigh entryCost (pieces.flatMap Prod.snd) ∧
      ∀ key, weighEntries (weightUnder (combining.combines key)) (entriesLeft (spread pieces)) =
        weigh (weightUnder (combining.combines key)) (pieces.flatMap Prod.snd) := by
  induction pieces with
  | nil => simp [spread, entriesLeft]
  | cons piece rest ih =>
    have wideHere : ∀ c ∈ piece.2, Wide width c.entry := fun c hc ↦ wide c (by simp [hc])
    obtain ⟨sameId, free, wideKept, cost, weighs⟩ :=
      (blank piece (by simp)).emitted combining wideHere
    obtain ⟨others, wideLeft, costLeft, weighsLeft⟩ :=
      ih (fun p hp ↦ blank p (by simp [hp])) fun c hc ↦ wide c (by
        rw [List.flatMap_cons]
        exact List.mem_append_right _ hc)
    have head : spread (piece :: rest) = (piece.1.emitAll piece.2).2 :: spread rest := rfl
    rw [head, entriesLeft_cons, List.flatMap_cons]
    refine ⟨List.forall_mem_cons.2 ⟨⟨sameId, free⟩, others⟩, ?_, ?_, ?_⟩
    · intro e he
      rcases List.mem_append.1 he with he | he
      · obtain ⟨r, hr, rfl⟩ := List.mem_map.1 he
        exact wideKept r hr
      · exact wideLeft e he
    · rw [weighEntries_append, weigh_append]
      exact Nat.add_le_add cost costLeft
    · intro key
      rw [weighEntries_append, weigh_append, weighsLeft key]
      exact congrArg (· + _) (weighs key)

/-! ## Order and grouping -/

private theorem weigh_perm {M : Type} [AddCommMonoid M] (weight : Wire.Entry → M)
    (h : others.Perm candidates) : weigh weight others = weigh weight candidates :=
  weighEntries_perm weight (h.map Record.entry)

private theorem footprints_perm (h : others.Perm candidates) :
    Record.footprints others = Record.footprints candidates := by
  rw [← weigh_entryCost, ← weigh_entryCost, weigh_perm entryCost h]

/-- Candidates in another order leave the same known of every key. -/
theorem known_emitAll_perm {store : Store} (combining : store.job.CombinesBy op width)
    (distinct : (store.records.map Record.key).Nodup)
    (wideRecords : ∀ r ∈ store.records, Wide width r.entry)
    (wide : ∀ c ∈ candidates, Wide width c.entry)
    (counts : store.ledger.Counts (Record.footprints candidates)) (h : others.Perm candidates)
    (key : Bytes) :
    (store.emitAll others).2.known key = (store.emitAll candidates).2.known key := by
  have wideOthers : ∀ c ∈ others, Wide width c.entry := fun c hc ↦ wide c (h.subset hc)
  have countsOthers : store.ledger.Counts (Record.footprints others) := by
    rwa [footprints_perm h]
  have all : (store.records ++ others).Perm (store.records ++ candidates) := h.append_left _
  have wideAll : ∀ e ∈ (store.records ++ candidates).map Record.entry, Wide width e := by
    simpa [or_imp, forall_and] using And.intro wideRecords wide
  have values := total_under_eq (combining.combines key)
    (fun e he ↦ wideAll e ((all.map Record.entry).subset he)) wideAll
    (weigh_perm (weightUnder (combining.combines key)) all)
  have urgent : urgentAbout key (store.records ++ others) =
      urgentAbout key (store.records ++ candidates) := all.any_eq
  rw [known_emitAll combining distinct wideRecords wideOthers countsOthers,
    known_emitAll combining distinct wideRecords wide counts, values, urgent]

private theorem find?_value_eq_total {acc : Accumulator}
    (distinct : (acc.records.map Record.key).Nodup) (op : Bytes → Bytes → Bytes) (key : Bytes) :
    (acc.find? key).map Record.value = total op (under key (acc.records.map Record.entry)) := by
  have value : (acc.find? key).map Record.value = (acc.known key).map Prod.fst := by
    rw [Accumulator.known, Option.map_map]
    rfl
  rw [value, Accumulator.known_eq_total distinct op, Option.map_map]
  exact Option.map_id'

/-- Candidates that were spread over blank stores and drained into one have the values there that
they have where they were all taken in by one store. -/
theorem find?_drained (combining : job.CombinesBy op width)
    (wide : ∀ c ∈ candidates, Wide width c.entry)
    (split : (pieces.flatMap Prod.snd).Perm candidates)
    (blank : ∀ piece ∈ pieces, piece.1.Blank job id (Record.footprints piece.2))
    {whole : Store} (ready : receiver.Blank job id (Record.footprints candidates))
    (ready' : whole.Blank job id (Record.footprints candidates))
    (drained : Drained room (spread pieces) receiver last) (key : Bytes) :
    (last.find? key).map Record.value =
      ((whole.emitAll candidates).2.find? key).map Record.value := by
  obtain ⟨spreads, wideLeft, cost, weighs⟩ := spread_blank combining blank fun c hc ↦
    wide c (split.subset hc)
  have counts : receiver.ledger.Counts (weighEntries entryCost (entriesLeft (spread pieces))) := by
    refine ready.counts.mono ?_
    rw [← footprints_perm split, ← weigh_entryCost]
    exact cost
  have draining : Draining job width (spread pieces) receiver :=
    ⟨ready.job, fun s hs ↦ (spreads s hs).1.trans ready.id.symm, fun s hs ↦ (spreads s hs).2,
      by simp [ready.empty], by simp [ready.empty], wideLeft, counts⟩
  obtain ⟨distinct, wideLast, arrived⟩ := draining.weigh_drained combining drained
  obtain ⟨-, -, wideWhole, -, emitted⟩ := ready'.emitted combining wide
  have distinctWhole : ((whole.emitAll candidates).2.records.map Record.key).Nodup := by
    refine nodup_keys_emitAll whole ?_ (by simp [ready'.empty]) candidates
    rw [ready'.job]
    exact combining.keeps
  rw [find?_value_eq_total distinct op, find?_value_eq_total distinctWhole op]
  refine total_under_eq (combining.combines key) (by simpa using wideLast)
    (by simpa using wideWhole) ?_
  calc weigh (weightUnder (combining.combines key)) last.records
    _ = weighEntries (weightUnder (combining.combines key)) (entriesLeft (spread pieces)) := by
      rw [arrived key, ready.empty, weigh_nil, zero_add]
    _ = weigh (weightUnder (combining.combines key)) candidates := by
      rw [weighs key, weigh_perm _ split]
    _ = weigh (weightUnder (combining.combines key)) (whole.emitAll candidates).2.records :=
      (emitted key).symm

private theorem exists_drained_spread (combining : job.CombinesBy op width)
    (wide : ∀ c ∈ candidates, Wide width c.entry)
    (split : (pieces.flatMap Prod.snd).Perm candidates)
    (blank : ∀ piece ∈ pieces, piece.1.Blank job id (Record.footprints piece.2))
    (fits : ∀ c ∈ candidates,
      Wire.segmentHeaderLength + c.entry.length ≤ min room Wire.maxFieldLength) :
    ∃ last, Drained room (spread pieces) receiver last := by
  obtain ⟨spreads, -⟩ := spread_blank combining blank fun c hc ↦ wide c (split.subset hc)
  refine exists_drained (fun s hs ↦ (spreads s hs).2) ?_ receiver
  intro e he
  obtain ⟨s, hs, he⟩ := List.mem_flatMap.1 he
  obtain ⟨piece, mem, rfl⟩ := List.mem_map.1 hs
  obtain ⟨r, hr, rfl⟩ := List.mem_map.1 he
  have here : ∀ c ∈ piece.2, c ∈ candidates := fun c hc ↦
    split.subset (List.mem_flatMap.2 ⟨piece, mem, hc⟩)
  exact (blank piece mem).fits_emitted combining (fun c hc ↦ wide c (here c hc))
    (fun c hc ↦ fits c (here c hc)) r hr

/-- For a job that combines values of one length for each key by a commutative and associative
operation, and where ledgers refuse nothing: candidates in another order leave the same keys in a
store and the same known of each. And where the candidates are spread over blank stores and these
drained into one, every key has the value there that it has in a store that took all of them in;
they can be drained if every candidate fits into the buffer. -/
theorem unordered_emitAll (combining : job.CombinesBy op width)
    (wide : ∀ c ∈ candidates, Wide width c.entry) :
    (∀ (store : Store) (others : List Record), store.job = job →
      (store.records.map Record.key).Nodup → (∀ r ∈ store.records, Wide width r.entry) →
      store.ledger.Counts (Record.footprints candidates) → others.Perm candidates →
      (∀ key, key ∈ (store.emitAll others).2.records.map Record.key ↔
        key ∈ (store.emitAll candidates).2.records.map Record.key) ∧
      ∀ key, (store.emitAll others).2.known key = (store.emitAll candidates).2.known key) ∧
    ∀ (id : UInt8) (room : Nat) (pieces : List (Store × List Record)) (receiver whole : Store),
      (pieces.flatMap Prod.snd).Perm candidates →
      (∀ piece ∈ pieces, piece.1.Blank job id (Record.footprints piece.2)) →
      receiver.Blank job id (Record.footprints candidates) →
      whole.Blank job id (Record.footprints candidates) →
      (∀ last, Drained room (spread pieces) receiver last → ∀ key,
        (last.find? key).map Record.value =
          ((whole.emitAll candidates).2.find? key).map Record.value) ∧
      ((∀ c ∈ candidates,
          Wire.segmentHeaderLength + c.entry.length ≤ min room Wire.maxFieldLength) →
        ∃ last, Drained room (spread pieces) receiver last) := by
  refine ⟨?_, ?_⟩
  · rintro store others rfl distinct wideRecords counts h
    have countsOthers : store.ledger.Counts (Record.footprints others) := by
      rwa [footprints_perm h]
    refine ⟨fun key ↦ ?_, known_emitAll_perm combining distinct wideRecords wide counts h⟩
    rw [mem_keys_emitAll_of_counts combining.keeps countsOthers,
      mem_keys_emitAll_of_counts combining.keeps counts]
    exact ((h.append_left _).map Record.key).mem_iff
  · intro id room pieces receiver whole split blank ready ready'
    exact ⟨fun last drained ↦ find?_drained combining wide split blank ready ready' drained,
      exists_drained_spread combining wide split blank⟩

end

/-! ## Sums byte by byte -/

private theorem mergeWith_of_length_eq (combine : UInt8 → UInt8 → UInt8) {a b : Bytes}
    (h : a.length = b.length) : Bytes.mergeWith combine a b = List.zipWith combine a b := by
  simp [Bytes.mergeWith, ← h]

/-- Byte by byte, strings of one length are combined like bytes. -/
theorem combines_mergeWith {combine : UInt8 → UInt8 → UInt8}
    (comm : ∀ a b, combine a b = combine b a)
    (assoc : ∀ a b c, combine (combine a b) c = combine a (combine b c)) (width : Nat) :
    Combines (Bytes.mergeWith combine) width where
  length a b ha hb := by rw [Bytes.length_mergeWith, ha]
  comm a b ha hb := by
    rw [mergeWith_of_length_eq combine (ha.trans hb.symm),
      mergeWith_of_length_eq combine (hb.trans ha.symm), List.zipWith_comm_of_comm comm]
  assoc a b c ha hb hc := by
    have left : (Bytes.mergeWith combine a b).length = c.length := by
      rw [Bytes.length_mergeWith, ha, hc]
    have right : a.length = (Bytes.mergeWith combine b c).length := by
      rw [Bytes.length_mergeWith, ha, hb]
    rw [mergeWith_of_length_eq combine left, mergeWith_of_length_eq combine right,
      mergeWith_of_length_eq combine (ha.trans hb.symm),
      mergeWith_of_length_eq combine (hb.trans hc.symm)]
    apply List.ext_getElem
    · simp [ha, hb, hc]
    · intro i _ _
      simp [assoc]

private theorem combinesBy_sum (width : Bytes → Nat) :
    Bytewise.sum.CombinesBy (Bytes.mergeWith (· + ·)) width where
  keeps _ _ := ⟨rfl, rfl⟩
  reduce _ _ _ _ := rfl
  combines key := combines_mergeWith UInt8.add_comm UInt8.add_assoc (width key)

/-- A store for sums that holds nothing. -/
def blankSum : Store := { id := 1, job := Bytewise.sum }

/-- Three summands, two of them under one key, and one urgent. -/
def threeSummands : List Record :=
  [⟨[97], [1], {}⟩, ⟨[98], [2], .urgentOnly⟩, ⟨[97], [3], {}⟩]

/-- The summands over two stores. -/
def spreadSummands : List (Store × List Record) :=
  [(blankSum, threeSummands.take 1), (blankSum, threeSummands.drop 1)]

/-- Backwards they give the same sums, and so they do from two stores, for which a buffer of six
bytes is enough. -/
theorem unordered_threeSummands :
    (∀ key, (blankSum.emitAll threeSummands.reverse).2.known key =
      (blankSum.emitAll threeSummands).2.known key) ∧
    ∃ last, Drained 6 (spread spreadSummands) blankSum last ∧
      (last.find? [97]).map Record.value = some [4] := by
  have wide : ∀ c ∈ threeSummands, Wide (fun _ ↦ 1) c.entry := by decide
  have ready (part : List Record) (few : Record.footprints part < ledgerModulus) :
      blankSum.Blank Bytewise.sum 1 (Record.footprints part) :=
    ⟨rfl, rfl, rfl, rfl, by simpa [blankSum] using few⟩
  have blank := ready threeSummands (by decide)
  have pieces : ∀ piece ∈ spreadSummands,
      piece.1.Blank Bytewise.sum 1 (Record.footprints piece.2) := by
    intro piece mem
    rcases List.mem_pair.1 mem with rfl | rfl
    · exact ready _ (by decide)
    · exact ready _ (by decide)
  obtain ⟨reordered, regrouped⟩ := unordered_emitAll (combinesBy_sum fun _ ↦ 1) wide
  obtain ⟨values, drains⟩ := regrouped 1 6 spreadSummands blankSum blankSum (.refl _) pieces
    blank blank
  obtain ⟨last, drained⟩ := drains (by decide)
  refine ⟨(reordered blankSum threeSummands.reverse rfl (by decide)
    (by simp [blankSum]) blank.counts (List.reverse_perm _)).2, last, drained, ?_⟩
  rw [values last drained]
  decide

end Store
end CollectionTree
