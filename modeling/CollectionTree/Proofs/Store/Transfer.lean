import CollectionTree.Proofs.Store.Feed

/-!
# From one store to another

What a store gathers and what another makes of the bytes. Gathering writes the longest prefix of the
ready entries that there is room for and marks the records that it wrote; a store that holds nothing
and takes the segment in holds the same keys and values afterwards, without combining any.

The main statement is `Store.feed_gather`.
-/

namespace CollectionTree

namespace Accumulator

/-- Ready entries have keys of the records, in order. -/
theorem keys_ready_sublist (urgentOnly : Bool) (records : List Record) :
    ((ready urgentOnly records).map Wire.Entry.key).Sublist (records.map Record.key) := by
  rw [ready, Record.map_key_map_entry]
  exact List.filter_sublist.map _

/-- Where keys are distinct, marking the first so many ready records marks the records about their
keys. -/
theorem markReady_eq_map {records : List Record} (distinct : (records.map Record.key).Nodup)
    (urgentOnly : Bool) (count : Nat) :
    markReady urgentOnly count records = records.map fun r ↦
      if r.key ∈ ((ready urgentOnly records).take count).map Wire.Entry.key
      then r.mark .pendingOnly else r := by
  induction records generalizing count with
  | nil => cases count <;> rfl
  | cons r rest ih =>
    obtain ⟨absent, restDistinct⟩ := List.nodup_cons.1 distinct
    cases count with
    | zero => simp [markReady]
    | succ count =>
      simp only [markReady]
      by_cases eligible : r.eligible urgentOnly = true
      · have head : ready urgentOnly (r :: rest) = r.entry :: ready urgentOnly rest := by
          simp [ready, eligible]
        rw [if_pos eligible, head, ih restDistinct, List.map_cons, List.take_succ_cons,
          List.map_cons, if_pos (by simp)]
        congr 1
        apply List.map_congr_left
        intro s hs
        have other : s.key ≠ r.key := fun same ↦ absent (same ▸ List.mem_map.2 ⟨s, hs, rfl⟩)
        simp [other]
      · have skip : ready urgentOnly (r :: rest) = ready urgentOnly rest := by
          simp [ready, eligible]
        have unmarked : r.key ∉
            ((ready urgentOnly rest).take (count + 1)).map Wire.Entry.key := by
          intro mem
          have sublist := (List.take_sublist (count + 1) (ready urgentOnly rest)).map Wire.Entry.key
          exact absent ((sublist.trans (keys_ready_sublist ..)).subset mem)
        rw [if_neg eligible, skip, ih restDistinct, List.map_cons, if_neg unmarked]

end Accumulator

namespace Store

/-! ## Taking in what is new -/

/-- The record that a store without one about its key makes of an entry. -/
def landed (urgent : Bool) (entry : Wire.Entry) : Record :=
  ⟨entry.key, entry.value, ⟨true, urgent, false⟩⟩

/-- What lands has the entry that was sent. -/
@[simp] theorem entry_landed (urgent : Bool) (entry : Wire.Entry) :
    (landed urgent entry).entry = entry := rfl

/-- What lands is a stored copy of the candidate. -/
@[simp] theorem storedCopy_candidateOf (urgent : Bool) (entry : Wire.Entry) :
    storedCopy (candidateOf urgent entry) = landed urgent entry := by
  cases urgent <;> rfl

/-- A candidate about a new key is stored where the ledger has room. -/
theorem emit_of_absent {store : Store} {candidate : Record}
    (absent : ∀ r ∈ store.records, r.key ≠ candidate.key)
    (room : store.ledger.allocated + candidate.footprint ≤ store.ledger.cap) :
    store.emit candidate = (.ok .inserted, { store with
      records := storedCopy candidate :: store.records
      ledger := { store.ledger with allocated := store.ledger.allocated + candidate.footprint }
      counters := store.counters.addEmitted }) := by
  have step := emitStep_emit store candidate
  have charged := (Ledger.charge_eq_ok_iff store.ledger _ candidate.footprint).2 ⟨room, rfl⟩
  generalize store.emit candidate = outcome at step ⊢
  cases step with
  | @merged before after r records first about =>
    exact absurd about (absent r (by simp [records]))
  | inserted _ paid =>
    obtain rfl := Except.ok.inj (paid.symm.trans charged)
    rfl
  | refused _ full => cases full.symm.trans charged

/-- Candidates about new keys are all stored, each in front of those before it, and none is combined
with another. -/
theorem emitAll_of_fresh {store : Store} {candidates : List Record}
    (distinct : (candidates.map Record.key).Nodup)
    (fresh : ∀ c ∈ candidates, ∀ r ∈ store.records, r.key ≠ c.key)
    (room : store.ledger.allocated + Record.footprints candidates ≤ store.ledger.cap) :
    (store.emitAll candidates).2.records = (candidates.map storedCopy).reverse ++ store.records ∧
      (store.emitAll candidates).2.counters.reduced = store.counters.reduced := by
  induction candidates generalizing store with
  | nil => exact ⟨rfl, rfl⟩
  | cons c rest ih =>
    obtain ⟨other, restDistinct⟩ := List.nodup_cons.1 distinct
    rw [Record.footprints, ← Nat.add_assoc] at room
    have stored := emit_of_absent (fresh c (by simp)) (Nat.le_of_add_right_le room)
    have restFresh : ∀ d ∈ rest, ∀ r ∈ (store.emit c).2.records, r.key ≠ d.key := by
      intro d hd r hr
      rw [stored] at hr
      rcases List.mem_cons.1 hr with rfl | hr
      · exact fun same ↦ other (List.mem_map.2 ⟨d, hd, same.symm⟩)
      · exact fresh d (by simp [hd]) r hr
    obtain ⟨records, reduced⟩ :=
      ih restDistinct restFresh (by simpa [stored, Ledger.cap] using room)
    rw [stored] at records reduced
    simp only [emitAll, stored]
    refine ⟨?_, reduced⟩
    rw [records]
    simp

/-- A segment for the store is taken in as far as its declared length, and its entries in turn. -/
theorem feed_segmentOf {store : Store} {entries : List Wire.Entry}
    (sized : Wire.SegmentSized entries) (trailing : Bytes) (urgent : Bool) :
    store.feed (Wire.segmentOf store.id entries ++ trailing) urgent =
      ((Wire.segmentOf store.id entries).length,
        (store.emitAll (entries.map (candidateOf urgent))).2) := by
  have owner : (Wire.headerOf store.id entries).owner = store.id := rfl
  simp only [feed, Wire.decode_segmentOf, owner, if_true,
    Wire.entries_parse_segmentOf store.id sized, Wire.declared_headerOf store.id sized,
    candidates_eq_map sized.stated]

/-- A store that holds nothing takes a segment with distinct keys in whole, whatever follows it. -/
theorem feed_of_empty {store : Store} {entries : List Wire.Entry}
    (sized : Wire.SegmentSized entries) (distinct : (entries.map Wire.Entry.key).Nodup)
    (trailing : Bytes) (urgent : Bool) (empty : store.records = [])
    (room : store.ledger.allocated + Record.footprints (entries.map (landed urgent)) ≤
      store.ledger.cap) :
    let fed := store.feed (Wire.segmentOf store.id entries ++ trailing) urgent
    fed.1 = (Wire.segmentOf store.id entries).length ∧
      fed.2.counters.reduced = store.counters.reduced ∧
      fed.2.records = (entries.map (landed urgent)).reverse := by
  have cost : Record.footprints (entries.map (candidateOf urgent)) =
      Record.footprints (entries.map (landed urgent)) := by
    apply Record.footprints_congr
    simp [Function.comp_def]
  have keys : ((entries.map (candidateOf urgent)).map Record.key).Nodup := by
    rw [← Record.map_key_map_entry]
    simpa [Function.comp_def] using distinct
  obtain ⟨records, reduced⟩ := emitAll_of_fresh keys (by simp [empty]) (cost ▸ room)
  rw [feed_segmentOf sized]
  refine ⟨rfl, reduced, ?_⟩
  rw [records, empty]
  simp [Function.comp_def]

/-! ## Gathering, then feeding -/

/-- With distinct keys, gathering marks exactly the records about the keys that it writes. -/
theorem gather_of_distinct {store : Store} (distinct : (store.records.map Record.key).Nodup)
    (room : Nat) (urgentOnly : Bool) :
    let taken := store.toAccumulator.gathered room urgentOnly
    store.gather room urgentOnly =
      (if taken = [] then [] else Wire.segmentOf store.id taken,
        { store with
          records := store.records.map fun r ↦
            if r.key ∈ taken.map Wire.Entry.key then r.mark .pendingOnly else r }) := by
  intro taken
  have isPrefix : taken <+: Accumulator.ready urgentOnly store.records :=
    Accumulator.fitting_prefix ..
  have whole : (Accumulator.ready urgentOnly store.records).take taken.length = taken :=
    (List.prefix_iff_eq_take.1 isPrefix).symm
  have marks := Accumulator.markReady_eq_map distinct urgentOnly taken.length
  rw [whole] at marks
  simp only [gather, Accumulator.gather_eq, Accumulator.marked]
  rw [marks]

/-- With distinct keys, gathering writes the longest prefix of the ready entries whose encodings fit
next to the header, marks exactly their records and changes nothing else, and writes no byte exactly
if that prefix is empty. Whatever follows the bytes, a store for the same id that holds nothing, and
whose ledger has no cap and counts on, takes in exactly their number; it combines nothing and then
holds those keys and values, all of them urgent or none, and none on its way. -/
theorem feed_gather (store : Store) (distinct : (store.records.map Record.key).Nodup)
    (room : Nat) (urgentOnly : Bool) :
    ∃ taken : List Wire.Entry,
      taken <+: Accumulator.ready urgentOnly store.records ∧
      (Wire.encodeAll taken).length ≤ min room 255 - 2 ∧
      (∀ fits, fits <+: Accumulator.ready urgentOnly store.records →
        (Wire.encodeAll fits).length ≤ min room 255 - 2 → fits <+: taken) ∧
      (store.gather room urgentOnly).1 =
        (if taken = [] then [] else Wire.segmentOf store.id taken) ∧
      ((store.gather room urgentOnly).1.length = 0 ↔ taken = []) ∧
      (store.gather room urgentOnly).2 = { store with
        records := store.records.map fun r ↦
          if r.key ∈ taken.map Wire.Entry.key then r.mark .pendingOnly else r } ∧
      ∀ (receiver : Store) (trailing : Bytes) (urgent : Bool), taken ≠ [] →
        receiver.id = store.id → receiver.records = [] → receiver.ledger.limit = none →
        receiver.ledger.allocated + Record.footprints (taken.map (landed urgent)) < ledgerModulus →
        let fed := receiver.feed ((store.gather room urgentOnly).1 ++ trailing) urgent
        fed.1 = (store.gather room urgentOnly).1.length ∧
          fed.2.counters.reduced = receiver.counters.reduced ∧
          fed.2.records = (taken.map (landed urgent)).reverse := by
  have gathered := gather_of_distinct distinct room urgentOnly
  have sized := store.toAccumulator.segmentSized_gathered room urgentOnly
  have isPrefix : store.toAccumulator.gathered room urgentOnly <+:
      Accumulator.ready urgentOnly store.records := Accumulator.fitting_prefix ..
  refine ⟨store.toAccumulator.gathered room urgentOnly, isPrefix,
    Accumulator.length_encodeAll_fitting .., fun fits h ↦ Accumulator.prefix_fitting h,
    ?_, ?_, ?_, ?_⟩
  · rw [gathered]
  · rw [gathered]
    split <;> simp_all [Wire.length_segmentOf, Wire.segmentHeaderLength]
  · rw [gathered]
  · intro receiver trailing urgent some sameId empty uncapped counts
    have keys : ((store.toAccumulator.gathered room urgentOnly).map Wire.Entry.key).Nodup := by
      have sublist := isPrefix.sublist.map Wire.Entry.key
      exact distinct.sublist (sublist.trans (Accumulator.keys_ready_sublist ..))
    have fits : receiver.ledger.allocated + Record.footprints
        ((store.toAccumulator.gathered room urgentOnly).map (landed urgent)) ≤
        receiver.ledger.cap := by
      rw [Ledger.cap, uncapped]
      exact Nat.le_sub_one_of_lt counts
    simp only [gathered, if_neg some, ← sameId]
    exact feed_of_empty sized keys trailing urgent empty fits

/-- Three readings about distinct keys, one of them urgent and one on its way. -/
def threeReadings : Store where
  id := 1
  job := { map := fun _ _ _ ↦ [], reduce := fun existing _ ↦ existing }
  records := [⟨[0x61], [1], ⟨true, false, false⟩⟩, ⟨[0x62], [], ⟨true, false, true⟩⟩,
    ⟨[], [3], ⟨true, true, false⟩⟩]

/-- The reading on its way stays behind, and the other two arrive. -/
theorem feed_gather_threeReadings :
    (threeReadings.records.map Record.key).Nodup ∧
      ∃ taken, taken = [⟨[0x61], [1]⟩, ⟨[], [3]⟩] ∧
        (threeReadings.gather 9 false).1 = Wire.segmentOf 1 taken ∧
        ({ threeReadings with records := [] }.feed
          ((threeReadings.gather 9 false).1 ++ [7]) true).2.records =
          [⟨[], [3], ⟨true, true, false⟩⟩, ⟨[0x61], [1], ⟨true, true, false⟩⟩] := by
  have distinct : (threeReadings.records.map Record.key).Nodup := by decide
  obtain ⟨taken, isPrefix, -, longest, bytes, -, -, feeds⟩ :=
    feed_gather threeReadings distinct 9 false
  have two : taken = [⟨[0x61], [1]⟩, ⟨[], [3]⟩] := by
    have ready : Accumulator.ready false threeReadings.records =
        [⟨[0x61], [1]⟩, ⟨[], [3]⟩] := by decide
    have all := longest [⟨[0x61], [1]⟩, ⟨[], [3]⟩] (by simp [ready]) (by decide)
    exact (ready ▸ isPrefix).eq_of_length_le all.length_le
  subst two
  rw [if_neg (by simp)] at bytes
  refine ⟨distinct, _, rfl, bytes, ?_⟩
  obtain ⟨-, -, records⟩ :=
    feeds { threeReadings with records := [] } [7] true (by simp) rfl rfl rfl (by decide)
  exact records

end Store

end CollectionTree
