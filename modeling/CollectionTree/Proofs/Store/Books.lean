import CollectionTree.Proofs.Store.Weight
import Mathlib.Data.Nat.Digits.Lemmas

/-!
# What stored records can cost

Where all keys of a job have one length and all values have another, distinct keys bound what its
records cost, however much was taken in. So a ledger without a cap never refuses a record:
`Balanced.accepted`.
-/

namespace CollectionTree

/-! ## Keys of one length -/

/-- The number whose digits, least first, are the bytes. -/
def Bytes.number (bytes : Bytes) : Nat := Nat.ofDigits 256 (bytes.map UInt8.toNat)

namespace Bytes

private theorem digit_lt (bytes : Bytes) : ∀ digit ∈ bytes.map UInt8.toNat, digit < 256 := by
  intro digit hdigit
  obtain ⟨byte, -, rfl⟩ := List.mem_map.1 hdigit
  exact byte.toNat_lt

private theorem number_lt (bytes : Bytes) : bytes.number < 256 ^ bytes.length := by
  have h := Nat.ofDigits_lt_base_pow_length (by decide : 1 < 256) bytes.digit_lt
  rwa [List.length_map] at h

private theorem eq_of_number_eq {a b : Bytes} (length : a.length = b.length)
    (h : a.number = b.number) :
    a = b := by
  have digits := Nat.ofDigits_inj_of_len_eq (by decide : 1 < 256)
    (by rwa [List.length_map, List.length_map]) a.digit_lt b.digit_lt h
  exact (List.map_inj_right fun _ _ same ↦ UInt8.toNat_inj.1 same).1 digits

/-- There are no more strings of one length than numbers with so many digits. -/
theorem length_le_of_nodup {strings : List Bytes} {width : Nat} (nodup : strings.Nodup)
    (wide : ∀ s ∈ strings, s.length = width) : strings.length ≤ 256 ^ width := by
  have distinct : (strings.map number).Nodup := by
    refine List.Nodup.map_on ?_ nodup
    intro a ha b hb same
    exact eq_of_number_eq ((wide a ha).trans (wide b hb).symm) same
  have below : strings.map number ⊆ List.range (256 ^ width) := by
    intro m hm
    obtain ⟨s, hs, rfl⟩ := List.mem_map.1 hm
    rw [List.mem_range, ← wide s hs]
    exact s.number_lt
  have short := (distinct.subperm below).length_le
  rwa [List.length_map, List.length_range] at short

end Bytes

/-- The lengths of a job's keys and values. -/
structure Shape where
  key : Nat
  value : Nat

namespace Shape

/-- The entry has these lengths. -/
def Fits (shape : Shape) (entry : Wire.Entry) : Prop :=
  entry.key.length = shape.key ∧ entry.value.length = shape.value

/-- What one record costs. -/
def each (shape : Shape) : Nat := recordOverhead + (shape.key + shape.value)

/-- What records with distinct keys cost at most. -/
def most (shape : Shape) : Nat := 256 ^ shape.key * shape.each

private theorem each_le_most (shape : Shape) : shape.each ≤ shape.most :=
  Nat.le_mul_of_pos_left shape.each (Nat.pow_pos (by decide))

private theorem footprint_of_fits {shape : Shape} {r : Record} (h : shape.Fits r.entry) :
    r.footprint = shape.each := by
  rw [Record.footprint, Record.length, each, ← h.1, ← h.2]
  rfl

end Shape

/-- The job keeps keys and marks, and the lengths of its values. -/
structure Job.Shaped (job : Job) (shape : Shape) : Prop where
  keeps : job.KeepsIdentity
  fits_reduce : ∀ r value, shape.Fits r.entry → shape.Fits ⟨r.key, value⟩ →
    shape.Fits (job.reduce r value).entry

/-- A job that adds on keys and values of a shape keeps to the shape. -/
theorem Job.Additive.shaped {M : Type} [AddCommMonoid M] {job : Job} {shape : Shape}
    {weight : Wire.Entry → M} (additive : job.Additive shape.Fits weight) : job.Shaped shape :=
  ⟨additive.keeps, additive.valid_reduce⟩

/-- Folding a record into another of the shape keeps the shape. -/
theorem Job.Shaped.fits_fold {job : Job} {shape : Shape} (shaped : job.Shaped shape)
    {candidate r : Record} (hr : shape.Fits r.entry) (hc : shape.Fits candidate.entry)
    (about : r.key = candidate.key) : shape.Fits (job.fold candidate r).entry := by
  rw [Job.entry_fold]
  exact shaped.fits_reduce r candidate.value hr (about ▸ hc)

/-! ## Records of one shape -/

/-- What an entry costs as a record. -/
def entryCost (entry : Wire.Entry) : Nat :=
  recordOverhead + (entry.key.length + entry.value.length)

/-- Records cost what their entries do. -/
theorem weigh_entryCost (records : List Record) :
    weigh entryCost records = Record.footprints records := by
  induction records with
  | nil => rfl
  | cons r rest ih =>
    rw [weigh_cons, ih]
    rfl

/-- The keys are distinct, and all records have one shape. -/
structure Tidy (shape : Shape) (records : List Record) : Prop where
  nodup : (records.map Record.key).Nodup
  fits : ∀ r ∈ records, shape.Fits r.entry

namespace Tidy

variable {shape : Shape} {records : List Record}

/-- Without records there is nothing untidy. -/
theorem nil (shape : Shape) : Tidy shape [] := ⟨List.nodup_nil, by simp⟩

private theorem footprint (h : Tidy shape records) :
    Record.footprints records = records.length * shape.each := by
  have fits := h.fits
  clear h
  induction records with
  | nil => simp [Record.footprints]
  | cons r rest ih =>
    rw [Record.footprints, Shape.footprint_of_fits (fits r List.mem_cons_self),
      ih fun s hs ↦ fits s (List.mem_cons_of_mem r hs), List.length_cons, Nat.succ_mul,
      Nat.add_comm]

/-- Tidy records cost at most what distinct keys allow. -/
theorem footprint_le (h : Tidy shape records) :
    Record.footprints records ≤ shape.most := by
  have few := Bytes.length_le_of_nodup h.nodup fun key hkey ↦ by
    obtain ⟨r, hr, rfl⟩ := List.mem_map.1 hkey
    exact (h.fits r hr).1
  rw [List.length_map] at few
  rw [h.footprint]
  exact Nat.mul_le_mul_right _ few

private theorem filter (h : Tidy shape records) (p : Record → Bool) :
    Tidy shape (records.filter p) where
  nodup := h.nodup.sublist (List.filter_sublist.map Record.key)
  fits r hr := h.fits r (List.mem_filter.1 hr).1

/-- Marks have nothing to do with it. -/
theorem of_map_entry_eq {others : List Record} (h : Tidy shape records)
    (same : others.map Record.entry = records.map Record.entry) : Tidy shape others where
  nodup := by
    rw [← Record.map_key_map_entry, same, Record.map_key_map_entry]
    exact h.nodup
  fits := forall_entry_of_map_eq same h.fits

end Tidy

namespace Store

variable {store : Store} {shape : Shape} {others : Nat}

/-- The records are tidy, and a ledger without a cap was charged with what they cost and `others`.
-/
structure Balanced (store : Store) (shape : Shape) (others : Nat) : Prop where
  tidy : Tidy shape store.records
  charged : store.ledger.allocated = store.toAccumulator.footprint + others
  unlimited : store.ledger.limit = none

namespace Balanced

private theorem emit (h : store.Balanced shape others) (shaped : store.job.Shaped shape)
    {candidate : Record} (fits : shape.Fits candidate.entry) :
    (store.emit candidate).2.Balanced shape others := by
  have tidy : Tidy shape (store.emit candidate).2.records :=
    ⟨nodup_keys_emit shaped.keeps h.tidy.nodup candidate,
      forall_mem_emit (P := fun r ↦ shape.Fits r.entry)
        (fun _ hr about ↦ shaped.fits_fold hr fits about) fits h.tidy.fits⟩
  refine ⟨tidy, ?_, ?_⟩
  · have charged := h.charged
    have before := h.tidy.footprint
    have after := tidy.footprint
    simp only [Accumulator.footprint] at charged ⊢
    rw [before] at charged
    rw [after]
    have step := emitStep_emit store candidate
    generalize store.emit candidate = outcome at step ⊢
    cases step with
    | merged records first about => simpa [records] using charged
    | inserted absent paid =>
      obtain ⟨-, rfl⟩ := (Ledger.charge_eq_ok_iff ..).1 paid
      simp only [List.length_cons, Nat.succ_mul, charged, Shape.footprint_of_fits fits]
      omega
    | refused absent full => exact charged
  · have step := emitStep_emit store candidate
    generalize store.emit candidate = outcome at step ⊢
    cases step with
    | merged | refused => exact h.unlimited
    | inserted absent paid =>
      obtain ⟨-, rfl⟩ := (Ledger.charge_eq_ok_iff ..).1 paid
      exact h.unlimited

/-- Taking candidates of the shape in keeps the books balanced. -/
theorem emitAll (h : store.Balanced shape others) (shaped : store.job.Shaped shape)
    {candidates : List Record} (fits : ∀ c ∈ candidates, shape.Fits c.entry) :
    (store.emitAll candidates).2.Balanced shape others := by
  have both := emitAll_induction
    (P := fun s ↦ s.job = store.job ∧ s.Balanced shape others) candidates
    (fun s hs c hc ↦ ⟨by simpa using hs.1, hs.2.emit (hs.1 ▸ shaped) (fits c hc)⟩) store ⟨rfl, h⟩
  exact both.2

/-- No record is refused as long as the others cost so little. -/
theorem isOk_emit (h : store.Balanced shape others) {candidate : Record}
    (fits : shape.Fits candidate.entry) (room : 2 * shape.most + others < ledgerModulus) :
    (store.emit candidate).1.isOk = true := by
  have step := emitStep_emit store candidate
  generalize store.emit candidate = outcome at step ⊢
  cases step with
  | merged | inserted => rfl
  | refused absent full =>
    have held : store.toAccumulator.footprint ≤ shape.most := h.tidy.footprint_le
    have each := shape.each_le_most
    have free : store.ledger.allocated + candidate.footprint ≤ store.ledger.cap := by
      rw [h.charged, Shape.footprint_of_fits fits, Ledger.cap, h.unlimited, Option.getD_none]
      omega
    rw [(Ledger.charge_eq_ok_iff ..).2 ⟨free, rfl⟩] at full
    cases full

/-- With room for them no candidate of the shape is refused. -/
theorem accepted (h : store.Balanced shape others) (shaped : store.job.Shaped shape)
    {candidates : List Record} (fits : ∀ c ∈ candidates, shape.Fits c.entry)
    (room : 2 * shape.most + others < ledgerModulus) : store.accepted candidates = candidates := by
  induction candidates generalizing store with
  | nil => rfl
  | cons c rest ih =>
    have first := fits c List.mem_cons_self
    rw [Store.accepted, if_pos (h.isOk_emit first room)]
    have after : (store.emit c).2.job.Shaped shape := by simpa using shaped
    rw [ih (h.emit shaped first) after fun d hd ↦ fits d (List.mem_cons_of_mem _ hd)]

/-- Cleaning up leaves the books balanced. -/
theorem cleanup (h : store.Balanced shape others) (flags : Flags) :
    (store.cleanup flags).2.Balanced shape others := by
  have split := weigh_filter_add entryCost (fun r ↦ r.bears flags) store.records
  simp only [weigh_entryCost] at split
  have charged := h.charged
  simp only [Accumulator.footprint] at charged
  simp only [Store.cleanup, List.partition_eq_filter_filter]
  refine ⟨h.tidy.filter _, ?_, h.unlimited⟩
  simp only [Ledger.refund, Accumulator.footprint, Function.comp_def]
  omega

end Balanced
end Store
end CollectionTree
