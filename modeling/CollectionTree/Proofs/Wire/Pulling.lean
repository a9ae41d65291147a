import CollectionTree.Proofs.Wire.RoundTrip

/-!
# Pulling entries off arbitrary bytes

`EntryReader.next` may be called any number of times, on any body. `EntryReader.pull` is the reader
after so many calls, and `EntryReader.pulled` what the call after those gives. `Pulls` says what all
the calls give, in terms of the layout of an entry alone: a body is a row of entries and then some
bytes at whose front no entry stands.

The main statement: every body is pulled apart in this way, and a row of entries gives back exactly
its entries (`EntryReader.pulls_exactly`).
-/

namespace CollectionTree.Wire

/-! ## Entries that can be laid out -/

/-- The lengths of the key and of the value can each be stated in their byte. -/
def Entry.Stated (entry : Entry) : Prop :=
  entry.key.length ≤ maxFieldLength ∧ entry.value.length ≤ maxFieldLength

/-- An entry that can be laid out is split off again, and what follows it is left over. -/
theorem Entry.Stated.split?_encode {entry : Entry} (stated : entry.Stated) (rest : Bytes) :
    Entry.split? (entry.encode ++ rest) = some (entry, rest) := by
  obtain ⟨key, value⟩ := stated
  simp only [maxFieldLength] at key value
  have hk : entry.key.length.toUInt8.toNat = entry.key.length := by
    simp
    omega
  have hv : entry.value.length.toUInt8.toNat = entry.value.length := by
    simp
    omega
  simp [Entry.encode, Entry.split?, hk, hv]

/-- What is split off states its lengths in a byte each. -/
theorem Entry.stated_of_split? {bytes rest : Bytes} {entry : Entry}
    (h : Entry.split? bytes = some (entry, rest)) : entry.Stated := by
  match bytes with
  | [] | [_] => simp [Entry.split?] at h
  | k :: v :: tail =>
    have hk := k.toNat_lt
    have hv := v.toNat_lt
    simp only [Entry.split?, Option.ite_none_right_eq_some, Option.some.injEq, Prod.mk.injEq] at h
    obtain ⟨-, rfl, -⟩ := h
    constructor <;> simp only [maxFieldLength, List.length_take] <;> omega

/-- Nothing is split off exactly where no entry stands at the front. -/
theorem Entry.split?_eq_none_iff (bytes : Bytes) :
    Entry.split? bytes = none ↔ ∀ entry : Entry, entry.Stated → ¬entry.encode <+: bytes := by
  constructor
  · rintro none entry stated ⟨rest, rfl⟩
    rw [stated.split?_encode] at none
    cases none
  · intro absent
    rw [Option.eq_none_iff_forall_ne_some]
    rintro ⟨entry, rest⟩ split
    exact absent entry (Entry.stated_of_split? split) ⟨rest, (Entry.split?_eq_some split).1.symm⟩

/-- All bytes are a row of entries and then some bytes that no entry can be split off. -/
theorem exists_row (bytes : Bytes) : ∃ entries left, bytes = encodeAll entries ++ left ∧
    (∀ entry ∈ entries, entry.Stated) ∧ Entry.split? left = none := by
  induction n : bytes.length using Nat.strong_induction_on generalizing bytes with
  | _ n ih =>
    cases split : Entry.split? bytes with
    | none => exact ⟨[], bytes, rfl, by simp, split⟩
    | some front =>
      obtain ⟨entry, rest⟩ := front
      obtain ⟨rfl, length⟩ := Entry.split?_eq_some split
      rw [length_entry] at length
      obtain ⟨entries, left, rfl, stated, cut⟩ := ih rest.length (by omega) rest rfl
      refine ⟨entry :: entries, left, by simp, ?_, cut⟩
      exact List.forall_mem_cons.2 ⟨Entry.stated_of_split? split, stated⟩

namespace EntryReader

/-! ## Repeated pulls -/

/-- The reader after so many calls. -/
def pull (reader : EntryReader) : Nat → EntryReader
  | 0 => reader
  | count + 1 => reader.next.2.pull count

/-- What a call gives that comes after so many others. -/
def pulled (reader : EntryReader) (count : Nat) : Option (Except Error Entry) :=
  (reader.pull count).next.1

/-- After no calls the reader is where it was. -/
@[simp] theorem pull_zero (reader : EntryReader) : reader.pull 0 = reader := rfl

/-- The first call leads to the reader that the others find. -/
@[simp] theorem pull_succ (reader : EntryReader) (count : Nat) :
    reader.pull (count + 1) = reader.next.2.pull count := rfl

private theorem pull_add (reader : EntryReader) (count more : Nat) :
    reader.pull (count + more) = (reader.pull count).pull more := by
  induction count generalizing reader with
  | zero => simp
  | succ count ih => rw [Nat.succ_add, pull_succ, pull_succ, ih]

/-- A reader at the end gives nothing, for ever. -/
@[simp] theorem next_nil (offset : Nat) : next ⟨offset, []⟩ = (none, ⟨offset, []⟩) := rfl

/-- A reader with nothing left stays where it is. -/
@[simp] theorem pull_nil (offset count : Nat) : pull ⟨offset, []⟩ count = ⟨offset, []⟩ := by
  induction count with
  | zero => rfl
  | succ count ih => rw [pull_succ, next_nil, ih]

/-- An entry at the front is given out, and the reader moves over its bytes. -/
theorem next_entry {entry : Entry} (stated : entry.Stated) (offset : Nat) (rest : Bytes) :
    next ⟨offset, entry.encode ++ rest⟩ = (some (.ok entry), ⟨offset + entry.length, rest⟩) := by
  simp only [next, stated.split?_encode]
  rfl

/-- Bytes that no entry can be split off are reported where they start, and passed over. -/
theorem next_cut {left : Bytes} (some : left ≠ []) (cut : Entry.split? left = none) (offset : Nat) :
    next ⟨offset, left⟩ =
      (.some (.error (.recordOverrun offset)), ⟨offset + left.length, []⟩) := by
  simp [next, cut, some]

/-- As many calls as there are entries stand right behind those entries. -/
theorem pull_row {entries : List Entry} (stated : ∀ entry ∈ entries, entry.Stated) (offset : Nat)
    (rest : Bytes) : pull ⟨offset, encodeAll entries ++ rest⟩ entries.length =
      ⟨offset + (encodeAll entries).length, rest⟩ := by
  induction entries generalizing offset with
  | nil => simp
  | cons entry entries ih =>
    obtain ⟨head, tail⟩ := List.forall_mem_cons.1 stated
    rw [encodeAll_cons, List.append_assoc, List.length_cons, pull_succ, next_entry head, ih tail]
    simp [Nat.add_assoc]

/-- Within a row, the calls so far have read its front part and left the remaining entries. -/
theorem pull_of_le {entries : List Entry} (stated : ∀ entry ∈ entries, entry.Stated) {count : Nat}
    (le : count ≤ entries.length) (left : Bytes) :
    (ofBody (encodeAll entries ++ left)).pull count =
      ⟨(encodeAll (entries.take count)).length, encodeAll (entries.drop count) ++ left⟩ := by
  have taken : ∀ entry ∈ entries.take count, entry.Stated :=
    fun e mem ↦ stated e (List.mem_of_mem_take mem)
  have front := pull_row taken 0 (encodeAll (entries.drop count) ++ left)
  rwa [← List.append_assoc, ← encodeAll_append, List.take_append_drop, List.length_take_of_le le,
    Nat.zero_add] at front

/-- Behind a row and one call more the reader has passed over the whole body, and stays there. -/
theorem pull_of_lt {entries : List Entry} {left : Bytes}
    (stated : ∀ entry ∈ entries, entry.Stated) (cut : Entry.split? left = none) {count : Nat}
    (lt : entries.length < count) :
    (ofBody (encodeAll entries ++ left)).pull count = ⟨(encodeAll entries ++ left).length, []⟩ := by
  obtain ⟨more, rfl⟩ := Nat.exists_eq_add_of_lt lt
  rw [Nat.add_assoc, pull_add, pull_of_le stated le_rfl, List.take_length, List.drop_length,
    encodeAll_nil, List.nil_append, pull_succ]
  by_cases some : left = []
  · simp [some]
  · rw [next_cut some cut, pull_nil, List.length_append]

/-! ## What every body gives -/

/-- All calls on a reader of `body`, which starts with `entries` and goes on with `left`: the
entries in turn, then one overrun if anything is left, then nothing for ever. -/
structure Pulls (body : Bytes) (entries : List Entry) (left : Bytes) : Prop where
  /-- The body is the row of entries and what is left. -/
  splits : body = encodeAll entries ++ left
  /-- Every entry states its lengths. -/
  stated : ∀ entry ∈ entries, entry.Stated
  /-- No entry stands at the front of what is left. -/
  cut : ∀ entry : Entry, entry.Stated → ¬entry.encode <+: left
  /-- The first calls give the entries in order. -/
  entry : ∀ (i : Nat) (h : i < entries.length), (ofBody body).pulled i = some (.ok entries[i])
  /-- Up to there the offset is the length of the entries given so far. -/
  offset : ∀ i ≤ entries.length,
    ((ofBody body).pull i).offset = (encodeAll (entries.take i)).length
  /-- The call after the entries finds the end, or reports what is left as an overrun. -/
  last : (ofBody body).pulled entries.length =
    if left = [] then none else some (.error (.recordOverrun (encodeAll entries).length))
  /-- All later calls give nothing. -/
  silent : ∀ i > entries.length, (ofBody body).pulled i = none
  /-- After the end or the overrun the offset is the length of the body. -/
  finished : ∀ i > entries.length, ((ofBody body).pull i).offset = body.length

/-- A row of entries, followed by bytes that no entry can be split off, is pulled apart as such. -/
theorem pulls_row {entries : List Entry} {left : Bytes}
    (stated : ∀ entry ∈ entries, entry.Stated) (cut : Entry.split? left = none) :
    Pulls (encodeAll entries ++ left) entries left where
  splits := rfl
  stated := stated
  cut := (Entry.split?_eq_none_iff left).1 cut
  entry i lt := by
    have head := stated entries[i] (List.getElem_mem lt)
    rw [pulled, pull_of_le stated lt.le, List.drop_eq_getElem_cons lt, encodeAll_cons,
      List.append_assoc, next_entry head]
  offset i le := by rw [pull_of_le stated le]
  last := by
    rw [pulled, pull_of_le stated le_rfl, List.take_length, List.drop_length, encodeAll_nil,
      List.nil_append]
    by_cases some : left = []
    · simp [some]
    · rw [next_cut some cut, if_neg some]
  silent i lt := by rw [pulled, pull_of_lt stated cut lt, next_nil]
  finished i lt := by rw [pull_of_lt stated cut lt]

/-- With nothing left over, the calls give the entries one by one and nothing else. -/
theorem Pulls.pulled_eq {entries : List Entry} (pulls : Pulls (encodeAll entries) entries [])
    (i : Nat) : (ofBody (encodeAll entries)).pulled i = entries[i]?.map .ok := by
  rcases Nat.lt_trichotomy i entries.length with lt | rfl | gt
  · rw [pulls.entry i lt, List.getElem?_eq_getElem lt, Option.map_some]
  · rw [pulls.last, if_pos rfl, List.getElem?_eq_none le_rfl, Option.map_none]
  · rw [pulls.silent i gt, List.getElem?_eq_none gt.le, Option.map_none]

/-- Every body is pulled apart into the entries at its front and, reported once, what is left behind
them; a row of entries that can be laid out gives exactly its entries. -/
theorem pulls_exactly :
    (∀ body : Bytes, ∃ entries left, Pulls body entries left) ∧
      ∀ entries : List Entry, (∀ entry ∈ entries, entry.Stated) →
        ∀ i, (ofBody (encodeAll entries)).pulled i = entries[i]?.map .ok := by
  constructor
  · intro body
    obtain ⟨entries, left, rfl, stated, cut⟩ := exists_row body
    exact ⟨entries, left, pulls_row stated cut⟩
  · intro entries stated i
    have nothing : Entry.split? [] = none := rfl
    have pulls := pulls_row stated nothing
    rw [List.append_nil] at pulls
    exact pulls.pulled_eq i

/-- A body that ends inside its second record, and a row of a record, a key without a value and an
empty record. -/
theorem pulls_exactly_threeRecords :
    (∃ entries left, Pulls [1, 1, 67, 68, 4, 4, 120] entries left) ∧
      ∀ i, (ofBody (encodeAll [⟨[67], [68]⟩, ⟨[65], []⟩, ⟨[], []⟩])).pulled i =
        ([⟨[67], [68]⟩, ⟨[65], []⟩, ⟨[], []⟩] : List Entry)[i]?.map .ok :=
  ⟨pulls_exactly.1 _, pulls_exactly.2 _ (by simp [Entry.Stated, maxFieldLength])⟩

end EntryReader

end CollectionTree.Wire
