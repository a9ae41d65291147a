import CollectionTree.Wire.Header

/-!
# Records on the wire

A record on the wire, an *entry*, is the length of its key, the length of its value, the key and the
value. A segment's body is a row of entries; `EntryReader` pulls them off one at a time and reports
a record that is not all there once, then stops.

The main statements: an encoded entry is split off again with whatever follows it left over
(`Entry.split?_encode`), and whatever is split off is the encoding of an entry
(`Entry.split?_eq_some`).
-/

namespace CollectionTree.Wire

/-- The bytes of an entry whose key and value have the given lengths. -/
def encodedLength (keyLength valueLength : Nat) : Nat :=
  recordHeaderLength + keyLength + valueLength

/-- Refuse a key and value that together have more bytes than one length byte can state. -/
def checkLengths (keyLength valueLength : Nat) : Except Error Unit :=
  if keyLength + valueLength > maxFieldLength then .error (.size (keyLength + valueLength))
  else .ok ()

/-- A key and its value, as carried by a segment. -/
structure Entry where
  key : Bytes
  value : Bytes
  deriving DecidableEq, Repr

namespace Entry

/-- The bytes that the entry takes on the wire. -/
def length (entry : Entry) : Nat := encodedLength entry.key.length entry.value.length

/-- The entry's bytes, with its lengths cut to one byte each. -/
def encode (entry : Entry) : Bytes :=
  entry.key.length.toUInt8 :: entry.value.length.toUInt8 :: (entry.key ++ entry.value)

/-- Write the entry into a zero-filled buffer of `room` bytes, or into one that grows as needed.
Lengths that the format cannot state are refused before a buffer that is too small. -/
def write (room : Option Nat) (entry : Entry) : Except Error Bytes := do
  checkLengths entry.key.length entry.value.length
  match room with
  | none => return entry.encode
  | some room =>
    if room < entry.length then throw (.size entry.length)
    return Bytes.padTo room entry.encode

/-- The entry at the front of `bytes` and what follows it, if a whole entry is there. -/
def split? : Bytes → Option (Entry × Bytes)
  | keyLength :: valueLength :: rest =>
    if keyLength.toNat + valueLength.toNat ≤ rest.length then
      some (⟨rest.take keyLength.toNat, (rest.drop keyLength.toNat).take valueLength.toNat⟩,
        rest.drop (keyLength.toNat + valueLength.toNat))
    else none
  | _ => none

/-- An entry takes as many bytes as it says. -/
@[simp] theorem length_encode (entry : Entry) : entry.encode.length = entry.length := by
  simp [encode, length, encodedLength, recordHeaderLength]; omega

/-- An entry whose lengths fit one byte is split off again, and what follows it is left over. -/
theorem split?_encode {entry : Entry} (h : entry.key.length + entry.value.length ≤ maxFieldLength)
    (rest : Bytes) : split? (entry.encode ++ rest) = some (entry, rest) := by
  have hk : entry.key.length.toUInt8.toNat = entry.key.length := by
    simp [maxFieldLength] at h ⊢; omega
  have hv : entry.value.length.toUInt8.toNat = entry.value.length := by
    simp [maxFieldLength] at h ⊢; omega
  simp [encode, split?, hk, hv]

/-- What is split off is an entry's encoding, and it takes at least the two length bytes. -/
theorem split?_eq_some {bytes rest : Bytes} {entry : Entry}
    (h : split? bytes = some (entry, rest)) :
    bytes = entry.encode ++ rest ∧ bytes.length = entry.length + rest.length := by
  match bytes with
  | [] | [_] => simp [split?] at h
  | k :: v :: tail =>
    simp only [split?] at h
    split at h
    · next hle =>
      simp only [Option.some.injEq, Prod.mk.injEq] at h
      obtain ⟨rfl, rfl⟩ := h
      have hk : min k.toNat tail.length = k.toNat := by omega
      have hv : min v.toNat (tail.length - k.toNat) = v.toNat := by omega
      constructor
      · simp only [encode, List.length_take, List.length_drop, hk, hv, List.cons_append,
          List.append_assoc]
        have : List.take v.toNat (List.drop k.toNat tail) ++ List.drop (k.toNat + v.toNat) tail =
            List.drop k.toNat tail := by
          rw [← List.drop_drop, List.take_append_drop]
        rw [this, List.take_append_drop]
        simp
      · simp only [length, encodedLength, recordHeaderLength, List.length_cons, List.length_take,
          List.length_drop, hk, hv]
        omega
    · simp at h

end Entry

/-- A position in a segment's body from which entries are read, and the bytes not read yet. -/
structure EntryReader where
  offset : Nat
  rest : Bytes
  deriving DecidableEq, Repr

namespace EntryReader

/-- Start reading at the front of a body. -/
def ofBody (body : Bytes) : EntryReader := ⟨0, body⟩

/-- Read the next entry. Bytes that hold no whole entry are reported as overrun and skipped, so that
nothing is read after them. -/
def next (reader : EntryReader) : Option (Except Error Entry) × EntryReader :=
  if reader.rest.isEmpty then (none, reader)
  else match Entry.split? reader.rest with
    | some (entry, rest) => (some (.ok entry), ⟨reader.offset + entry.length, rest⟩)
    | none =>
      (some (.error (.recordOverrun reader.offset)), ⟨reader.offset + reader.rest.length, []⟩)

end EntryReader

/-- The entries that start at `offset` of a body, of which `bytes` are left, or the first overrun.
-/
def Entry.readFrom (offset : Nat) (bytes : Bytes) : Except Error (List Entry) :=
  if bytes.isEmpty then .ok []
  else match _h : Entry.split? bytes with
    | some (entry, rest) => (Entry.readFrom (offset + entry.length) rest).map (entry :: ·)
    | none => .error (.recordOverrun offset)
  termination_by bytes.length
  decreasing_by
    have := (Entry.split?_eq_some _h).2
    simp [Entry.length, encodedLength, recordHeaderLength] at this
    omega

/-- All entries of a body, or the overrun of the first that is not all there. -/
def Entry.readAll (body : Bytes) : Except Error (List Entry) := Entry.readFrom 0 body

end CollectionTree.Wire
