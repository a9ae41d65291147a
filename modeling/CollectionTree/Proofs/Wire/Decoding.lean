import CollectionTree.Proofs.Wire.RoundTrip

/-!
# What arbitrary bytes are read as

A receiver is handed whatever bytes the radio delivers. `Reads` says, without mention of the reader,
what the bytes from a segment's header on amount to: the entries that fill the segment as declared,
or nothing where the segment is broken. `firstFor` is the place where the walk over the headers
first meets an owner.

The main statements: the reader finds exactly what `Reads` says (`toOption_entries_of_reads`), and
what comes after the segment found for an owner changes neither where it is found
(`firstFor_append`) nor what is read there (`Reads.congr`).
-/

namespace CollectionTree.Wire

/-! ## Rows of entries -/

/-- Bytes are a row of entries, or a row of entries and then some bytes that start with no whole
entry. -/
theorem row_or_cut (bytes : Bytes) :
    (∃ entries, bytes = encodeAll entries) ∨
      ∃ before left, bytes = encodeAll before ++ left ∧ left ≠ [] ∧ Entry.split? left = none := by
  induction n : bytes.length using Nat.strong_induction_on generalizing bytes with
  | _ n ih =>
    by_cases empty : bytes = []
    · exact .inl ⟨[], by simp [empty]⟩
    cases split : Entry.split? bytes with
    | none => exact .inr ⟨[], bytes, by simp, empty, split⟩
    | some front =>
      obtain ⟨entry, rest⟩ := front
      obtain ⟨rfl, length⟩ := Entry.split?_eq_some split
      rw [length_entry] at length
      rcases ih rest.length (by omega) rest rfl with ⟨entries, rfl⟩ | ⟨before, left, rfl, some, cut⟩
      · exact .inl ⟨entry :: entries, rfl⟩
      · exact .inr ⟨entry :: before, left, by simp, some, cut⟩

/-- Reading a row of entries fails at bytes that start with no whole entry. -/
theorem readFrom_cut {before : List Entry} {left : Bytes}
    (stated : ∀ e ∈ before, e.key.length + e.value.length ≤ maxFieldLength) (some : left ≠ [])
    (cut : Entry.split? left = none) (offset : Nat) :
    ∃ cause, Entry.readFrom offset (encodeAll before ++ left) = .error cause := by
  induction before generalizing offset with
  | nil =>
    have nonempty : left.isEmpty = false := by simpa using some
    refine ⟨.recordOverrun offset, ?_⟩
    rw [encodeAll_nil, List.nil_append, Entry.readFrom, nonempty]
    simp only [Bool.false_eq_true, if_false]
    split
    · next heq => simp [cut] at heq
    · rfl
  | cons entry rest ih =>
    have front := Entry.split?_encode (stated entry (by simp)) (encodeAll rest ++ left)
    have nonempty : (entry.encode ++ (encodeAll rest ++ left)).isEmpty = false := by
      simp [Entry.encode]
    obtain ⟨cause, failed⟩ := ih (fun e he ↦ stated e (by simp [he])) (offset + entry.length)
    refine ⟨cause, ?_⟩
    rw [encodeAll_cons, List.append_assoc, Entry.readFrom, nonempty]
    simp only [Bool.false_eq_true, if_false]
    split
    · next head tail heq =>
      rw [front] at heq
      obtain ⟨rfl, rfl⟩ := Prod.mk.inj (Option.some.inj heq)
      rw [failed]
      rfl
    · next heq => simp [front] at heq

/-! ## Segments -/

/-- The bytes after a segment's header, as far as declared. -/
def segmentBody (header : SegmentHeader) (bytes : Bytes) : Bytes :=
  (bytes.drop segmentHeaderLength).take header.bodyLength

/-- What the bytes from a segment's header on amount to: its entries, or none where it is broken. -/
inductive Reads (header : SegmentHeader) (bytes : Bytes) : Option (List Entry) → Prop
  /-- The segment claims to be shorter than its own header. -/
  | short (h : header.declared < segmentHeaderLength) : Reads header bytes none
  /-- The segment claims more bytes than there are. -/
  | long (h : bytes.length < header.declared) : Reads header bytes none
  /-- The declared length ends within a record, after some whole ones. -/
  | cut {before : List Entry} {left : Bytes} (covers : segmentHeaderLength ≤ header.declared)
      (inside : header.declared ≤ bytes.length)
      (body : segmentBody header bytes = encodeAll before ++ left) (some : left ≠ [])
      (overrun : Entry.split? left = none) : Reads header bytes none
  /-- The declared length is filled by whole records. -/
  | whole {entries : List Entry} (covers : segmentHeaderLength ≤ header.declared)
      (inside : header.declared ≤ bytes.length)
      (body : segmentBody header bytes = encodeAll entries) : Reads header bytes (some entries)

/-- Something can be read from any bytes, if only nothing. -/
theorem exists_reads (header : SegmentHeader) (bytes : Bytes) :
    ∃ reading, Reads header bytes reading := by
  by_cases covers : segmentHeaderLength ≤ header.declared
  · by_cases inside : header.declared ≤ bytes.length
    · rcases row_or_cut (segmentBody header bytes) with
        ⟨entries, body⟩ | ⟨before, left, body, some, cut⟩
      · exact ⟨_, .whole covers inside body⟩
      · exact ⟨_, .cut covers inside body some cut⟩
    · exact ⟨_, .long (by omega)⟩
  · exact ⟨_, .short (by omega)⟩

private theorem length_segmentBody_le (header : SegmentHeader) (bytes : Bytes) :
    segmentHeaderLength + (segmentBody header bytes).length ≤ maxFieldLength := by
  have := header.length.toNat_lt
  simp only [segmentBody, List.length_take, SegmentHeader.bodyLength, SegmentHeader.declared,
    segmentHeaderLength, maxFieldLength]
  omega

/-- A segment whose declared length is sound is parsed to its header and its body. -/
theorem parse_of_declared {header : SegmentHeader} {bytes : Bytes}
    (decoded : SegmentHeader.decode bytes = .ok header)
    (covers : segmentHeaderLength ≤ header.declared) (inside : header.declared ≤ bytes.length) :
    Segment.parse bytes = .ok ⟨header, segmentBody header bytes⟩ :=
  (parse_eq_ok_iff _ _).2 ⟨decoded, covers, inside, rfl⟩

private theorem parse_of_not_declared {header : SegmentHeader} {bytes : Bytes}
    (decoded : SegmentHeader.decode bytes = .ok header)
    (unsound : ¬(segmentHeaderLength ≤ header.declared ∧ header.declared ≤ bytes.length)) :
    ∃ cause, Segment.parse bytes = .error cause := by
  cases parsed : Segment.parse bytes with
  | error cause => exact ⟨cause, rfl⟩
  | ok segment =>
    obtain ⟨same, covers, inside, -⟩ := (parse_eq_ok_iff _ _).1 parsed
    rw [decoded] at same
    obtain rfl := Except.ok.inj same
    exact absurd ⟨covers, inside⟩ unsound

/-- The reader finds the entries that the bytes amount to, and fails where the segment is broken. -/
theorem toOption_entries_of_reads {header : SegmentHeader} {bytes : Bytes}
    (decoded : SegmentHeader.decode bytes = .ok header) {reading : Option (List Entry)}
    (h : Reads header bytes reading) :
    (Segment.parse bytes >>= Segment.entries).toOption = reading := by
  have room := length_segmentBody_le header bytes
  cases h with
  | short h =>
    obtain ⟨cause, failed⟩ := parse_of_not_declared decoded (by omega)
    rw [failed]
    rfl
  | long h =>
    obtain ⟨cause, failed⟩ := parse_of_not_declared decoded (by omega)
    rw [failed]
    rfl
  | @cut before left covers inside body some overrun =>
    have sized : SegmentSized before := by
      rw [body, List.length_append] at room
      exact Nat.le_trans (by omega) room
    obtain ⟨cause, failed⟩ := readFrom_cut sized.stated some overrun 0
    rw [← body] at failed
    rw [parse_of_declared decoded covers inside]
    simp only [bind, Except.bind, Segment.entries, Entry.readAll, failed]
    rfl
  | @whole entries covers inside body =>
    have sized : SegmentSized entries := by rwa [body] at room
    rw [parse_of_declared decoded covers inside, body]
    simp only [bind, Except.bind, Segment.entries, Entry.readAll, readFrom_encodeAll sized.stated]
    rfl

/-- Bytes amount to the same wherever they agree as far as the header and its declared length go. -/
theorem Reads.congr {header : SegmentHeader} {bytes more : Bytes} {reading : Option (List Entry)}
    (h : Reads header bytes reading)
    (same : more.take (max segmentHeaderLength header.declared) =
      bytes.take (max segmentHeaderLength header.declared)) : Reads header more reading := by
  have lengths := congrArg List.length same
  simp only [List.length_take] at lengths
  have body (covers : segmentHeaderLength ≤ header.declared) :
      segmentBody header more = segmentBody header bytes := by
    rw [Nat.max_eq_right covers] at same
    rw [segmentBody, segmentBody, SegmentHeader.bodyLength, ← List.drop_take, ← List.drop_take,
      same]
  cases h with
  | short h => exact .short h
  | long h => exact .long (by omega)
  | cut covers inside whole some overrun =>
    exact .cut covers (by omega) ((body covers).trans whole) some overrun
  | whole covers inside whole => exact .whole covers (by omega) ((body covers).trans whole)

/-! ## Frames -/

namespace Frame

/-- A walk pairs every header with the bytes that it was read from. -/
theorem decode_of_mem_walk {count : Nat} {bytes rest : Bytes} {header : SegmentHeader}
    (h : (header, rest) ∈ walk count bytes) : SegmentHeader.decode rest = .ok header := by
  induction count generalizing bytes with
  | zero => simp [walk] at h
  | succ count ih =>
    simp only [walk] at h
    split at h
    · simp at h
    · next head decoded =>
      split at h
      · obtain ⟨rfl, rfl⟩ := Prod.mk.inj (List.mem_singleton.1 h)
        exact decoded
      · rcases List.mem_cons.1 h with h | h
        · obtain ⟨rfl, rfl⟩ := Prod.mk.inj h
          exact decoded
        · exact ih h

/-- What a walk first finds for an owner is found in the same place whatever comes after the header
there. -/
theorem find?_walk_append {count : Nat} {bytes rest : Bytes} {header : SegmentHeader}
    {owner : UInt8} (found : (walk count bytes).find? (·.1.owner == owner) = some (header, rest)) :
    ∃ front, bytes = front ++ rest ∧ ∀ more, SegmentHeader.decode more = .ok header →
      (walk count (front ++ more)).find? (·.1.owner == owner) = some (header, more) := by
  induction count generalizing bytes with
  | zero => simp [walk] at found
  | succ count ih =>
    simp only [walk] at found
    split at found
    · simp at found
    · next head decoded =>
      by_cases named : head.owner = owner
      · have here : (head, bytes) = (header, rest) := by
          split at found <;> simpa [List.find?_cons, named] using found
        obtain ⟨rfl, rfl⟩ := Prod.mk.inj here
        refine ⟨[], rfl, fun more again ↦ ?_⟩
        rw [List.nil_append, walk, again]
        dsimp only
        split <;> simp [named]
      · have other : (head.owner == owner) = false := beq_false_of_ne named
        split at found
        · simp [other] at found
        · next onward =>
          simp only [List.find?_cons, other] at found
          obtain ⟨front, split, later⟩ := ih found
          -- The header read first lies within the bytes that are stepped over.
          have step : bytes = bytes.take head.declared ++ (front ++ rest) := by
            rw [← split, List.take_append_drop]
          have reach : (bytes.take head.declared).length = head.declared := by
            rw [List.length_take]
            omega
          have decode (tail : Bytes) : SegmentHeader.decode (bytes.take head.declared ++ tail) =
              .ok head := by
            rcases bytes with _ | ⟨first, _ | ⟨second, behind⟩⟩
            · simp [SegmentHeader.decode] at decoded
            · simp [SegmentHeader.decode] at decoded
            · obtain ⟨n, declared⟩ : ∃ n, head.declared = n + 2 :=
                ⟨head.declared - 2, by simp [segmentHeaderLength] at onward; omega⟩
              simpa [declared, SegmentHeader.decode] using decoded
          refine ⟨bytes.take head.declared ++ front, by simpa using step, fun more again ↦ ?_⟩
          have stay : ¬(head.declared < segmentHeaderLength ∨
              head.declared > (bytes.take head.declared ++ (front ++ more)).length) := by
            rw [List.length_append, reach]
            omega
          have dropped : (bytes.take head.declared ++ (front ++ more)).drop head.declared =
              front ++ more := by
            rw [List.drop_append_of_le_length (by omega), List.drop_of_length_le (by omega),
              List.nil_append]
          rw [List.append_assoc, walk, decode]
          simp only [stay, if_false, List.find?_cons, other, dropped]
          exact later more again

/-- The segment found for an owner is none, or its header names the owner. -/
theorem owner_segmentFor (frame : Frame) (owner : UInt8) :
    frame.segmentFor owner = [] ∨
      ∃ header, SegmentHeader.decode (frame.segmentFor owner) = .ok header ∧
        header.owner = owner := by
  unfold segmentFor
  split
  · next header rest found =>
    refine .inr ⟨header, decode_of_mem_walk (List.mem_of_find?_eq_some found), ?_⟩
    simpa using List.find?_some found
  · exact .inl rfl

end Frame

/-- The first segment for an owner that the walk over a payload reaches: its header, with the bytes
from there to the end. -/
def firstFor (payload : Bytes) (owner : UInt8) : Option (SegmentHeader × Bytes) :=
  match Frame.parse payload with
  | .error _ => none
  | .ok frame => frame.segments.find? (·.1.owner == owner)

/-- A payload without a segment for an owner has no entries for it. -/
theorem entriesFor_of_firstFor_eq_none {payload : Bytes} {owner : UInt8}
    (h : firstFor payload owner = none) : entriesFor payload owner = [] := by
  unfold firstFor at h
  unfold entriesFor
  split
  · rfl
  · next frame parsed =>
    simp only [parsed] at h
    simp [Frame.segmentFor, h, Segment.parse, SegmentHeader.decode, bind, Except.bind]

/-- The segment found for an owner starts with its header. -/
theorem decode_of_firstFor {payload bytes : Bytes} {owner : UInt8} {header : SegmentHeader}
    (h : firstFor payload owner = some (header, bytes)) :
    SegmentHeader.decode bytes = .ok header := by
  unfold firstFor at h
  split at h
  · cases h
  · exact Frame.decode_of_mem_walk (List.mem_of_find?_eq_some h)

/-- The entries for an owner are those of the first segment for it, and none if that is broken. -/
theorem entriesFor_of_reads {payload bytes : Bytes} {owner : UInt8} {header : SegmentHeader}
    {reading : Option (List Entry)} (h : firstFor payload owner = some (header, bytes))
    (reads : Reads header bytes reading) : entriesFor payload owner = reading.getD [] := by
  have read := toOption_entries_of_reads (decode_of_firstFor h) reads
  unfold firstFor at h
  split at h
  · cases h
  · next frame parsed =>
    have segment : frame.segmentFor owner = bytes := by simp [Frame.segmentFor, h]
    rw [entriesFor, parsed]
    simp only [segment, ← read]
    cases Segment.parse bytes >>= Segment.entries <;> rfl

/-- The first segment for an owner is found in the same place, and its frame is as urgent, whatever
comes after its header. -/
theorem firstFor_append {payload bytes : Bytes} {owner : UInt8} {header : SegmentHeader}
    (h : firstFor payload owner = some (header, bytes)) :
    ∃ front, payload = front ++ bytes ∧ ∀ more, SegmentHeader.decode more = .ok header →
      firstFor (front ++ more) owner = some (header, more) ∧
        flaggedUrgent (front ++ more) = flaggedUrgent payload := by
  match payload with
  | [] | [_] => simp [firstFor, Frame.parse, FrameHeader.decode, bind, Except.bind] at h
  | urgency :: count :: body =>
    have found :
        (Frame.walk count.toNat body).find? (·.1.owner == owner) = some (header, bytes) := h
    obtain ⟨front, split, later⟩ := Frame.find?_walk_append found
    refine ⟨urgency :: count :: front, ?_, fun more again ↦ ⟨later more again, rfl⟩⟩
    exact congrArg (urgency :: count :: ·) split

end CollectionTree.Wire
