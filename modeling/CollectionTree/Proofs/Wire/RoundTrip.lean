import CollectionTree.Wire.Frame
import Mathlib.Data.List.TakeWhile

/-!
# What a frame carries

A row of entries is read back from its bytes, a segment from the writer that sealed it, and the
segments of a frame from the builder that put them together. `entriesFor` is the view that the rest
of the theory uses: the entries that a receiver finds in a payload for one accumulator.

The main statement is `FrameBuilder.Holds.entriesFor_finish`: a finished frame carries for each
owner exactly the entries of the first segment that was added for it.
-/

namespace CollectionTree.Wire

/-! ## Rows of entries -/

/-- The bytes of a row of entries. -/
def encodeAll (entries : List Entry) : Bytes := entries.flatMap Entry.encode

/-- No entries take no bytes. -/
@[simp] theorem encodeAll_nil : encodeAll [] = [] := rfl

/-- The first entry's bytes come first. -/
@[simp] theorem encodeAll_cons (entry : Entry) (entries : List Entry) :
    encodeAll (entry :: entries) = entry.encode ++ encodeAll entries := rfl

/-- The bytes of some entries come before those of further ones. -/
@[simp] theorem encodeAll_append (entries more : List Entry) :
    encodeAll (entries ++ more) = encodeAll entries ++ encodeAll more := by
  simp [encodeAll]

/-- An entry takes two bytes more than its key and value. -/
theorem length_entry (entry : Entry) :
    entry.length = 2 + (entry.key.length + entry.value.length) := by
  simp [Entry.length, encodedLength, recordHeaderLength]
  omega

/-- Every entry of a row adds its own length. -/
theorem length_encodeAll_of_mem {entry : Entry} {entries : List Entry} (h : entry ∈ entries) :
    entry.length ≤ (encodeAll entries).length := by
  induction entries with
  | nil => simp at h
  | cons head rest ih =>
    simp only [encodeAll_cons, List.length_append, Entry.length_encode]
    rcases List.mem_cons.1 h with rfl | h
    · omega
    · have := ih h
      omega

/-- A row of entries whose lengths fit one byte is read back. -/
theorem readFrom_encodeAll {entries : List Entry}
    (h : ∀ e ∈ entries, e.key.length + e.value.length ≤ maxFieldLength) (offset : Nat) :
    Entry.readFrom offset (encodeAll entries) = .ok entries := by
  induction entries generalizing offset with
  | nil =>
    rw [Entry.readFrom]
    rfl
  | cons entry rest ih =>
    have split := Entry.split?_encode (h entry (by simp)) (encodeAll rest)
    have nonempty : (entry.encode ++ encodeAll rest).isEmpty = false := by simp [Entry.encode]
    rw [encodeAll_cons, Entry.readFrom, nonempty]
    simp only [Bool.false_eq_true, if_false]
    split
    · next head tail heq =>
      rw [split] at heq
      obtain ⟨rfl, rfl⟩ := Prod.mk.inj (Option.some.inj heq)
      rw [ih fun e he ↦ h e (by simp [he])]
      rfl
    · next heq => simp [split] at heq

/-- What is read from some bytes is a row of entries with exactly these bytes. -/
theorem encodeAll_of_readFrom {offset : Nat} {bytes : Bytes} {entries : List Entry}
    (h : Entry.readFrom offset bytes = .ok entries) : encodeAll entries = bytes := by
  induction entries generalizing offset bytes with
  | nil =>
    rw [Entry.readFrom] at h
    split at h
    · next empty => exact (List.isEmpty_iff.1 empty).symm
    · split at h
      · next head tail _ =>
        cases more : Entry.readFrom (offset + head.length) tail <;> simp [more, Except.map] at h
      · cases h
  | cons entry rest ih =>
    rw [Entry.readFrom] at h
    split at h
    · cases h
    · split at h
      · next head tail split =>
        cases more : Entry.readFrom (offset + head.length) tail with
        | error cause => simp [more, Except.map] at h
        | ok others =>
          simp only [more, Except.map, Except.ok.injEq, List.cons.injEq] at h
          obtain ⟨rfl, rfl⟩ := h
          rw [(Entry.split?_eq_some split).1, encodeAll_cons, ih more]
      · cases h

/-! ## Segments -/

/-- The header of the segment with these entries for an owner. -/
def headerOf (owner : UInt8) (entries : List Entry) : SegmentHeader :=
  ⟨owner, (segmentHeaderLength + (encodeAll entries).length).toUInt8⟩

/-- The segment with these entries for an owner. -/
def segmentOf (owner : UInt8) (entries : List Entry) : Bytes :=
  (headerOf owner entries).encode ++ encodeAll entries

/-- The entries fit a segment whose length one byte can state. -/
def SegmentSized (entries : List Entry) : Prop :=
  segmentHeaderLength + (encodeAll entries).length ≤ maxFieldLength

/-- A segment takes its header and its entries. -/
theorem length_segmentOf (owner : UInt8) (entries : List Entry) :
    (segmentOf owner entries).length = segmentHeaderLength + (encodeAll entries).length := by
  simp [segmentOf, SegmentHeader.encode, segmentHeaderLength]
  omega

/-- A segment declares the bytes that it has. -/
theorem declared_headerOf {entries : List Entry} (owner : UInt8) (h : SegmentSized entries) :
    (headerOf owner entries).declared = (segmentOf owner entries).length := by
  rw [length_segmentOf]
  simp [SegmentSized, maxFieldLength] at h
  simp [SegmentHeader.declared, headerOf]
  omega

/-- The header of a segment is read back, whatever follows. -/
theorem decode_segmentOf (owner : UInt8) (entries : List Entry) (rest : Bytes) :
    SegmentHeader.decode (segmentOf owner entries ++ rest) = .ok (headerOf owner entries) := by
  simp [segmentOf]

/-- A segment is parsed exactly if a header is at the front of the bytes and its declared length is
sound; the body are the bytes behind the header that it declares. -/
theorem parse_eq_ok_iff (bytes : Bytes) (segment : Segment) :
    Segment.parse bytes = .ok segment ↔
      SegmentHeader.decode bytes = .ok segment.header ∧
        segmentHeaderLength ≤ segment.header.declared ∧ segment.header.declared ≤ bytes.length ∧
        segment.body = (bytes.drop segmentHeaderLength).take segment.header.bodyLength := by
  unfold Segment.parse
  constructor
  · intro parsed
    cases decoded : SegmentHeader.decode bytes with
    | error cause => simp [decoded, bind, Except.bind] at parsed
    | ok header =>
      cases valid : header.validate bytes.length with
      | error cause => simp [decoded, valid, bind, Except.bind] at parsed
      | ok done =>
        simp only [decoded, valid, bind, Except.bind, pure, Except.pure, Except.ok.injEq] at parsed
        obtain ⟨covers, inside⟩ := (header.validate_eq_ok_iff bytes.length).1 valid
        subst parsed
        exact ⟨rfl, covers, inside, rfl⟩
  · rintro ⟨decoded, covers, inside, body⟩
    have valid := (segment.header.validate_eq_ok_iff bytes.length).2 ⟨covers, inside⟩
    rw [decoded]
    simp only [bind, Except.bind, valid, ← body]
    rfl

/-- A segment that one byte can measure is parsed to its header and its entries' bytes, whatever
follows it. -/
theorem parse_segmentOf {entries : List Entry} (owner : UInt8) (h : SegmentSized entries)
    (rest : Bytes) :
    Segment.parse (segmentOf owner entries ++ rest) =
      .ok ⟨headerOf owner entries, encodeAll entries⟩ := by
  have declared := declared_headerOf owner h
  have length := length_segmentOf owner entries
  refine (parse_eq_ok_iff _ _).2 ⟨decode_segmentOf .., ?_, ?_, ?_⟩
  · rw [declared, length]
    exact Nat.le_add_right ..
  · rw [declared, List.length_append]
    exact Nat.le_add_right ..
  · rw [SegmentHeader.bodyLength, declared, length, Nat.add_sub_cancel_left]
    simp [segmentOf, SegmentHeader.encode, segmentHeaderLength]

/-- The entries of a segment that one byte can measure have lengths that one byte can state. -/
theorem SegmentSized.stated {entries : List Entry} (h : SegmentSized entries) :
    ∀ e ∈ entries, e.key.length + e.value.length ≤ maxFieldLength := by
  intro e he
  have := length_encodeAll_of_mem he
  rw [length_entry] at this
  simp only [SegmentSized, segmentHeaderLength] at h
  omega

/-- A segment that one byte can measure is read back, whatever follows it. -/
theorem entries_parse_segmentOf {entries : List Entry} (owner : UInt8) (h : SegmentSized entries)
    (rest : Bytes) :
    Segment.parse (segmentOf owner entries ++ rest) >>= Segment.entries = .ok entries := by
  rw [parse_segmentOf owner h]
  exact readFrom_encodeAll h.stated 0

/-- The entries of a segment that was read have lengths that one byte can state. -/
theorem stated_of_entries_parse {bytes : Bytes} {entries : List Entry}
    (h : Segment.parse bytes >>= Segment.entries = .ok entries) :
    ∀ e ∈ entries, e.key.length + e.value.length ≤ maxFieldLength := by
  cases parsed : Segment.parse bytes with
  | error cause => simp [parsed, bind, Except.bind] at h
  | ok segment =>
    rw [parsed] at h
    have short : segment.body.length ≤ maxFieldLength := by
      have := segment.header.length.toNat_lt
      rw [((parse_eq_ok_iff _ _).1 parsed).2.2.2, List.length_take, SegmentHeader.bodyLength,
        SegmentHeader.declared, maxFieldLength]
      omega
    intro e he
    have read : Entry.readFrom 0 segment.body = .ok entries := h
    have part := length_encodeAll_of_mem he
    rw [encodeAll_of_readFrom read, length_entry] at part
    omega

namespace SegmentWriter

/-- The writer holds exactly these entries, within a limit that one byte can state. -/
structure Holds (writer : SegmentWriter) (entries : List Entry) : Prop where
  body : writer.body = encodeAll entries
  count : writer.count = entries.length
  fits : writer.length ≤ writer.limit
  limit : writer.limit ≤ maxFieldLength

/-- A writer that was opened holds nothing yet, for its owner and within its room. -/
theorem holds_open? {room : Nat} {owner : UInt8} {writer : SegmentWriter}
    (h : open? room owner = some writer) :
    writer.Holds [] ∧ writer.owner = owner ∧ writer.limit ≤ room := by
  unfold open? at h
  split at h
  · simp at h
  · next hroom =>
    obtain rfl := Option.some.inj h
    simp only [segmentHeaderLength] at hroom
    refine ⟨⟨rfl, rfl, ?_, Nat.min_le_right ..⟩, rfl, Nat.min_le_left ..⟩
    simp [length, segmentHeaderLength, maxFieldLength]
    omega

/-- An entry that is taken comes behind those before it. -/
theorem Holds.push? {writer writer' : SegmentWriter} {entries : List Entry} {entry : Entry}
    (held : writer.Holds entries) (h : writer.push? entry = some writer') :
    writer'.Holds (entries ++ [entry]) ∧ writer'.owner = writer.owner ∧
      writer'.limit = writer.limit := by
  have fits : writer.length + entry.length ≤ writer.limit :=
    (push?_isSome_iff writer entry).1 (by simp [h])
  have length := length_of_push? h
  unfold SegmentWriter.push? at h
  split at h
  · obtain rfl := Option.some.inj h
    refine ⟨⟨?_, ?_, ?_, held.limit⟩, rfl, rfl⟩
    · simp [held.body]
    · simp [held.count]
    · rw [length]
      exact fits
  · simp at h

/-- Finishing gives the segment of all entries, and no bytes without entries. -/
theorem Holds.finish {writer : SegmentWriter} {entries : List Entry} (held : writer.Holds entries) :
    writer.finish = if entries = [] then [] else segmentOf writer.owner entries := by
  unfold SegmentWriter.finish
  simp only [held.count, List.length_eq_zero_iff]
  split
  · rfl
  · rw [segmentOf, headerOf, SegmentWriter.length, held.body]

/-- What a writer holds makes a segment. -/
theorem Holds.sized {writer : SegmentWriter} {entries : List Entry} (held : writer.Holds entries) :
    SegmentSized entries := by
  have fits := held.fits
  have limit := held.limit
  rw [SegmentWriter.length, held.body] at fits
  exact Nat.le_trans fits limit

end SegmentWriter

/-! ## Frames -/

/-- Segments for some owners, one after another. -/
abbrev Part := UInt8 × List Entry

/-- The bytes of some segments. -/
def segmentsOf (parts : List Part) : Bytes := parts.flatMap fun part ↦ segmentOf part.1 part.2

/-- The entries of the first part for an owner; none without one. -/
def entriesOf (parts : List Part) (owner : UInt8) : List Entry :=
  ((parts.find? (·.1 == owner)).map Prod.snd).getD []

/-- The entries that a receiver finds in a payload for an owner. Neither a payload without a segment
for it nor one whose segment for it is broken has any. -/
def entriesFor (payload : Bytes) (owner : UInt8) : List Entry :=
  match Frame.parse payload with
  | .error _ => []
  | .ok frame =>
    match Segment.parse (frame.segmentFor owner) >>= Segment.entries with
    | .error _ => []
    | .ok entries => entries

/-- What is found in a payload has lengths that a byte can state. -/
theorem stated_entriesFor (payload : Bytes) (owner : UInt8) :
    ∀ e ∈ entriesFor payload owner, e.key.length + e.value.length ≤ maxFieldLength := by
  unfold entriesFor
  split
  · simp
  · next frame _ =>
    cases found : Segment.parse (frame.segmentFor owner) >>= Segment.entries with
    | error cause => simp
    | ok entries => exact stated_of_entries_parse found

/-- Whether a payload is that of a frame sent ahead of the schedule. -/
def flaggedUrgent (payload : Bytes) : Bool :=
  match Frame.parse payload with
  | .error _ => false
  | .ok frame => frame.isUrgent

/-- The places at which a walk over some segments stops: each header, with the bytes from it to the
end. -/
def stops : List Part → List (SegmentHeader × Bytes)
  | [] => []
  | part :: parts => (headerOf part.1 part.2, segmentsOf (part :: parts)) :: stops parts

/-- The walk over written segments stops at each of them in turn. -/
theorem walk_segmentsOf {parts : List Part} (sized : ∀ part ∈ parts, SegmentSized part.2) :
    Frame.walk parts.length (segmentsOf parts) = stops parts := by
  induction parts with
  | nil => rfl
  | cons part parts ih =>
    have declared := declared_headerOf part.1 (sized part (by simp))
    have length := length_segmentOf part.1 part.2
    have onward : ¬((headerOf part.1 part.2).declared < segmentHeaderLength ∨
        (headerOf part.1 part.2).declared > (segmentsOf (part :: parts)).length) := by
      rw [declared, length]
      simp only [segmentsOf, List.flatMap_cons, List.length_append, length]
      omega
    have dropped : (segmentsOf (part :: parts)).drop (headerOf part.1 part.2).declared =
        segmentsOf parts := by
      rw [declared]
      simp [segmentsOf]
    have decoded : SegmentHeader.decode (segmentsOf (part :: parts)) =
        .ok (headerOf part.1 part.2) := decode_segmentOf ..
    rw [List.length_cons, Frame.walk, decoded]
    simp only [onward, if_false, dropped, ih fun p hp ↦ sized p (by simp [hp]), stops]

/-- The first stop for an owner has the bytes from the first part for it to the end. -/
theorem find?_stops (parts : List Part) (owner : UInt8) :
    (((stops parts).find? fun segment ↦ segment.1.owner == owner).map Prod.snd).getD [] =
      segmentsOf (parts.dropWhile (·.1 != owner)) := by
  induction parts with
  | nil => rfl
  | cons part parts ih =>
    by_cases h : part.1 = owner
    · simp [stops, headerOf, h]
    · have other : (part.1 == owner) = false := beq_false_of_ne h
      have passed : (part.1 != owner) = true := bne_iff_ne.2 h
      simpa only [stops, List.find?_cons, headerOf, other, List.dropWhile_cons, passed,
        if_true] using ih

namespace FrameBuilder

/-- The builder holds exactly these segments, each of which has entries. -/
structure Holds (builder : FrameBuilder) (parts : List Part) : Prop where
  segments : builder.segments = segmentsOf parts
  count : builder.segmentCount.toNat = parts.length
  sized : ∀ part ∈ parts, SegmentSized part.2
  nonempty : ∀ part ∈ parts, part.2 ≠ []

/-- A builder starts without segments. -/
theorem holds_start (urgency : Urgency) (maxPayload : Nat) :
    Holds { urgency, maxPayload } [] :=
  ⟨rfl, rfl, by simp, by simp⟩

/-- A finished frame is read back with its urgency and its segments. -/
theorem parse_finish (builder : FrameBuilder) :
    Frame.parse builder.finish =
      .ok ⟨⟨builder.urgency, builder.segmentCount⟩, builder.segments⟩ := by
  unfold Frame.parse finish
  rw [FrameHeader.decode_encode]
  rfl

/-- A finished frame is flagged as the builder was. -/
@[simp] theorem flaggedUrgent_finish (builder : FrameBuilder) :
    flaggedUrgent builder.finish = builder.urgency.isUrgent := by
  simp [flaggedUrgent, parse_finish, Frame.isUrgent]

/-- The bytes found in a finished frame for an owner start at the first segment added for it. -/
theorem Holds.segmentFor_finish {builder : FrameBuilder} {parts : List Part}
    (held : builder.Holds parts) (owner : UInt8) :
    Frame.segmentFor ⟨⟨builder.urgency, builder.segmentCount⟩, builder.segments⟩ owner =
      segmentsOf (parts.dropWhile (·.1 != owner)) := by
  rw [← find?_stops, Frame.segmentFor, Frame.segments, held.count, held.segments,
    walk_segmentsOf held.sized]
  cases (stops parts).find? _ <;> rfl

/-- A finished frame carries for each owner the entries of the first segment added for it. -/
theorem Holds.entriesFor_finish {builder : FrameBuilder} {parts : List Part}
    (held : builder.Holds parts) (owner : UInt8) :
    entriesFor builder.finish owner = entriesOf parts owner := by
  have first : parts.find? (·.1 == owner) = (parts.dropWhile (·.1 != owner)).head? :=
    List.find?_eq_head?_dropWhile_not ..
  rw [entriesFor, parse_finish, entriesOf, first]
  simp only [held.segmentFor_finish owner]
  cases found : parts.dropWhile (·.1 != owner) with
  | nil => rfl
  | cons part after =>
    have left : part ∈ parts.dropWhile (·.1 != owner) := by simp [found]
    have hpart : part ∈ parts := (List.dropWhile_sublist _).subset left
    have front : segmentsOf (part :: after) = segmentOf part.1 part.2 ++ segmentsOf after := by
      simp [segmentsOf]
    simp [front, entries_parse_segmentOf part.1 (held.sized part hpart)]

/-- What an offer of room does where the bytes written are a segment or nothing. -/
theorem Holds.appendWith {α : Type} {builder : FrameBuilder} {parts : List Part}
    (held : builder.Holds parts) {room : Nat} (hroom : builder.room? = some room)
    (fill : Nat → α × Bytes) {owner : UInt8} {entries : List Entry}
    (bytes : (fill room).2 = if entries = [] then [] else segmentOf owner entries)
    (sized : SegmentSized entries) (short : (fill room).2.length ≤ room) :
    (builder.appendWith fill).1 = some (fill room).1 ∧
      (builder.appendWith fill).2.urgency = builder.urgency ∧
      (builder.appendWith fill).2.Holds
        (if entries = [] then parts else parts ++ [(owner, entries)]) := by
  unfold FrameBuilder.appendWith
  simp only [hroom]
  rw [List.take_of_length_le short, bytes]
  refine ⟨trivial, trivial, ?_⟩
  split
  · next h => exact ⟨by simp [held.segments], by simp [held.count], held.sized, held.nonempty⟩
  · next h =>
    have count : builder.segmentCount.toNat < 255 := by
      have hne : builder.segmentCount ≠ 255 := by
        intro h255
        simp [room?, h255] at hroom
      have := builder.segmentCount.toNat_lt
      have : builder.segmentCount.toNat ≠ 255 := fun h ↦ hne (UInt8.toNat_inj.1 h)
      omega
    have nonempty : (segmentOf owner entries).isEmpty = false := by
      simp [segmentOf, SegmentHeader.encode]
    refine ⟨?_, ?_, ?_, ?_⟩
    · simp [held.segments, segmentsOf]
    · have := held.count
      simp only [nonempty, Bool.false_eq_true, if_false, UInt8.toNat_add, List.length_append,
        List.length_singleton]
      simp
      omega
    · intro part hpart
      rcases List.mem_append.1 hpart with hpart | hpart
      · exact held.sized part hpart
      · obtain rfl := List.mem_singleton.1 hpart
        exact sized
    · intro part hpart
      rcases List.mem_append.1 hpart with hpart | hpart
      · exact held.nonempty part hpart
      · obtain rfl := List.mem_singleton.1 hpart
        exact h

/-- A frame is long enough to send exactly if it holds a segment. -/
theorem Holds.isWorthSending_iff {builder : FrameBuilder} {parts : List Part}
    (held : builder.Holds parts) : builder.isWorthSending ↔ parts ≠ [] := by
  unfold FrameBuilder.isWorthSending FrameBuilder.length
  rw [held.segments]
  cases parts with
  | nil => simp [segmentsOf, minFrameLength, frameHeaderLength, segmentHeaderLength,
      recordHeaderLength]
  | cons part parts =>
    obtain ⟨entry, hentry⟩ := List.exists_mem_of_ne_nil _ (held.nonempty part (by simp))
    have entryLength := length_encodeAll_of_mem hentry
    rw [length_entry] at entryLength
    simp [segmentsOf, length_segmentOf, minFrameLength, frameHeaderLength, segmentHeaderLength,
      recordHeaderLength]
    omega

end FrameBuilder
end CollectionTree.Wire
