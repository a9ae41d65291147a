import CollectionTree.Wire.Entry

/-!
# Segments

A segment is a header and a row of entries for one accumulator. `SegmentWriter` fills a buffer of a
given size with whole entries and never splits one; `Segment.parse` reads a segment and trusts
nothing beyond its declared length.
-/

namespace CollectionTree.Wire

/-- A segment being written: its header's place is reserved and counted in the limit, its entries so
far are in `body`. -/
structure SegmentWriter where
  owner : UInt8
  limit : Nat
  body : Bytes := []
  count : Nat := 0
  deriving DecidableEq, Repr

namespace SegmentWriter

/-- Start a segment in a buffer of `room` bytes, unless not even the header fits. -/
def open? (room : Nat) (owner : UInt8) : Option SegmentWriter :=
  if room < segmentHeaderLength then none
  else some { owner, limit := min room maxFieldLength }

/-- The length of the segment so far, header included. -/
def length (writer : SegmentWriter) : Nat := segmentHeaderLength + writer.body.length

/-- Whether an entry with these lengths still fits. -/
def fits (writer : SegmentWriter) (keyLength valueLength : Nat) : Bool :=
  writer.length + encodedLength keyLength valueLength ≤ writer.limit

/-- Add one entry, unless it does not fit. -/
def push? (writer : SegmentWriter) (entry : Entry) : Option SegmentWriter :=
  if writer.fits entry.key.length entry.value.length then
    some { writer with body := writer.body ++ entry.encode, count := writer.count + 1 }
  else none

/-- The finished segment: header and entries, or no bytes at all if there are no entries. -/
def finish (writer : SegmentWriter) : Bytes :=
  if writer.count = 0 then []
  else SegmentHeader.encode ⟨writer.owner, writer.length.toUInt8⟩ ++ writer.body

/-- A segment is refused where not even its header fits. -/
theorem open?_eq_none_iff (room : Nat) (owner : UInt8) :
    open? room owner = none ↔ room < segmentHeaderLength := by
  simp [open?]

/-- An entry is taken if it fits. -/
theorem push?_isSome_iff (writer : SegmentWriter) (entry : Entry) :
    (writer.push? entry).isSome ↔ writer.length + entry.length ≤ writer.limit := by
  by_cases h : writer.length + entry.length ≤ writer.limit <;>
    simp_all [push?, fits, Entry.length]

/-- An entry that is taken adds its bytes. -/
theorem length_of_push? {writer writer' : SegmentWriter} {entry : Entry}
    (h : writer.push? entry = some writer') : writer'.length = writer.length + entry.length := by
  simp only [push?] at h
  split at h
  · obtain rfl := Option.some.inj h
    simp [length]; omega
  · simp at h

/-- A segment without entries has no bytes. -/
theorem length_finish (writer : SegmentWriter) :
    writer.finish.length = if writer.count = 0 then 0 else writer.length := by
  simp only [finish]
  split
  · rfl
  · simp [SegmentHeader.encode, length, segmentHeaderLength]; omega

end SegmentWriter

/-- A segment whose declared length is sound, with a body as long as declared. -/
structure Segment where
  header : SegmentHeader
  body : Bytes
  deriving DecidableEq, Repr

namespace Segment

/-- Read the segment at the front of `bytes`; what lies beyond its declared length is not looked at.
-/
def parse (bytes : Bytes) : Except Error Segment := do
  let header ← SegmentHeader.decode bytes
  header.validate bytes.length
  return ⟨header, (bytes.drop segmentHeaderLength).take header.bodyLength⟩

/-- The segment's entries, or the overrun of the first that is not all there. -/
def entries (segment : Segment) : Except Error (List Entry) := Entry.readAll segment.body

end Segment

end CollectionTree.Wire
