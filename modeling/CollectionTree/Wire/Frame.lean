import CollectionTree.Wire.Segment

/-!
# Frames

A frame is one radio payload: an urgency, a count of segments, and the segments. `FrameBuilder` puts
segments one after another as long as the payload has room; `Frame` finds the segment for an
accumulator by stepping from header to header, never further than the count says.
-/

namespace CollectionTree.Wire

/-- A frame being built for a radio that carries `maxPayload` bytes, with its segments so far. -/
structure FrameBuilder where
  urgency : Urgency
  maxPayload : Nat
  segments : Bytes := []
  segmentCount : UInt8 := 0
  deriving DecidableEq, Repr

namespace FrameBuilder

/-- The frame's length so far, header included. -/
def length (builder : FrameBuilder) : Nat := frameHeaderLength + builder.segments.length

/-- Whether no segment was added. -/
def isEmpty (builder : FrameBuilder) : Bool := builder.segmentCount == 0

/-- Bytes left before the payload is full. -/
def remaining (builder : FrameBuilder) : Nat := builder.maxPayload - builder.length

/-- The room for one more segment, unless 255 segments are there or not even a header fits. -/
def room? (builder : FrameBuilder) : Option Nat :=
  if builder.segmentCount = 255 ∨ builder.remaining < segmentHeaderLength then none
  else some builder.remaining

/-- Offer the room that is left to `fill` and add the bytes that it wrote there, which count as one
segment if there are any. Where there is no room, `fill` is not asked. -/
def appendWith {α : Type} (builder : FrameBuilder) (fill : Nat → α × Bytes) :
    Option α × FrameBuilder :=
  match builder.room? with
  | none => (none, builder)
  | some room =>
    let (answer, bytes) := fill room
    let written := bytes.take room
    (some answer,
      { builder with
        segments := builder.segments ++ written
        segmentCount :=
          if written.isEmpty then builder.segmentCount else builder.segmentCount + 1 })

/-- Whether the frame is long enough to carry a record. -/
def isWorthSending (builder : FrameBuilder) : Bool := builder.length ≥ minFrameLength

/-- The finished frame. -/
def finish (builder : FrameBuilder) : Bytes :=
  FrameHeader.encode ⟨builder.urgency, builder.segmentCount⟩ ++ builder.segments

/-- A frame has as many bytes as the builder counted. -/
@[simp] theorem length_finish (builder : FrameBuilder) :
    builder.finish.length = builder.length := by
  simp [finish, FrameHeader.encode, length, frameHeaderLength]; omega

end FrameBuilder

/-- A received payload with its header taken off and its segments not looked at yet. -/
structure Frame where
  header : FrameHeader
  body : Bytes
  deriving DecidableEq, Repr

namespace Frame

/-- Take the header off a payload. -/
def parse (payload : Bytes) : Except Error Frame := do
  let header ← FrameHeader.decode payload
  return ⟨header, payload.drop frameHeaderLength⟩

/-- Whether the frame was sent ahead of the schedule. -/
def isUrgent (frame : Frame) : Bool := frame.header.urgency.isUrgent

/-- Step over at most `count` segments of `rest`: each header found, with the bytes from it to the
end. The walk ends early where no header is left, and after a header whose length leads nowhere. -/
def walk : Nat → Bytes → List (SegmentHeader × Bytes)
  | 0, _ => []
  | count + 1, rest =>
    match SegmentHeader.decode rest with
    | .error _ => []
    | .ok header =>
      if header.declared < segmentHeaderLength ∨ header.declared > rest.length then [(header, rest)]
      else (header, rest) :: walk count (rest.drop header.declared)

/-- The segment headers that the frame's count covers, each with the bytes from it to the end. -/
def segments (frame : Frame) : List (SegmentHeader × Bytes) :=
  walk frame.header.segmentCount.toNat frame.body

/-- The bytes from the first segment for `owner` to the end; none if no segment is for it. -/
def segmentFor (frame : Frame) (owner : UInt8) : Bytes :=
  match frame.segments.find? fun segment ↦ segment.1.owner == owner with
  | some (_, rest) => rest
  | none => []

end Frame

end CollectionTree.Wire
