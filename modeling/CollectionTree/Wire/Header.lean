import CollectionTree.Bytes
import CollectionTree.Wire.Error

/-!
# Two-byte headers

A frame begins with its urgency and the number of its segments; a segment begins with the id of the
accumulator it is for and its own length, header included. Every length on the wire is one byte, so
a segment never describes more than 255 bytes.

The main statements are the two round trips, `FrameHeader.decode_encode` and
`SegmentHeader.decode_encode`.
-/

namespace CollectionTree.Wire

/-- Bytes of a frame's header. -/
def frameHeaderLength : Nat := 2

/-- Bytes of a segment's header. -/
def segmentHeaderLength : Nat := 2

/-- Bytes of a record's header. -/
def recordHeaderLength : Nat := 2

/-- The largest number that a one-byte length can state. -/
def maxFieldLength : Nat := 255

/-- The payload that a radio carries unless told otherwise. -/
def defaultMaxPayload : Nat := 128

/-- The length of the smallest frame with a record in it: one segment, one record, no bytes. -/
def minFrameLength : Nat := frameHeaderLength + segmentHeaderLength + recordHeaderLength

/-- How pressing a frame is. -/
inductive Urgency where
  /-- Sent on the schedule. -/
  | periodic
  /-- Sent ahead of the schedule. -/
  | urgent
  deriving DecidableEq, Repr

namespace Urgency

/-- Every byte but zero reads as urgent. -/
def ofByte (byte : UInt8) : Urgency :=
  if byte = 0 then periodic else urgent

/-- The byte written for an urgency. -/
def toByte : Urgency → UInt8
  | periodic => 0
  | urgent => 1

/-- The urgency of a flush asked for as urgent or not. -/
def ofBool : Bool → Urgency
  | false => periodic
  | true => urgent

/-- Whether the frame is sent ahead of the schedule. -/
def isUrgent : Urgency → Bool
  | periodic => false
  | urgent => true

/-- The urgency is read back from its byte. -/
@[simp] theorem ofByte_toByte (urgency : Urgency) : ofByte urgency.toByte = urgency := by
  cases urgency <;> rfl

/-- Whether it is urgent is read back. -/
@[simp] theorem isUrgent_ofBool (urgent : Bool) : (ofBool urgent).isUrgent = urgent := by
  cases urgent <;> rfl

/-- Any byte but zero says that it is urgent. -/
theorem isUrgent_ofByte (byte : UInt8) : (ofByte byte).isUrgent = (byte != 0) := by
  unfold ofByte
  split <;> simp_all [isUrgent]

end Urgency

/-- The header of a frame: how pressing it is as a whole, and how many segments follow. -/
structure FrameHeader where
  urgency : Urgency
  segmentCount : UInt8
  deriving DecidableEq, Repr

namespace FrameHeader

/-- The two bytes of the header. -/
def encode (header : FrameHeader) : Bytes :=
  [header.urgency.toByte, header.segmentCount]

/-- Read the header at the front of `bytes`. -/
def decode : Bytes → Except Error FrameHeader
  | urgency :: count :: _ => .ok ⟨.ofByte urgency, count⟩
  | _ => .error .incomplete

/-- The header of a frame is read back, whatever follows. -/
@[simp] theorem decode_encode (header : FrameHeader) (rest : Bytes) :
    decode (header.encode ++ rest) = .ok header := by
  simp [decode, encode]

end FrameHeader

/-- The header of a segment: the id of the accumulator that it is for, and its declared length,
header included. -/
structure SegmentHeader where
  owner : UInt8
  length : UInt8
  deriving DecidableEq, Repr

namespace SegmentHeader

/-- The declared length as a number. -/
def declared (header : SegmentHeader) : Nat := header.length.toNat

/-- The length of the records' area. -/
def bodyLength (header : SegmentHeader) : Nat := header.declared - segmentHeaderLength

/-- The two bytes of the header. -/
def encode (header : SegmentHeader) : Bytes :=
  [header.owner, header.length]

/-- Read the header at the front of `bytes`. -/
def decode : Bytes → Except Error SegmentHeader
  | owner :: length :: _ => .ok ⟨owner, length⟩
  | _ => .error .incomplete

/-- Refuse a declared length below the header's, or beyond the bytes that there are. -/
def validate (header : SegmentHeader) (available : Nat) : Except Error Unit :=
  if header.declared < segmentHeaderLength then .error .malformed
  else if header.declared > available then .error (.segmentOverrun header.declared available)
  else .ok ()

/-- The header of a segment is read back, whatever follows. -/
@[simp] theorem decode_encode (header : SegmentHeader) (rest : Bytes) :
    decode (header.encode ++ rest) = .ok header := by
  simp [decode, encode]

/-- Reading fails exactly on fewer than two bytes. -/
theorem decode_eq_error_iff (bytes : Bytes) (error : Error) :
    decode bytes = .error error ↔ bytes.length < segmentHeaderLength ∧ error = .incomplete := by
  match bytes with
  | [] | [_] => simp [decode, segmentHeaderLength, eq_comm]
  | _ :: _ :: _ =>
    simp only [decode, segmentHeaderLength, List.length_cons, reduceCtorEq, false_iff]
    omega

/-- A length passes exactly if it covers the header and is all there. -/
theorem validate_eq_ok_iff (header : SegmentHeader) (available : Nat) :
    header.validate available = .ok () ↔
      segmentHeaderLength ≤ header.declared ∧ header.declared ≤ available := by
  unfold validate
  split
  · simp; omega
  · split <;> simp <;> omega

end SegmentHeader

end CollectionTree.Wire
