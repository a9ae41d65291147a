import CollectionTree.Proofs.Wire.RoundTrip
import Mathlib.Data.List.Forall2

/-!
# Frames put together part by part

The room of a frame is offered to one part after another. Each opens a segment there, pushes its
entries in turn and goes past those that do not fit, and seals the segment. `Offer` is what came of
one offer; the parts that a frame keeps are those of the offers that added bytes.

The main statement is `FrameBuilder.readsBack_offerAll`: whatever is offered, in any order and
however often, the finished frame is read back to the kept parts.
-/

namespace CollectionTree.Wire

/-! ## One segment -/

namespace SegmentWriter

/-- Push entries one after another, past those that are refused: the entries that were taken, and
the writer after them. -/
def pushAll (writer : SegmentWriter) : List Entry → List Entry × SegmentWriter
  | [] => ([], writer)
  | entry :: rest =>
    match writer.push? entry with
    | some next => (entry :: (next.pushAll rest).1, (next.pushAll rest).2)
    | none => writer.pushAll rest

/-- Write a segment of those entries that fit into `room` bytes: the entries taken, and the bytes.
-/
def writeInto (owner : UInt8) (entries : List Entry) (room : Nat) : List Entry × Bytes :=
  match open? room owner with
  | some writer => ((writer.pushAll entries).1, (writer.pushAll entries).2.finish)
  | none => ([], [])

private theorem Holds.pushAll {writer : SegmentWriter} {before : List Entry}
    (held : writer.Holds before) (entries : List Entry) :
    (writer.pushAll entries).2.Holds (before ++ (writer.pushAll entries).1) ∧
      (writer.pushAll entries).2.owner = writer.owner ∧
      (writer.pushAll entries).2.limit = writer.limit := by
  induction entries generalizing writer before with
  | nil => simpa [SegmentWriter.pushAll] using held
  | cons entry rest ih =>
    cases pushed : writer.push? entry with
    | none => simpa only [SegmentWriter.pushAll, pushed] using ih held
    | some next =>
      obtain ⟨nextHeld, owner, limit⟩ := held.push? pushed
      obtain ⟨lastHeld, lastOwner, lastLimit⟩ := ih nextHeld
      simp only [SegmentWriter.pushAll, pushed]
      exact ⟨by simpa using lastHeld, lastOwner.trans owner, lastLimit.trans limit⟩

/-- What is written is the segment of the entries taken, or nothing if none was, and it fits. -/
theorem writeInto_spec (owner : UInt8) (entries : List Entry) (room : Nat) :
    (writeInto owner entries room).2 = (if (writeInto owner entries room).1 = [] then []
        else segmentOf owner (writeInto owner entries room).1) ∧
      SegmentSized (writeInto owner entries room).1 ∧
      (writeInto owner entries room).2.length ≤ room := by
  cases opened : open? room owner with
  | none => simp [writeInto, opened, SegmentSized, segmentHeaderLength, maxFieldLength]
  | some writer =>
    obtain ⟨start, startOwner, startLimit⟩ := holds_open? opened
    obtain ⟨held, sameOwner, sameLimit⟩ := start.pushAll entries
    rw [List.nil_append] at held
    simp only [writeInto, opened]
    refine ⟨?_, held.sized, ?_⟩
    · rw [held.finish, sameOwner, startOwner]
    · have fits := held.fits
      rw [length_finish]
      split <;> omega

end SegmentWriter

/-! ## One offer after another -/

/-- What came of offering a frame's room to the part for one accumulator: whether it was asked to
write at all, the entries that were taken, and the bytes that were added to the frame. -/
structure Offer where
  owner : UInt8
  asked : Bool
  taken : List Entry
  written : Nat
  deriving DecidableEq, Repr

/-- The part that the frame keeps of an offer. -/
def Offer.part? (offer : Offer) : Option Part :=
  if offer.written = 0 then none else some (offer.owner, offer.taken)

private theorem length_filterMap_part? (offers : List Offer) :
    (offers.filterMap Offer.part?).length = offers.countP (·.written ≠ 0) := by
  induction offers with
  | nil => rfl
  | cons offer rest ih =>
    by_cases h : offer.written = 0 <;> simpa [Offer.part?, h, List.countP_cons] using ih

namespace FrameBuilder

/-- Offer the room that is left to a part. -/
def offer (builder : FrameBuilder) (part : Part) : Offer × FrameBuilder :=
  let (answer, next) := builder.appendWith (SegmentWriter.writeInto part.1 part.2)
  (⟨part.1, answer.isSome, answer.getD [], next.segments.length - builder.segments.length⟩, next)

/-- Offer the room that is left to some parts in turn. -/
def offerAll (builder : FrameBuilder) : List Part → List Offer × FrameBuilder
  | [] => ([], builder)
  | part :: rest =>
    ((builder.offer part).1 :: ((builder.offer part).2.offerAll rest).1,
      ((builder.offer part).2.offerAll rest).2)

/-- Where there is no room, the part is not asked and the frame stays as it is. -/
theorem offer_of_room?_eq_none {builder : FrameBuilder} (h : builder.room? = none) (part : Part) :
    builder.offer part = (⟨part.1, false, [], 0⟩, builder) := by
  simp [offer, appendWith, h]

/-- Offering room never makes a frame longer than it may be, unless it is so already. -/
theorem length_appendWith_le {α : Type} (builder : FrameBuilder) (fill : Nat → α × Bytes) :
    (builder.appendWith fill).2.length ≤ max builder.maxPayload builder.length := by
  unfold appendWith
  cases hroom : builder.room? with
  | none => exact Nat.le_max_right ..
  | some room =>
    have left : room = builder.remaining := by
      unfold room? at hroom
      split at hroom <;> simp_all
    have short : ((fill room).2.take room).length ≤ builder.remaining := by
      rw [List.length_take]
      omega
    simp only [remaining, length, List.length_append] at short ⊢
    omega

/-- A further part keeps how much a frame may have. -/
theorem maxPayload_appendWith {α : Type} (builder : FrameBuilder) (fill : Nat → α × Bytes) :
    (builder.appendWith fill).2.maxPayload = builder.maxPayload := by
  unfold appendWith
  split <;> rfl

/-- A further part keeps the urgency of a frame. -/
theorem urgency_appendWith {α : Type} (builder : FrameBuilder) (fill : Nat → α × Bytes) :
    (builder.appendWith fill).2.urgency = builder.urgency := by
  unfold appendWith
  split <;> rfl

/-- One offer adds the part that the frame keeps of it, and nothing else. -/
theorem Holds.offer {builder : FrameBuilder} {parts : List Part} (held : builder.Holds parts)
    (part : Part) :
    (builder.offer part).2.Holds (parts ++ (builder.offer part).1.part?.toList) := by
  cases hroom : builder.room? with
  | none => simpa [offer_of_room?_eq_none hroom, Offer.part?] using held
  | some room =>
    obtain ⟨bytes, sized, short⟩ := SegmentWriter.writeInto_spec part.1 part.2 room
    obtain ⟨answer, -, after⟩ := held.appendWith hroom _ bytes sized short
    have taken : (builder.offer part).1.taken = (SegmentWriter.writeInto part.1 part.2 room).1 := by
      simp [FrameBuilder.offer, answer]
    have written : (builder.offer part).1.written =
        (builder.offer part).2.segments.length - builder.segments.length := rfl
    change (builder.offer part).2.Holds _ at after
    rw [← taken] at after
    rw [held.segments, after.segments] at written
    by_cases empty : (builder.offer part).1.taken = []
    · rw [if_pos empty] at after written
      simpa [Offer.part?, written] using after
    · rw [if_neg empty] at after written
      have some : (builder.offer part).1.written ≠ 0 := by
        rw [written]
        simp [segmentsOf, length_segmentOf, segmentHeaderLength]
      have owner : (builder.offer part).1.owner = part.1 := rfl
      simpa [Offer.part?, some, owner] using after

/-- A run of offers keeps the parts of those that added bytes, in turn. -/
theorem Holds.offerAll {builder : FrameBuilder} {before : List Part} (held : builder.Holds before)
    (parts : List Part) :
    (builder.offerAll parts).2.Holds
      (before ++ (builder.offerAll parts).1.filterMap Offer.part?) := by
  induction parts generalizing builder before with
  | nil => simpa [FrameBuilder.offerAll] using held
  | cons part rest ih =>
    have next := ih (held.offer part)
    cases kept : (builder.offer part).1.part? <;>
      simpa [FrameBuilder.offerAll, kept] using next

/-- A run of offers keeps the frame's urgency and the most that it may carry, and stays within it.
-/
theorem offerAll_keeps (builder : FrameBuilder) (parts : List Part) :
    (builder.offerAll parts).2.urgency = builder.urgency ∧
      (builder.offerAll parts).2.length ≤ max builder.maxPayload builder.length := by
  induction parts generalizing builder with
  | nil => exact ⟨rfl, Nat.le_max_right ..⟩
  | cons part rest ih =>
    obtain ⟨urgency, within⟩ := ih (builder.offer part).2
    have most : (builder.offer part).2.maxPayload = builder.maxPayload :=
      maxPayload_appendWith ..
    have one : (builder.offer part).2.length ≤ max builder.maxPayload builder.length :=
      length_appendWith_le ..
    refine ⟨urgency.trans (urgency_appendWith ..), ?_⟩
    rw [most] at within
    simp only [FrameBuilder.offerAll]
    omega

/-- No part is asked any more once the frame has 255 segments. -/
theorem Holds.not_asked_of_full {builder : FrameBuilder} {before : List Part}
    (held : builder.Holds before) (parts : List Part) {i : Nat} {offer : Offer}
    (found : (builder.offerAll parts).1[i]? = some offer)
    (full : before.length + ((builder.offerAll parts).1.take i).countP (·.written ≠ 0) = 255) :
    offer.asked = false ∧ offer.written = 0 := by
  induction parts generalizing builder before i with
  | nil => simp [FrameBuilder.offerAll] at found
  | cons part rest ih =>
    cases i with
    | zero =>
      have count : builder.segmentCount = 255 := by
        have := held.count
        simp at full
        exact UInt8.toNat_inj.1 (by simp; omega)
      have none : builder.room? = none := by simp [room?, count]
      simp only [FrameBuilder.offerAll, List.getElem?_cons_zero, Option.some.injEq,
        offer_of_room?_eq_none none] at found
      simp [← found]
    | succ i =>
      refine ih (held.offer part) (by simpa [FrameBuilder.offerAll] using found) ?_
      rw [← full]
      by_cases h : (builder.offer part).1.written = 0 <;>
        simp [FrameBuilder.offerAll, Offer.part?, h]
      omega

end FrameBuilder

/-! ## The finished frame -/

/-- Every stop of a walk over written segments is parsed to the header there, the owner and the
entries. -/
theorem forall₂_parse_stops {parts : List Part} (sized : ∀ part ∈ parts, SegmentSized part.2) :
    List.Forall₂ (fun stop part ↦ ∃ segment, Segment.parse stop.2 = .ok segment ∧
      segment.header = stop.1 ∧ segment.header.owner = part.1 ∧ segment.entries = .ok part.2)
      (stops parts) parts := by
  induction parts with
  | nil => exact .nil
  | cons part parts ih =>
    have own := sized part (by simp)
    refine .cons ⟨_, parse_segmentOf part.1 own (segmentsOf parts), rfl, rfl, ?_⟩
      (ih fun p hp ↦ sized p (by simp [hp]))
    exact readFrom_encodeAll own.stated 0

/-- The declared lengths at the stops lead from each segment to the next and end with the last. -/
theorem flatMap_stops {parts : List Part} (sized : ∀ part ∈ parts, SegmentSized part.2) :
    ((stops parts).flatMap fun stop ↦ stop.2.take stop.1.declared) = segmentsOf parts := by
  induction parts with
  | nil => rfl
  | cons part parts ih =>
    have declared := declared_headerOf part.1 (sized part (by simp))
    have rest := ih fun p hp ↦ sized p (by simp [hp])
    rw [stops, List.flatMap_cons, rest, declared]
    simp [segmentsOf]

/-- A payload is read back to an urgency and some parts: its header states both, and the walk over
it stops at a segment for each part in turn, which is parsed to the part's owner and entries. -/
def ReadsBack (payload : Bytes) (urgency : Urgency) (parts : List Part) : Prop :=
  ∃ frame, Frame.parse payload = .ok frame ∧
    frame.header.urgency = urgency ∧
    frame.header.segmentCount.toNat = parts.length ∧
    List.Forall₂ (fun stop part ↦ ∃ segment, Segment.parse stop.2 = .ok segment ∧
      segment.header = stop.1 ∧ segment.header.owner = part.1 ∧ segment.entries = .ok part.2)
      frame.segments parts

namespace FrameBuilder

private theorem Holds.segments_finish {builder : FrameBuilder} {parts : List Part}
    (held : builder.Holds parts) :
    Frame.segments ⟨⟨builder.urgency, builder.segmentCount⟩, builder.segments⟩ = stops parts := by
  rw [Frame.segments, held.count, held.segments]
  exact walk_segmentsOf held.sized

/-- A finished frame is read back to what it holds. -/
theorem Holds.readsBack {builder : FrameBuilder} {parts : List Part} (held : builder.Holds parts) :
    ReadsBack builder.finish builder.urgency parts := by
  refine ⟨_, parse_finish _, rfl, held.count, ?_⟩
  rw [held.segments_finish]
  exact forall₂_parse_stops held.sized

/-- Whatever parts are offered room in an empty frame: the finished frame is as long as it may be at
most, and no part is asked after 255 were kept. Its header reads as the urgency and the number of
offers that added bytes; the walk over it stops at exactly the kept parts, in turn; at each stop the
segment is parsed to the part's owner and the entries that were taken; the segments fill the frame;
and the bytes for an owner start at the first part kept for it. -/
theorem readsBack_offerAll (urgency : Urgency) (maxPayload : Nat) (parts : List Part) :
    let offers := (offerAll { urgency, maxPayload } parts).1
    let finished := (offerAll { urgency, maxPayload } parts).2.finish
    let kept := offers.filterMap Offer.part?
    finished.length ≤ max maxPayload frameHeaderLength ∧
    (∀ i offer, offers[i]? = some offer → (offers.take i).countP (·.written ≠ 0) = 255 →
      offer.asked = false ∧ offer.written = 0) ∧
    ∃ frame, Frame.parse finished = .ok frame ∧
      frame.header.urgency = urgency ∧
      frame.header.segmentCount.toNat = offers.countP (·.written ≠ 0) ∧
      offers.countP (·.written ≠ 0) ≤ 255 ∧
      frame.segments = stops kept ∧
      List.Forall₂ (fun stop part ↦ ∃ segment, Segment.parse stop.2 = .ok segment ∧
        segment.header = stop.1 ∧ segment.header.owner = part.1 ∧ segment.entries = .ok part.2)
        frame.segments kept ∧
      (frame.segments.flatMap fun stop ↦ stop.2.take stop.1.declared) = frame.body ∧
      ∀ owner, frame.segmentFor owner = segmentsOf (kept.dropWhile (·.1 != owner)) := by
  intro offers finished kept
  have start := holds_start urgency maxPayload
  have held : (offerAll { urgency, maxPayload } parts).2.Holds kept := start.offerAll parts
  obtain ⟨sameUrgency, within⟩ := offerAll_keeps { urgency, maxPayload } parts
  have count : (offerAll { urgency, maxPayload } parts).2.segmentCount.toNat =
      offers.countP (·.written ≠ 0) := by
    rw [held.count]
    exact length_filterMap_part? offers
  have walked := held.segments_finish
  refine ⟨?_, ?_, _, parse_finish _, sameUrgency, count, ?_, ?_, ?_, ?_, ?_⟩
  · rw [length_finish]
    exact within
  · intro i offer found full
    exact start.not_asked_of_full parts found (by simpa using full)
  · rw [← count]
    have := (offerAll { urgency, maxPayload } parts).2.segmentCount.toNat_lt
    omega
  · exact walked
  · rw [walked]
    exact forall₂_parse_stops held.sized
  · rw [walked, flatMap_stops held.sized]
    exact held.segments.symm
  · exact held.segmentFor_finish

end FrameBuilder

end CollectionTree.Wire
