import CollectionTree.Proofs.Wire.Decoding
import Mathlib.Algebra.GroupWithZero.Nat

/-!
# Where the walk over a frame stops

Arbitrary bytes are walked from header to header. `Frame.Scans` says where the walk stops in terms
of the bytes and of the lengths that they state alone: each stop lies behind the one before it by
the length that this one states, and there is a next stop exactly if the count allows one, two bytes
are left, and all lengths so far could be stepped over.

The main statement is `Frame.segments_scan`: the stops of every payload are those, and no others,
and the bytes found for an owner start at the first stop that names it.
-/

namespace CollectionTree.Wire.Frame

/-- A header with the bytes from it to the end. -/
abbrev Stop := SegmentHeader × Bytes

/-- The length that a header states covers the header and is all there. -/
def Sound (stop : Stop) : Prop :=
  segmentHeaderLength ≤ stop.1.declared ∧ stop.1.declared ≤ stop.2.length

instance (stop : Stop) : Decidable (Sound stop) := inferInstanceAs (Decidable (_ ∧ _))

/-- The place behind the first `i` stops of a walk that starts at `place`: the lengths that they
state lead there. -/
def placeOf (place : Nat) (stops : List Stop) (i : Nat) : Nat :=
  place + ((stops.take i).map fun stop ↦ stop.1.declared).sum

/-- These are the stops of a walk over `payload` that starts at `place` and takes at most `count`
steps. -/
structure Scans (payload : Bytes) (place count : Nat) (stops : List Stop) : Prop where
  /-- Every stop is at the place to which the lengths before it lead. -/
  rest : ∀ (i : Nat) (h : i < stops.length), stops[i].2 = payload.drop (placeOf place stops i)
  /-- Its header is the two bytes there. -/
  header : ∀ (i : Nat) (h : i < stops.length),
    SegmentHeader.decode (payload.drop (placeOf place stops i)) = .ok stops[i].1
  /-- After some stops there is another one exactly if they are fewer than the count, two bytes are
  left, and every length so far could be stepped over. -/
  next_iff : ∀ i ≤ stops.length, i < stops.length ↔
    i < count ∧ placeOf place stops i + segmentHeaderLength ≤ payload.length ∧
      ∀ stop ∈ stops.take i, Sound stop

/-- No stops lead anywhere else. -/
@[simp] theorem placeOf_zero (place : Nat) (stops : List Stop) :
    placeOf place stops 0 = place :=
  rfl

/-- Each stop leads as far on as it declares. -/
@[simp] theorem placeOf_cons_succ (place : Nat) (stop : Stop) (stops : List Stop) (i : Nat) :
    placeOf place (stop :: stops) (i + 1) = placeOf (place + stop.1.declared) stops i := by
  simp [placeOf, Nat.add_assoc]

/-- Each stop is as far behind the one before it as this one states. -/
theorem placeOf_succ (place : Nat) {stops : List Stop} {i : Nat} (lt : i < stops.length) :
    placeOf place stops (i + 1) = placeOf place stops i + stops[i].1.declared := by
  rw [placeOf, placeOf, List.take_succ_eq_append_getElem lt, List.map_append, List.sum_append,
    List.map_singleton, List.sum_singleton, Nat.add_assoc]

private theorem exists_decode_iff (bytes : Bytes) :
    (∃ header, SegmentHeader.decode bytes = .ok header) ↔ segmentHeaderLength ≤ bytes.length := by
  match bytes with
  | [] | [_] => simp [SegmentHeader.decode, segmentHeaderLength]
  | _ :: _ :: _ => simp [SegmentHeader.decode, segmentHeaderLength]

/-! ## What a walk does -/

variable {payload : Bytes} {place count : Nat} {stops : List Stop}

/-- Without steps left, or without two bytes, there are no stops. -/
theorem scans_nil (ended : count = 0 ∨ payload.length < place + segmentHeaderLength) :
    Scans payload place count [] where
  rest _ h := absurd h (Nat.not_lt_zero _)
  header _ h := absurd h (Nat.not_lt_zero _)
  next_iff i le := by
    obtain rfl := Nat.le_zero.1 le
    simp only [List.length_nil, placeOf_zero, List.take_nil, List.not_mem_nil]
    omega

/-- A length that cannot be stepped over makes its stop the last. -/
theorem scans_last {header : SegmentHeader}
    (decoded : SegmentHeader.decode (payload.drop place) = .ok header)
    (unsound : ¬Sound (header, payload.drop place)) :
    Scans payload place (count + 1) [(header, payload.drop place)] where
  rest i h := by
    obtain rfl := Nat.lt_one_iff.1 h
    rfl
  header i h := by
    obtain rfl := Nat.lt_one_iff.1 h
    exact decoded
  next_iff i le := by
    have there := (exists_decode_iff _).1 ⟨header, decoded⟩
    rw [List.length_drop] at there
    cases i with
    | zero =>
      simp only [segmentHeaderLength, List.length_singleton, placeOf_zero, List.take_zero,
        List.not_mem_nil] at there ⊢
      simp
      omega
    | succ i =>
      have none : ¬∀ stop ∈ [(header, payload.drop place)].take (i + 1), Sound stop := by
        simpa using unsound
      simp only [none, and_false, iff_false]
      exact Nat.not_lt.2 (Nat.le_add_left 1 i)

/-- A length that can be stepped over leads to the stops from behind it. -/
theorem Scans.cons {header : SegmentHeader}
    (decoded : SegmentHeader.decode (payload.drop place) = .ok header)
    (sound : Sound (header, payload.drop place))
    (later : Scans payload (place + header.declared) count stops) :
    Scans payload place (count + 1) ((header, payload.drop place) :: stops) where
  rest i h := by
    cases i with
    | zero => rfl
    | succ i => simpa using later.rest i (Nat.lt_of_succ_lt_succ h)
  header i h := by
    cases i with
    | zero => exact decoded
    | succ i => simpa using later.header i (Nat.lt_of_succ_lt_succ h)
  next_iff i le := by
    have there := (exists_decode_iff _).1 ⟨header, decoded⟩
    rw [List.length_drop] at there
    cases i with
    | zero =>
      simp only [segmentHeaderLength] at there ⊢
      simp
      omega
    | succ i =>
      have next := later.next_iff i (Nat.le_of_succ_le_succ le)
      rw [placeOf_cons_succ, List.length_cons, Nat.add_lt_add_iff_right, Nat.add_lt_add_iff_right,
        List.take_succ_cons, List.forall_mem_cons, and_iff_right sound]
      exact next

/-- The walk stops where the bytes and the lengths that they state say. -/
theorem scans_walk (payload : Bytes) (count place : Nat) :
    Scans payload place count (walk count (payload.drop place)) := by
  induction count generalizing place with
  | zero => exact scans_nil (.inl rfl)
  | succ count ih =>
    rw [walk]
    split
    · next cause failed =>
      have short := ((SegmentHeader.decode_eq_error_iff _ _).1 failed).1
      rw [List.length_drop] at short
      exact scans_nil (.inr (by omega))
    · next header decoded =>
      split
      · next unsound =>
        apply scans_last decoded
        simp only [Sound]
        omega
      · next onward =>
        have sound : Sound (header, payload.drop place) := by
          simp only [Sound]
          omega
        rw [List.drop_drop]
        exact (ih (place + header.declared)).cons decoded sound

/-! ## The stops are determined -/

/-- Two walks over the same bytes that agree so far agree on whether there is another stop, and
where. -/
theorem Scans.take_eq {others : List Stop} (scans : Scans payload place count stops)
    (also : Scans payload place count others) (i : Nat) : stops.take i = others.take i := by
  induction i with
  | zero => rfl
  | succ i ih =>
    have ended (few : stops.length ≤ i) (fewer : others.length ≤ i) :
        stops.take (i + 1) = others.take (i + 1) := by
      rw [List.take_of_length_le few, List.take_of_length_le fewer] at ih
      rwa [List.take_of_length_le (Nat.le_succ_of_le few),
        List.take_of_length_le (Nat.le_succ_of_le fewer)]
    by_cases le : i ≤ stops.length ∧ i ≤ others.length
    · have same : placeOf place stops i = placeOf place others i := by rw [placeOf, placeOf, ih]
      have next : i < stops.length ↔ i < others.length := by
        rw [scans.next_iff i le.1, also.next_iff i le.2, same, ih]
      by_cases lt : i < stops.length
      · have otherLt : i < others.length := next.1 lt
        have header : stops[i].1 = others[i].1 := by
          have mine := scans.header i lt
          rw [same, also.header i otherLt] at mine
          exact (Except.ok.inj mine).symm
        have rest : stops[i].2 = others[i].2 := by
          rw [scans.rest i lt, also.rest i otherLt, same]
        rw [List.take_succ_eq_append_getElem lt, List.take_succ_eq_append_getElem otherLt, ih,
          Prod.ext header rest]
      · exact ended (Nat.not_lt.1 lt) (Nat.not_lt.1 (next.not.1 lt))
    · have lengths := congrArg List.length ih
      simp only [List.length_take] at lengths
      exact ended (by omega) (by omega)

private theorem Scans.unique {others : List Stop} (scans : Scans payload place count stops)
    (also : Scans payload place count others) : stops = others := by
  have all := scans.take_eq also (max stops.length others.length)
  rwa [List.take_of_length_le (Nat.le_max_left ..), List.take_of_length_le (Nat.le_max_right ..)]
    at all

/-! ## What follows for the stops -/

private theorem Scans.length_le (scans : Scans payload place count stops) :
    stops.length ≤ count := by
  by_contra more
  have next := (scans.next_iff count (Nat.not_le.1 more).le).1 (Nat.not_le.1 more)
  exact Nat.lt_irrefl _ next.1

/-- Only the last length may be one that cannot be stepped over. -/
theorem Scans.sound_of_next (scans : Scans payload place count stops) {i : Nat}
    (lt : i + 1 < stops.length) : Sound stops[i] := by
  have next := (scans.next_iff (i + 1) lt.le).1 lt
  apply next.2.2
  rw [List.take_succ_eq_append_getElem (by omega)]
  exact List.mem_append_right _ (List.mem_singleton_self _)

/-- A stop starts in the bytes of the one before it, behind the length that this one states. -/
theorem Scans.rest_succ (scans : Scans payload place count stops) {i : Nat}
    (lt : i + 1 < stops.length) :
    stops[i + 1].2 = stops[i].2.drop stops[i].1.declared := by
  rw [scans.rest (i + 1) lt, scans.rest i (by omega), placeOf_succ place (by omega),
    List.drop_drop]

/-- What is found for an owner are the bytes at the first stop that names it. -/
theorem segmentFor_of_first (frame : Frame) {owner : UInt8} {i : Nat}
    (lt : i < frame.segments.length) (named : frame.segments[i].1.owner = owner)
    (first : ∀ (j : Nat) (h : j < i), frame.segments[j].1.owner ≠ owner) :
    frame.segmentFor owner = frame.segments[i].2 := by
  have found : frame.segments.find? (fun stop ↦ stop.1.owner == owner) =
      some frame.segments[i] := by
    rw [List.find?_eq_some_iff_getElem]
    refine ⟨beq_iff_eq.2 named, i, lt, rfl, fun j h ↦ ?_⟩
    simpa using first j h
  rw [segmentFor, found]

/-- Nothing is found for an owner exactly if no stop names it. -/
theorem segmentFor_eq_nil_iff (frame : Frame) (owner : UInt8) :
    frame.segmentFor owner = [] ↔ ∀ stop ∈ frame.segments, stop.1.owner ≠ owner := by
  unfold segmentFor
  split
  · next header rest found =>
    have mem := List.mem_of_find?_eq_some found
    have named : header.owner = owner := by simpa using List.find?_some found
    constructor
    · rintro rfl
      cases decode_of_mem_walk mem
    · intro none
      exact absurd named (none _ mem)
  · next absent => simpa [List.find?_eq_none] using absent

private theorem exists_parse {payload : Bytes} (whole : frameHeaderLength ≤ payload.length) :
    ∃ frame, Frame.parse payload = .ok frame ∧
      payload[1]? = some frame.header.segmentCount ∧
      frame.body = payload.drop frameHeaderLength := by
  match payload with
  | [] | [_] => simp [frameHeaderLength] at whole
  | urgency :: count :: body => exact ⟨_, rfl, rfl, rfl⟩

/-- The stops of the walk over a payload are at most as many as its count says. The first is behind
the frame's header, each other one behind the length that the one before it states, and all but the
last state lengths that can be stepped over; there is a next one exactly as long as the count, the
bytes and those lengths allow it. What is found for an owner are the bytes from the first stop that
names it, and none exactly if no stop does. -/
theorem segments_scan (payload : Bytes) (whole : frameHeaderLength ≤ payload.length) :
    ∃ frame, Frame.parse payload = .ok frame ∧
      payload[1]? = some frame.header.segmentCount ∧
      frame.segments.length ≤ frame.header.segmentCount.toNat ∧
      (∀ stops, Scans payload frameHeaderLength frame.header.segmentCount.toNat stops ↔
        stops = frame.segments) ∧
      (∀ (i : Nat) (h : i + 1 < frame.segments.length), Sound frame.segments[i] ∧
        frame.segments[i + 1].2 = frame.segments[i].2.drop frame.segments[i].1.declared) ∧
      ∀ owner,
        (∀ (i : Nat) (h : i < frame.segments.length), frame.segments[i].1.owner = owner →
          (∀ (j : Nat) (_ : j < i), frame.segments[j].1.owner ≠ owner) →
          frame.segmentFor owner =
            payload.drop (placeOf frameHeaderLength frame.segments i)) ∧
        (frame.segmentFor owner = [] ↔ ∀ stop ∈ frame.segments, stop.1.owner ≠ owner) := by
  obtain ⟨frame, parsed, count, body⟩ := exists_parse whole
  have scans : Scans payload frameHeaderLength frame.header.segmentCount.toNat frame.segments := by
    rw [segments, body]
    exact scans_walk ..
  refine ⟨frame, parsed, count, scans.length_le, ?_, ?_, ?_⟩
  · intro stops
    constructor
    · intro other
      exact other.unique scans
    · rintro rfl
      exact scans
  · intro i lt
    exact ⟨scans.sound_of_next lt, scans.rest_succ lt⟩
  · intro owner
    refine ⟨?_, segmentFor_eq_nil_iff frame owner⟩
    intro i lt named first
    rw [segmentFor_of_first frame lt named first, scans.rest i lt]

/-- A payload that announces four segments: two whole ones for the same owner, one that states more
bytes than there are, and another behind its header. -/
def overrunPayload : Bytes := [0, 4, 5, 4, 0, 0, 5, 2, 6, 9, 7, 2]

/-- The walk ends with the segment that states too much. -/
theorem segments_scan_overrun :
    frameHeaderLength ≤ overrunPayload.length ∧
      ∃ frame, Frame.parse overrunPayload = .ok frame ∧
        frame.segments.map (·.1) = [⟨5, 4⟩, ⟨5, 2⟩, ⟨6, 9⟩] ∧
        Scans overrunPayload frameHeaderLength 4 frame.segments ∧
        frame.segmentFor 5 = overrunPayload.drop 2 ∧
        frame.segmentFor 6 = overrunPayload.drop 8 ∧ frame.segmentFor 7 = [] := by
  have whole : frameHeaderLength ≤ overrunPayload.length := by decide
  obtain ⟨frame, parsed, -, -, scans, -, found⟩ := segments_scan overrunPayload whole
  obtain rfl := Except.ok.inj parsed
  have first := (found 5).1 0 (by decide) rfl (by simp)
  have third := (found 6).1 2 (by decide) rfl (by decide)
  exact ⟨whole, _, rfl, rfl, (scans _).2 rfl, first, third, (found 7).2.2 (by decide)⟩

end CollectionTree.Wire.Frame
