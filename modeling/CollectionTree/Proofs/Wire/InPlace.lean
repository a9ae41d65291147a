import CollectionTree.Proofs.Wire.Assembly
import CollectionTree.Proofs.Wire.Decoding

/-!
# Segments written in place

A segment is written into the front of a buffer that belongs to the caller. `InPlaceWriter` keeps
that buffer whole, so that it can be said which of its bytes change and when: the two bytes of the
header are left free until the end, every entry is laid down behind those before it, and the header
is put in front last.

The main statement is `InPlaceWriter.one_encoding`: a segment that was read comes out again byte by
byte when its entries are written, and whatever is pushed is read back, as far as it was taken.
-/

namespace CollectionTree

namespace Bytes

/-- Put `source` over `target` from a place on, as far as `target` reaches. -/
def putAt (place : Nat) (target source : Bytes) : Bytes :=
  target.take place ++ overwrite (target.drop place) source

/-- Putting something over a buffer keeps its length. -/
@[simp] theorem length_putAt (place : Nat) (target source : Bytes) :
    (putAt place target source).length = target.length := by
  simp [putAt]
  omega

/-- Where there is room for all of `source`, it replaces as many bytes. -/
theorem putAt_of_le {place : Nat} {target source : Bytes}
    (le : place + source.length ≤ target.length) :
    putAt place target source =
      target.take place ++ source ++ target.drop (place + source.length) := by
  have whole : source.length ≤ (target.drop place).length := by
    rw [List.length_drop]
    omega
  rw [putAt, overwrite, List.take_of_length_le whole, List.drop_drop, List.append_assoc]

end Bytes

namespace Wire

/-- A segment being written into the front of a caller's buffer. Its length so far and the most that
it may have count the header. -/
structure InPlaceWriter where
  owner : UInt8
  buffer : Bytes
  length : Nat
  limit : Nat
  count : Nat := 0
  deriving DecidableEq, Repr

namespace InPlaceWriter

/-- Start a segment in a buffer, unless not even the header fits. -/
def open? (buffer : Bytes) (owner : UInt8) : Option InPlaceWriter :=
  if buffer.length < segmentHeaderLength then none
  else some
    { owner, buffer, length := segmentHeaderLength, limit := min buffer.length maxFieldLength }

/-- Write one entry behind those before it, and say whether that was done. An entry is refused where
it does not fit, and where its lengths cannot be written. -/
def push (writer : InPlaceWriter) (entry : Entry) : Bool × InPlaceWriter :=
  if writer.length + entry.length ≤ writer.limit then
    match entry.write (some (writer.limit - writer.length)) with
    | .error _ => (false, writer)
    | .ok _ =>
      (true, { writer with
        buffer := Bytes.putAt writer.length writer.buffer entry.encode
        length := writer.length + entry.length
        count := writer.count + 1 })
  else (false, writer)

/-- Write entries in turn, and say of each whether it was taken. -/
def pushAll (writer : InPlaceWriter) : List Entry → List Bool × InPlaceWriter
  | [] => ([], writer)
  | entry :: rest =>
    ((writer.push entry).1 :: ((writer.push entry).2.pushAll rest).1,
      ((writer.push entry).2.pushAll rest).2)

/-- Put the header in front if there are entries: the length of the segment, which is zero if there
are none, and the buffer. -/
def finish (writer : InPlaceWriter) : Nat × Bytes :=
  if writer.count = 0 then (0, writer.buffer)
  else (writer.length,
    Bytes.putAt 0 writer.buffer (SegmentHeader.encode ⟨writer.owner, writer.length.toUInt8⟩))

/-- The entries that were taken, by what was said of each. -/
def accepted (entries : List Entry) (answers : List Bool) : List Entry :=
  ((entries.zip answers).filter (·.2)).map (·.1)

/-! ## What a writer has written -/

/-- Into a buffer, these entries were written behind the place of the header, and nothing else. -/
structure Fills (writer : InPlaceWriter) (original : Bytes) (taken : List Entry) : Prop where
  length : writer.length = segmentHeaderLength + (encodeAll taken).length
  buffer : writer.buffer =
    original.take segmentHeaderLength ++ encodeAll taken ++ original.drop writer.length
  limit : writer.limit = min original.length maxFieldLength
  count : writer.count = taken.length
  within : writer.length ≤ writer.limit

variable {writer : InPlaceWriter} {original : Bytes} {taken : List Entry}

private theorem fills_open? {owner : UInt8} (h : open? original owner = some writer) :
    writer.Fills original [] ∧ writer.owner = owner := by
  unfold open? at h
  split at h
  · cases h
  · next room =>
    obtain rfl := Option.some.inj h
    refine ⟨⟨rfl, ?_, rfl, rfl, ?_⟩, rfl⟩
    · simp
    · simp only [segmentHeaderLength, maxFieldLength] at room ⊢
      omega

private theorem Fills.length_buffer (fills : writer.Fills original taken) :
    writer.buffer.length = original.length := by
  have length := fills.length
  have limit := fills.limit
  have within := fills.within
  rw [fills.buffer, List.length_append, List.length_append, List.length_take, List.length_drop]
  omega

/-- An entry that fits is taken, and its bytes replace as many of the buffer's. -/
theorem Fills.push_of_le (fills : writer.Fills original taken) {entry : Entry}
    (le : writer.length + entry.length ≤ min original.length maxFieldLength) :
    (writer.push entry).1 = true ∧ (writer.push entry).2.Fills original (taken ++ [entry]) ∧
      (writer.push entry).2.owner = writer.owner := by
  have fits : writer.length + entry.length ≤ writer.limit := by rwa [fills.limit]
  have stated : entry.key.length + entry.value.length ≤ maxFieldLength := by
    have := length_entry entry
    omega
  have written : entry.write (some (writer.limit - writer.length)) =
      .ok (Bytes.padTo (writer.limit - writer.length) entry.encode) := by
    have checked : checkLengths entry.key.length entry.value.length = .ok () :=
      if_neg (Nat.not_lt.2 stated)
    have room : ¬writer.limit - writer.length < entry.length := by omega
    simp [Entry.write, checked, room, bind, Except.bind, pure, Except.pure]
  have front : (original.take segmentHeaderLength ++ encodeAll taken).length = writer.length := by
    have length := fills.length
    rw [List.length_append, List.length_take]
    omega
  have room : writer.length + entry.encode.length ≤ writer.buffer.length := by
    rw [Entry.length_encode, fills.length_buffer]
    omega
  simp only [push, if_pos fits, written]
  refine ⟨trivial, ⟨?_, ?_, fills.limit, ?_, fits⟩, trivial⟩
  · simp [fills.length, Nat.add_assoc]
  · rw [Bytes.putAt_of_le room, fills.buffer, List.take_left' front, ← List.drop_drop,
      List.drop_left' front, List.drop_drop, encodeAll_append, encodeAll_cons, encodeAll_nil,
      List.append_nil, List.append_assoc _ (encodeAll taken), Entry.length_encode]
  · simp [fills.count]

/-- An entry that does not fit is refused, and the writer stays as it is. -/
theorem Fills.push_of_gt (fills : writer.Fills original taken) {entry : Entry}
    (gt : min original.length maxFieldLength < writer.length + entry.length) :
    writer.push entry = (false, writer) := by
  rw [← fills.limit] at gt
  exact if_neg (Nat.not_le.2 gt)

private theorem Fills.push_iff (fills : writer.Fills original taken) (entry : Entry) :
    (writer.push entry).1 = true ↔
      writer.length + entry.length ≤ min original.length maxFieldLength := by
  constructor
  · intro yes
    by_contra gt
    rw [fills.push_of_gt (Nat.not_le.1 gt)] at yes
    cases yes
  · intro le
    exact (fills.push_of_le le).1

private theorem Fills.push_refused (fills : writer.Fills original taken) {entry : Entry}
    (no : (writer.push entry).1 = false) : (writer.push entry).2 = writer := by
  have gt : ¬writer.length + entry.length ≤ min original.length maxFieldLength := by
    rw [← fills.push_iff, no]
    exact Bool.false_ne_true
  rw [fills.push_of_gt (Nat.not_le.1 gt)]

private theorem Fills.push (fills : writer.Fills original taken) (entry : Entry) :
    (writer.push entry).2.Fills original (taken ++ accepted [entry] [(writer.push entry).1]) ∧
      (writer.push entry).2.owner = writer.owner := by
  by_cases le : writer.length + entry.length ≤ min original.length maxFieldLength
  · obtain ⟨yes, after, owner⟩ := fills.push_of_le le
    exact ⟨by simpa [yes, accepted] using after, owner⟩
  · rw [fills.push_of_gt (Nat.not_le.1 le)]
    exact ⟨by simpa [accepted] using fills, rfl⟩

/-- It is said of each entry whether it was taken. -/
@[simp] theorem length_pushAll (writer : InPlaceWriter) (entries : List Entry) :
    (writer.pushAll entries).1.length = entries.length := by
  induction entries generalizing writer with
  | nil => rfl
  | cons entry rest ih => simp [pushAll, ih]

private theorem accepted_append {entries : List Entry} {answers : List Bool}
    (same : answers.length = entries.length) (more : List Entry) (further : List Bool) :
    accepted (entries ++ more) (answers ++ further) =
      accepted entries answers ++ accepted more further := by
  simp [accepted, List.zip_append same.symm]

private theorem accepted_cons (entry : Entry) (entries : List Entry) (answer : Bool)
    (answers : List Bool) : accepted (entry :: entries) (answer :: answers) =
      accepted [entry] [answer] ++ accepted entries answers := by
  have one : [answer].length = [entry].length := rfl
  exact accepted_append one entries answers

private theorem accepted_eq_nil_iff {entries : List Entry} {answers : List Bool}
    (same : answers.length = entries.length) :
    accepted entries answers = [] ↔ ∀ answer ∈ answers, answer = false := by
  induction entries generalizing answers with
  | nil => simp [accepted, List.eq_nil_of_length_eq_zero same]
  | cons entry rest ih =>
    obtain ⟨answer, others, rfl⟩ := List.exists_cons_of_length_eq_add_one same
    rw [accepted_cons, List.append_eq_nil_iff, ih (Nat.succ.inj same), List.forall_mem_cons]
    cases answer <;> simp [accepted]

private theorem accepted_eq_self {entries : List Entry} {answers : List Bool}
    (same : answers.length = entries.length) (all : ∀ answer ∈ answers, answer = true) :
    accepted entries answers = entries := by
  have every : ∀ pair ∈ entries.zip answers, pair.2 = true :=
    fun pair mem ↦ all _ (List.of_mem_zip mem).2
  rw [accepted, List.filter_eq_self.2 every, List.map_fst_zip same.ge]

private theorem Fills.pushAll (fills : writer.Fills original taken) (entries : List Entry) :
    (writer.pushAll entries).2.Fills original
        (taken ++ accepted entries (writer.pushAll entries).1) ∧
      (writer.pushAll entries).2.owner = writer.owner := by
  induction entries generalizing writer taken with
  | nil => exact ⟨by simpa [InPlaceWriter.pushAll, accepted] using fills, rfl⟩
  | cons entry rest ih =>
    obtain ⟨after, owner⟩ := fills.push entry
    obtain ⟨last, lastOwner⟩ := ih after
    rw [InPlaceWriter.pushAll, accepted_cons, ← List.append_assoc]
    exact ⟨last, lastOwner.trans owner⟩

private theorem pushAll_append (writer : InPlaceWriter) (entries more : List Entry) :
    writer.pushAll (entries ++ more) =
      ((writer.pushAll entries).1 ++ ((writer.pushAll entries).2.pushAll more).1,
        ((writer.pushAll entries).2.pushAll more).2) := by
  induction entries generalizing writer with
  | nil => rfl
  | cons entry rest ih => simp [pushAll, ih]

private theorem getElem?_pushAll (writer : InPlaceWriter) (entries : List Entry) {i : Nat}
    (lt : i < entries.length) : (writer.pushAll entries).1[i]? =
      some ((writer.pushAll (entries.take i)).2.push entries[i]).1 := by
  have run := pushAll_append writer (entries.take i) (entries.drop i)
  rw [List.take_append_drop, List.drop_eq_getElem_cons lt] at run
  have place : (writer.pushAll (entries.take i)).1.length = i := by
    rw [length_pushAll, List.length_take_of_le lt.le]
  rw [run, List.getElem?_append_right place.le, place, Nat.sub_self]
  rfl

/-- Entries that fit together are all taken. -/
theorem Fills.pushAll_of_le (fills : writer.Fills original taken) {entries : List Entry}
    (le : writer.length + (encodeAll entries).length ≤ min original.length maxFieldLength) :
    (∀ answer ∈ (writer.pushAll entries).1, answer = true) ∧
      (writer.pushAll entries).2.Fills original (taken ++ entries) ∧
      (writer.pushAll entries).2.owner = writer.owner := by
  induction entries generalizing writer taken with
  | nil =>
    exact ⟨by simp [InPlaceWriter.pushAll], by simpa [InPlaceWriter.pushAll] using fills, rfl⟩
  | cons entry rest ih =>
    rw [encodeAll_cons, List.length_append, Entry.length_encode] at le
    have first : writer.length + entry.length ≤ min original.length maxFieldLength := by omega
    obtain ⟨yes, after, owner⟩ := fills.push_of_le first
    have length : (writer.push entry).2.length = writer.length + entry.length := by
      rw [after.length, fills.length]
      simp [Nat.add_assoc]
    obtain ⟨all, last, lastOwner⟩ := ih after (by omega)
    refine ⟨List.forall_mem_cons.2 ⟨yes, all⟩, ?_, lastOwner.trans owner⟩
    rwa [List.append_assoc] at last

private theorem Fills.sized (fills : writer.Fills original taken) : SegmentSized taken := by
  have limit := fills.limit
  have within := fills.within
  rw [SegmentSized, ← fills.length]
  omega

/-- While nothing was taken, the buffer is as it was. -/
theorem Fills.buffer_of_nil (fills : writer.Fills original []) : writer.buffer = original := by
  rw [fills.buffer, fills.length]
  simp

/-- Nothing behind the segment so far was changed. -/
theorem Fills.drop_buffer (fills : writer.Fills original taken) {n : Nat} (le : writer.length ≤ n) :
    writer.buffer.drop n = original.drop n := by
  obtain ⟨more, rfl⟩ := Nat.exists_eq_add_of_le le
  have length := fills.length
  have limit := fills.limit
  have within := fills.within
  have front : (original.take segmentHeaderLength ++ encodeAll taken).length = writer.length := by
    rw [List.length_append, List.length_take]
    omega
  rw [← List.drop_drop, fills.buffer, List.drop_left' front, List.drop_drop]

/-- A finished buffer has the segment of the entries taken in front, and is else as it was. -/
theorem Fills.finish (fills : writer.Fills original taken) :
    writer.finish = if taken = [] then (0, original)
      else (writer.length, segmentOf writer.owner taken ++ original.drop writer.length) := by
  unfold InPlaceWriter.finish
  simp only [fills.count, List.length_eq_zero_iff]
  split
  · next none =>
    subst none
    rw [fills.buffer_of_nil]
  · have length := fills.length
    have limit := fills.limit
    have within := fills.within
    have two : (original.take segmentHeaderLength).length = segmentHeaderLength := by
      rw [List.length_take]
      omega
    have header : (SegmentHeader.encode ⟨writer.owner, writer.length.toUInt8⟩).length =
        segmentHeaderLength := rfl
    have place : 0 + (SegmentHeader.encode ⟨writer.owner, writer.length.toUInt8⟩).length ≤
        writer.buffer.length := by
      rw [header, fills.length_buffer]
      omega
    rw [Bytes.putAt_of_le place, header, fills.buffer, List.take_zero, List.nil_append,
      Nat.zero_add, List.append_assoc (original.take _), List.drop_left' two, segmentOf, headerOf,
      ← fills.length, List.append_assoc]

private theorem Fills.finish_eq_zero_iff (fills : writer.Fills original taken) :
    writer.finish.1 = 0 ↔ taken = [] := by
  have length := fills.length
  simp only [segmentHeaderLength] at length
  rw [fills.finish]
  split
  · next none => simp [none]
  · next some =>
    simp only [some, iff_false]
    omega

/-- The bytes written are the segment of the entries taken, or none. -/
theorem Fills.take_finish (fills : writer.Fills original taken) :
    writer.finish.2.take writer.finish.1 =
      if taken = [] then [] else segmentOf writer.owner taken := by
  rw [fills.finish]
  split
  · rfl
  · rw [fills.length, ← length_segmentOf writer.owner, List.take_left]

/-- Behind the segment the finished buffer is as it was. -/
theorem Fills.drop_finish (fills : writer.Fills original taken) :
    writer.finish.2.drop writer.finish.1 = original.drop writer.finish.1 := by
  rw [fills.finish]
  split
  · rfl
  · rw [fills.length, ← length_segmentOf writer.owner, List.drop_left]

private theorem Fills.length_finish (fills : writer.Fills original taken) :
    writer.finish.2.length = original.length := by
  unfold InPlaceWriter.finish
  split
  · exact fills.length_buffer
  · rw [Bytes.length_putAt, fills.length_buffer]

/-- Writing in place takes the same entries as writing into a string of bytes. -/
theorem Fills.taken_eq {plain : SegmentWriter} (fills : writer.Fills original taken)
    (held : plain.Holds taken) (limit : plain.limit = writer.limit) (entries : List Entry) :
    (plain.pushAll entries).1 = accepted entries (writer.pushAll entries).1 := by
  induction entries generalizing writer plain taken with
  | nil => rfl
  | cons entry rest ih =>
    -- At every push the lengths and the limits of both writers are equal, so both answer alike.
    have length : plain.length = writer.length := by
      rw [SegmentWriter.length, held.body, fills.length]
    rw [InPlaceWriter.pushAll, accepted_cons]
    by_cases le : writer.length + entry.length ≤ min original.length maxFieldLength
    · obtain ⟨yes, after, owner⟩ := fills.push_of_le le
      have fits : (plain.push? entry).isSome := by
        rwa [SegmentWriter.push?_isSome_iff, length, limit, fills.limit]
      obtain ⟨next, pushed⟩ := Option.isSome_iff_exists.1 fits
      obtain ⟨nextHeld, -, nextLimit⟩ := held.push? pushed
      have same : next.limit = (writer.push entry).2.limit := by
        rw [nextLimit, limit, fills.limit, after.limit]
      simp [SegmentWriter.pushAll, pushed, ih after nextHeld same, accepted, yes]
    · have refused : plain.push? entry = none := by
        rw [← Option.not_isSome_iff_eq_none, SegmentWriter.push?_isSome_iff, length, limit,
          fills.limit]
        exact le
      rw [fills.push_of_gt (Nat.not_le.1 le)]
      simp [SegmentWriter.pushAll, refused, ih fills held limit, accepted]

/-! ## Every segment has one encoding -/

/-- What became of pushing `entries` in turn with a writer that was opened on `buffer`, and of
finishing then. -/
structure Writes (writer : InPlaceWriter) (owner : UInt8) (buffer : Bytes) (entries : List Entry) :
    Prop where
  /-- Each answer is that of its push, made after the pushes before it. -/
  answer : ∀ (i : Nat) (h : i < entries.length), (writer.pushAll entries).1[i]? =
    some ((writer.pushAll (entries.take i)).2.push entries[i]).1
  /-- The running length is that of the header and of the entries taken so far. -/
  running : ∀ i ≤ entries.length, (writer.pushAll (entries.take i)).2.length =
    segmentHeaderLength + (encodeAll (accepted (entries.take i)
      (writer.pushAll (entries.take i)).1)).length
  /-- A push succeeds exactly if the entry fits behind the running length, in the room and in what
  one byte can state. -/
  push_iff : ∀ (i : Nat) (h : i < entries.length),
    ((writer.pushAll (entries.take i)).2.push entries[i]).1 = true ↔
      (writer.pushAll (entries.take i)).2.length +
        (2 + entries[i].key.length + entries[i].value.length) ≤ min buffer.length 255
  /-- A push that is refused changes nothing. -/
  refused : ∀ (i : Nat) (h : i < entries.length),
    ((writer.pushAll (entries.take i)).2.push entries[i]).1 = false →
      ((writer.pushAll (entries.take i)).2.push entries[i]).2 = (writer.pushAll (entries.take i)).2
  /-- At no time a byte behind the returned length is changed. -/
  untouched : ∀ i ≤ entries.length,
    (writer.pushAll (entries.take i)).2.buffer.drop (writer.pushAll entries).2.finish.1 =
      buffer.drop (writer.pushAll entries).2.finish.1
  /-- Nor is one when the segment is finished, and the buffer keeps its size. -/
  finished : (writer.pushAll entries).2.finish.2.drop (writer.pushAll entries).2.finish.1 =
      buffer.drop (writer.pushAll entries).2.finish.1 ∧
    (writer.pushAll entries).2.finish.2.length = buffer.length
  /-- The returned length is zero exactly if no push succeeded. -/
  empty_iff : (writer.pushAll entries).2.finish.1 = 0 ↔
    ∀ answer ∈ (writer.pushAll entries).1, answer = false
  /-- Otherwise the bytes written are parsed to the owner and the entries whose push succeeded,
  whatever follows them. -/
  readBack : (writer.pushAll entries).2.finish.1 ≠ 0 → ∀ trailing, ∃ segment,
    Segment.parse ((writer.pushAll entries).2.finish.2.take (writer.pushAll entries).2.finish.1 ++
      trailing) = .ok segment ∧
    segment.header.owner = owner ∧ segment.header.declared = (writer.pushAll entries).2.finish.1 ∧
    segment.entries = .ok (accepted entries (writer.pushAll entries).1)
  /-- The entries taken and the bytes written are those of a segment written by itself. -/
  agrees : SegmentWriter.writeInto owner entries buffer.length =
    (accepted entries (writer.pushAll entries).1,
      (writer.pushAll entries).2.finish.2.take (writer.pushAll entries).2.finish.1)

/-- The bytes of a segment that was read are those of the segment with its owner and entries. -/
theorem take_declared {bytes : Bytes} {segment : Segment} {entries : List Entry}
    (parsed : Segment.parse bytes = .ok segment) (read : segment.entries = .ok entries) :
    segment.header.declared = segmentHeaderLength + (encodeAll entries).length ∧
      bytes.take segment.header.declared = segmentOf segment.header.owner entries := by
  obtain ⟨decoded, covers, inside, body⟩ := (parse_eq_ok_iff _ _).1 parsed
  have whole : encodeAll entries = segment.body := encodeAll_of_readFrom read
  match bytes with
  | [] | [_] => simp [SegmentHeader.decode] at decoded
  | owner :: length :: rest =>
    have header : segment.header = ⟨owner, length⟩ := (Except.ok.inj decoded).symm
    obtain ⟨size, declared⟩ := Nat.exists_eq_add_of_le' covers
    have behind : segment.body = rest.take size := by
      rw [body, SegmentHeader.bodyLength, declared, Nat.add_sub_cancel]
      rfl
    have measured : (encodeAll entries).length = size := by
      simp only [segmentHeaderLength, List.length_cons] at inside declared
      rw [whole, behind, List.length_take]
      omega
    have stated : (segmentHeaderLength + size).toUInt8 = length := by
      have same : segment.header.declared = length.toNat := by rw [header, SegmentHeader.declared]
      rw [Nat.add_comm, ← declared, same]
      exact UInt8.ofNat_toNat
    refine ⟨by rw [measured, declared, Nat.add_comm], ?_⟩
    rw [declared, segmentOf, headerOf, measured, stated, whole, behind, header]
    rfl

/-- The entries taken up to some push are the first of all entries taken. -/
theorem accepted_take (writer : InPlaceWriter) (entries : List Entry) (i : Nat) :
    accepted (entries.take i) (writer.pushAll (entries.take i)).1 <+:
      accepted entries (writer.pushAll entries).1 := by
  have run := pushAll_append writer (entries.take i) (entries.drop i)
  rw [List.take_append_drop] at run
  rw [run]
  nth_rewrite 3 [← List.take_append_drop i entries]
  rw [accepted_append (length_pushAll ..)]
  exact List.prefix_append ..

/-- Up to the end, no byte behind the length that is returned in the end is changed. -/
theorem Fills.untouched {last : InPlaceWriter} {all : List Entry}
    (fills : writer.Fills original taken) (lastFills : last.Fills original all)
    (first : taken <+: all) : writer.buffer.drop last.finish.1 = original.drop last.finish.1 := by
  by_cases none : all = []
  · subst none
    obtain rfl := List.prefix_nil.1 first
    rw [fills.buffer_of_nil]
  · obtain ⟨more, rfl⟩ := first
    rw [lastFills.finish, if_neg none]
    apply fills.drop_buffer
    rw [fills.length, lastFills.length, encodeAll_append, List.length_append]
    omega

private theorem writes_of_open? {owner : UInt8} {buffer : Bytes}
    (opened : open? buffer owner = some writer)
    (entries : List Entry) : writer.Writes owner buffer entries := by
  obtain ⟨start, startOwner⟩ := fills_open? opened
  have fills (some : List Entry) : (writer.pushAll some).2.Fills buffer
      (accepted some (writer.pushAll some).1) := (start.pushAll some).1
  have last := fills entries
  have written := last.take_finish
  rw [(start.pushAll entries).2.trans startOwner] at written
  refine
    { answer := fun i lt ↦ getElem?_pushAll writer entries lt
      running := fun i _ ↦ (fills _).length
      push_iff := fun i lt ↦ (fills _).push_iff entries[i]
      refused := fun i lt ↦ (fills _).push_refused
      untouched := fun i _ ↦ (fills _).untouched last (accepted_take ..)
      finished := ⟨last.drop_finish, last.length_finish⟩
      empty_iff := last.finish_eq_zero_iff.trans (accepted_eq_nil_iff (length_pushAll ..))
      readBack := ?_
      agrees := ?_ }
  · intro some trailing
    have taken := last.finish_eq_zero_iff.not.1 some
    rw [written, if_neg taken]
    refine ⟨_, parse_segmentOf owner last.sized trailing, rfl, ?_, ?_⟩
    · rw [declared_headerOf owner last.sized, length_segmentOf, last.finish, if_neg taken,
        last.length]
    · exact readFrom_encodeAll last.sized.stated 0
  · have plain : SegmentWriter.open? buffer.length owner =
        some { owner, limit := min buffer.length maxFieldLength } := by
      unfold open? at opened
      split at opened
      · cases opened
      · next room => exact if_neg room
    have held := (SegmentWriter.holds_open? plain).1
    have taken := start.taken_eq held start.limit.symm entries
    have spec := (SegmentWriter.writeInto_spec owner entries buffer.length).1
    have first : (SegmentWriter.writeInto owner entries buffer.length).1 =
        accepted entries (writer.pushAll entries).1 := by
      simpa only [SegmentWriter.writeInto, plain] using taken
    rw [first, ← written] at spec
    exact Prod.ext first spec

/-- Writing a segment that was read gives back its bytes, in any buffer that can hold them; and
whatever is pushed in whatever room, the segment is read back. -/
theorem one_encoding :
    (∀ (bytes : Bytes) (segment : Segment) (entries : List Entry),
      Segment.parse bytes = .ok segment → segment.entries = .ok entries → entries ≠ [] →
      ∀ buffer : Bytes, segment.header.declared ≤ buffer.length →
        ∃ writer, open? buffer segment.header.owner = some writer ∧
          (∀ answer ∈ (writer.pushAll entries).1, answer = true) ∧
          (writer.pushAll entries).2.finish = (segment.header.declared,
            bytes.take segment.header.declared ++ buffer.drop segment.header.declared) ∧
          SegmentWriter.writeInto segment.header.owner entries buffer.length =
            (entries, bytes.take segment.header.declared)) ∧
      ∀ (buffer : Bytes) (owner : UInt8),
        (open? buffer owner = none ↔ buffer.length < segmentHeaderLength) ∧
        ∀ writer, open? buffer owner = some writer →
          ∀ entries, writer.Writes owner buffer entries := by
  constructor
  · intro bytes segment entries parsed read some buffer room
    obtain ⟨declared, front⟩ := take_declared parsed read
    have covers : ¬buffer.length < segmentHeaderLength := by omega
    have opened : ∃ writer, open? buffer segment.header.owner = .some writer := by
      simp [open?, covers]
    obtain ⟨writer, opened⟩ := opened
    obtain ⟨start, startOwner⟩ := fills_open? opened
    have byte := segment.header.length.toNat_lt
    have fits : writer.length + (encodeAll entries).length ≤ min buffer.length maxFieldLength := by
      rw [start.length, encodeAll_nil, List.length_nil, Nat.add_zero, ← declared]
      simp only [SegmentHeader.declared, maxFieldLength] at room ⊢
      omega
    obtain ⟨all, last, lastOwner⟩ := start.pushAll_of_le fits
    rw [List.nil_append] at last
    have finished : (writer.pushAll entries).2.finish = (segment.header.declared,
        bytes.take segment.header.declared ++ buffer.drop segment.header.declared) := by
      rw [last.finish, if_neg some, last.length, lastOwner, startOwner, front, ← declared]
    have agrees := (writes_of_open? opened entries).agrees
    rw [accepted_eq_self (length_pushAll ..) all, last.take_finish, if_neg some, lastOwner,
      startOwner, ← front] at agrees
    exact ⟨writer, opened, all, finished, agrees⟩
  · intro buffer owner
    exact ⟨by simp [open?], fun writer opened entries ↦ writes_of_open? opened entries⟩

/-- A segment with an empty record, and what follows it, is read and written into a buffer of nines;
and into such a buffer three records are pushed, of which the second finds no room and the third
does. -/
theorem one_encoding_emptyRecords :
    (Segment.parse [7, 8, 1, 1, 67, 68, 0, 0, 99] = .ok ⟨⟨7, 8⟩, [1, 1, 67, 68, 0, 0]⟩ ∧
      Segment.entries ⟨⟨7, 8⟩, [1, 1, 67, 68, 0, 0]⟩ = .ok [⟨[67], [68]⟩, ⟨[], []⟩] ∧
      ∃ writer, open? (List.replicate 10 9) 7 = some writer ∧
        (∀ answer ∈ (writer.pushAll [⟨[67], [68]⟩, ⟨[], []⟩]).1, answer = true) ∧
        (writer.pushAll [⟨[67], [68]⟩, ⟨[], []⟩]).2.finish =
          (8, [7, 8, 1, 1, 67, 68, 0, 0, 9, 9])) ∧
      ∃ writer, open? (List.replicate 9 9) 3 = some writer ∧
        writer.Writes 3 (List.replicate 9 9) [⟨[65], [66]⟩, ⟨[67], [68]⟩, ⟨[], []⟩] ∧
        (writer.pushAll [⟨[65], [66]⟩, ⟨[67], [68]⟩, ⟨[], []⟩]).1 = [true, false, true] := by
  have parsed : Segment.parse [7, 8, 1, 1, 67, 68, 0, 0, 99] =
      .ok ⟨⟨7, 8⟩, [1, 1, 67, 68, 0, 0]⟩ := rfl
  have stated : ∀ e ∈ [⟨[67], [68]⟩, (⟨[], []⟩ : Entry)],
      e.key.length + e.value.length ≤ maxFieldLength := by decide
  have read : Segment.entries ⟨⟨7, 8⟩, [1, 1, 67, 68, 0, 0]⟩ = .ok [⟨[67], [68]⟩, ⟨[], []⟩] :=
    readFrom_encodeAll stated 0
  have room : (8 : Nat) ≤ (List.replicate 10 (9 : UInt8)).length := by decide
  obtain ⟨writer, opened, all, finished, -⟩ :=
    one_encoding.1 _ _ _ parsed read (List.cons_ne_nil _ _) _ room
  refine ⟨⟨parsed, read, writer, opened, all, finished⟩, ?_⟩
  exact ⟨_, rfl, (one_encoding.2 _ 3).2 _ rfl _, by decide⟩

end InPlaceWriter
end Wire
end CollectionTree
