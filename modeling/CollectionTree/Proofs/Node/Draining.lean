import CollectionTree.Proofs.Node.Sending
import Mathlib.Data.List.Nodup

/-!
# Draining a node

A round is a flush by the schedule and the news that the frame was acknowledged. It sends the first
records of some accumulators and removes exactly these, so that what all frames carried and what is
still stored make up what was stored before. `drains_rounds` says so for any number of rounds, and
that each of them sends something as long as anything is stored.
-/

namespace CollectionTree

namespace Wire

/-- The entries of some parts, each with its owner. -/
def labelled (parts : List Part) : List (UInt8 × Entry) :=
  parts.flatMap fun part ↦ part.2.map (part.1, ·)

/-- The entries of all segments of a payload, each with its segment's owner. A broken segment has
none. -/
def carried (payload : Bytes) : List (UInt8 × Entry) :=
  match Frame.parse payload with
  | .error _ => []
  | .ok frame => frame.segments.flatMap fun stop ↦
    match Segment.parse stop.2 >>= Segment.entries with
    | .error _ => []
    | .ok entries => entries.map (stop.1.owner, ·)

/-- A payload carries the entries of the parts that it is read back to. -/
theorem ReadsBack.carried_eq {payload : Bytes} {urgency : Urgency} {parts : List Part}
    (h : ReadsBack payload urgency parts) : carried payload = labelled parts := by
  obtain ⟨frame, parsed, -, -, stops⟩ := h
  simp only [carried, parsed, labelled]
  generalize frame.segments = segments at stops
  induction stops with
  | nil => rfl
  | @cons stop part stops parts first rest ih =>
    obtain ⟨segment, parsed, header, owner, entries⟩ := first
    have read : (Segment.parse stop.2 >>= Segment.entries) = .ok part.2 := by
      rw [parsed]
      exact entries
    rw [List.flatMap_cons, List.flatMap_cons, ih, read, ← header, owner]

end Wire

namespace Accumulator

/-- The stored entries, each with the accumulator's id. -/
def contents (acc : Accumulator) : List (UInt8 × Wire.Entry) :=
  acc.records.map fun r ↦ (acc.id, r.entry)

/-- The accumulator without its first so many records. -/
def without (acc : Accumulator) (count : Nat) : Accumulator :=
  { acc with records := acc.records.drop count }

/-- Where nothing was on its way, the records left after the marked ones were removed are those
behind the first so many. -/
theorem filter_markReady {records : List Record} (clear : pending records = []) (count : Nat) :
    (markReady false count records).filter (fun r ↦ !r.isPending) = records.drop count := by
  have free : ∀ r ∈ records, r.isPending = false := by
    simpa [pending, List.filter_eq_nil_iff] using clear
  clear clear
  induction records generalizing count with
  | nil => cases count <;> rfl
  | cons r rest ih =>
    have head := free r List.mem_cons_self
    have tail : ∀ s ∈ rest, s.isPending = false := fun s hs ↦ free s (List.mem_cons_of_mem r hs)
    cases count with
    | zero => exact List.filter_eq_self.2 fun s hs ↦ by simp [free s hs]
    | succ count => simp [markReady, Record.eligible, head, ih count tail]

end Accumulator

namespace Node

open Accumulator (without)

/-- Everything that a node stores: the entries with the ids of their accumulators. -/
def contents (n : Node) : List (UInt8 × Wire.Entry) := n.accumulators.flatMap Accumulator.contents

/-! ## Shares of a frame -/

variable {maxPayload : Nat} {parts : List Wire.Part} {accs : List Accumulator}
  {shares : List (List Wire.Entry)}

/-- Every part of a frame has entries. -/
theorem entries_ne_nil_of_mem_partsOf {part : Wire.Part} (h : part ∈ partsOf accs shares) :
    part.2 ≠ [] := by
  rw [partsOf, ← List.map_uncurry_zip_eq_zipWith] at h
  obtain ⟨some, hsome, mem⟩ := List.mem_flatten.1 h
  obtain ⟨⟨acc, taken⟩, -, rfl⟩ := List.mem_map.1 hsome
  rw [Function.uncurry_apply_pair, Accumulator.partOf] at mem
  split at mem
  · cases mem
  · next filled =>
    obtain rfl := List.mem_singleton.1 mem
    exact filled

/-- The accumulators without the records of these shares. -/
def withoutShares (accs : List Accumulator) (shares : List (List Wire.Entry)) : List Accumulator :=
  List.zipWith (fun acc taken ↦ acc.without taken.length) accs shares

/-- Confirming a frame leaves every accumulator without the records of its share. -/
theorem Loads.filter_markShares (loads : Loads false maxPayload parts accs shares)
    (clear : ∀ acc ∈ accs, Accumulator.pending acc.records = []) :
    (markShares false accs shares).map (fun acc ↦
        { acc with records := acc.records.filter fun r ↦ !r.isPending }) =
      withoutShares accs shares := by
  induction loads with
  | done => rfl
  | @next parts acc rest taken shares share more ih =>
    have own := Accumulator.filter_markReady (clear acc List.mem_cons_self) taken.length
    have others := ih fun other hother ↦ clear other (List.mem_cons_of_mem acc hother)
    rw [markShares_cons, List.map_cons, others]
    simp [withoutShares, without, Accumulator.marked, own]

/-- The shares and what the accumulators hold without them are what they held before. -/
theorem Loads.contents_perm (loads : Loads false maxPayload parts accs shares)
    (clear : ∀ acc ∈ accs, Accumulator.pending acc.records = []) :
    (Wire.labelled (partsOf accs shares) ++
        (withoutShares accs shares).flatMap Accumulator.contents).Perm
      (accs.flatMap Accumulator.contents) := by
  induction loads with
  | done => exact .nil
  | @next parts acc rest taken shares share more ih =>
    have others := ih fun other hother ↦ clear other (List.mem_cons_of_mem acc hother)
    have front := share.front
    rw [Accumulator.ready_of_pending_eq_nil (clear acc List.mem_cons_self)] at front
    have own : Wire.labelled (acc.partOf taken) = acc.contents.take taken.length := by
      have part : Wire.labelled (acc.partOf taken) = taken.map (acc.id, ·) := by
        unfold Accumulator.partOf
        split
        · next empty => simp [Wire.labelled, empty]
        · simp [Wire.labelled]
      rw [part, Accumulator.contents, ← List.map_take]
      conv_lhs => rw [List.prefix_iff_eq_take.1 front, ← List.map_take, List.map_map]
      rfl
    have split : acc.contents = Wire.labelled (acc.partOf taken) ++
        (acc.without taken.length).contents := by
      have left : (acc.without taken.length).contents = acc.contents.drop taken.length := by
        rw [Accumulator.contents, Accumulator.contents, ← List.map_drop]
        rfl
      rw [own, left, List.take_append_drop]
    rw [partsOf_cons, List.flatMap_cons, split]
    simp only [Wire.labelled, withoutShares, List.zipWith_cons_cons, List.flatMap_cons,
      List.flatMap_append, List.append_assoc] at others ⊢
    exact ((List.perm_append_comm_assoc ..).trans (others.append_left _)).append_left _

/-- A frame without a share has none because nothing is ready, as long as each ready record would
fit into a frame of its own. -/
theorem Loads.ready_eq_nil {urgent : Bool} (loads : Loads urgent maxPayload [] accs shares)
    (empty : partsOf accs shares = [])
    (short : ∀ acc ∈ accs, ∀ e ∈ Accumulator.ready urgent acc.records, e.length ≤
      min (maxPayload - Wire.frameHeaderLength) Wire.maxFieldLength - Wire.segmentHeaderLength) :
    ∀ acc ∈ accs, Accumulator.ready urgent acc.records = [] := by
  generalize start : ([] : List Wire.Part) = parts at loads
  induction loads with
  | done => simp
  | @next parts acc rest taken shares share more ih =>
    subst start
    rw [partsOf_cons, List.append_eq_nil_iff] at empty
    have none : taken = [] := by simpa [Accumulator.partOf] using empty.1
    have others := ih empty.2 (fun other hother ↦ short other (List.mem_cons_of_mem acc hother))
      (by simp [empty.1])
    have own : Accumulator.ready urgent acc.records = [] := by
      have fits := short acc List.mem_cons_self
      have longest : Accumulator.LongestWithin _ _ taken := share
      cases ready : Accumulator.ready urgent acc.records with
      | nil => rfl
      | cons e rest =>
        rw [ready] at fits longest
        rw [none] at longest
        have room := fits e List.mem_cons_self
        -- The first record alone would fit, so the longest prefix is not empty.
        have first := longest.longest [e] ((List.prefix_cons_inj _).2 List.nil_prefix) (by
          have long : 2 ≤ e.length := by simp [Wire.length_entry]
          simp only [Wire.encodeAll_cons, Wire.segmentsOf, List.length_append,
            Wire.Entry.length_encode] at room ⊢
          simp
          omega)
        simp at first
    intro other hother
    rcases List.mem_cons.1 hother with rfl | hother
    · exact own
    · exact others other hother

/-! ## One round -/

/-- What a node meets in a round: its radio, and how often the radio sent the frame again. -/
structure Round where
  radio : Radio
  retries : Nat

/-- The radio has nothing under way and takes every frame. -/
structure Round.Willing (round : Round) : Prop where
  free : round.radio.busy = false
  accepts : ∀ frame : Outgoing, frame.payload ≠ [] → round.radio.accepts frame = true

/-- A flush by the schedule and, if a frame is taken, the news that it was acknowledged. -/
def round (n : Node) (round : Round) : Reaction Bool Node Output :=
  let flushed := n.flush round.radio false
  match takenFrame? flushed.outputs with
  | none => flushed
  | some frame =>
    let told := flushed.state.onSignal round.radio (.sent frame.target round.retries)
    ⟨flushed.answer, told.state, flushed.outputs ++ told.outputs⟩

/-- An open node with a parent and nothing on its way, with one record for each key, and with no
record that is too long for a frame of its own. -/
structure Drainable (n : Node) : Prop where
  opened : n.closed = false
  inner : n.gradient.isSink = false
  routed : n.gradient.parent.isSome
  distinct : n.DistinctIds
  nodup : ∀ acc ∈ n.accumulators, (acc.records.map Record.key).Nodup
  clear : ∀ acc ∈ n.accumulators, Accumulator.pending acc.records = []
  short : ∀ acc ∈ n.accumulators, ∀ r ∈ acc.records, r.entry.length ≤
    min (n.config.maxPayload - Wire.frameHeaderLength) Wire.maxFieldLength -
      Wire.segmentHeaderLength

variable {n : Node}

/-- A node stores nothing if no accumulator does. -/
theorem contents_eq_nil_iff : n.contents = [] ↔ ∀ acc ∈ n.accumulators, acc.records = [] := by
  simp [contents, Accumulator.contents]

/-- A node that stores nothing has no records for any id. -/
theorem recordsFor_of_contents_eq_nil (empty : n.contents = []) (id : UInt8) :
    n.recordsFor id = [] := by
  apply List.eq_nil_iff_forall_not_mem.2
  intro r hr
  obtain ⟨acc, hacc, -, hr⟩ := exists_of_mem_recordsFor hr
  rw [contents_eq_nil_iff.1 empty acc hacc] at hr
  cases hr

/-- With distinct ids and keys nothing is stored twice. -/
theorem Drainable.nodup_contents (h : n.Drainable) : n.contents.Nodup := by
  refine List.nodup_flatMap.2 ⟨fun acc hacc ↦ ?_, ?_⟩
  · have keys : (acc.contents.map fun item ↦ item.2.key) = acc.records.map Record.key := by
      simp [Accumulator.contents, Function.comp_def]
    exact List.Nodup.of_map _ (keys ▸ h.nodup acc hacc)
  · refine List.Pairwise.imp_of_mem ?_ (List.pairwise_map.1 h.distinct)
    intro acc other _ _ differ item mem mem'
    obtain ⟨r, -, rfl⟩ := List.mem_map.1 mem
    obtain ⟨s, -, same⟩ := List.mem_map.1 mem'
    exact differ (congrArg Prod.fst same).symm

/-- A node with some of the records that a drainable node has is drainable. -/
theorem Drainable.of_sublist (h : n.Drainable) {n' : Node} (closed : n'.closed = n.closed)
    (gradient : n'.gradient = n.gradient) (config : n'.config = n.config)
    (bindings : n'.bindings = n.bindings)
    (kept : ∀ acc' ∈ n'.accumulators, ∃ acc ∈ n.accumulators, acc'.records.Sublist acc.records) :
    n'.Drainable where
  opened := closed.trans h.opened
  inner := gradient ▸ h.inner
  routed := gradient ▸ h.routed
  distinct := (distinctIds_of_bindings_eq bindings).2 h.distinct
  nodup acc' hacc' := by
    obtain ⟨acc, hacc, sub⟩ := kept acc' hacc'
    exact (h.nodup acc hacc).sublist (sub.map _)
  clear acc' hacc' := by
    obtain ⟨acc, hacc, sub⟩ := kept acc' hacc'
    have none := sub.filter Record.isPending
    rw [show acc.records.filter Record.isPending = [] from h.clear acc hacc] at none
    exact List.sublist_nil.1 none
  short acc' hacc' r hr := by
    obtain ⟨acc, hacc, sub⟩ := kept acc' hacc'
    exact config ▸ h.short acc hacc r (sub.subset hr)

/-- All that can come of a round with a willing radio. -/
inductive Drained (n : Node) : Reaction Bool Node Output → Prop
  /-- Nothing is stored, and nothing is sent. -/
  | idle (empty : n.contents = []) : Drained n ⟨false, n, []⟩
  /-- A frame carries away a part of what is stored. -/
  | moved {frame : Outgoing} {n' : Node} (filled : Wire.carried frame.payload ≠ [])
      (split : (Wire.carried frame.payload ++ n'.contents).Perm n.contents)
      (bindings : n'.bindings = n.bindings) (drainable : n'.Drainable) :
      Drained n ⟨true, n', [.offer frame true]⟩

private theorem Drainable.drained (h : n.Drainable) {round : Round} (willing : round.Willing) :
    n.Drained (n.round round) := by
  obtain ⟨parent, route⟩ := Option.isSome_iff_exists.1 h.routed
  have sent : n.flush round.radio false = n.send round.radio parent false := by
    simp [flush, h.opened, h.inner, route, willing.free]
  obtain ⟨shares, loads, offered⟩ := n.offers_send round.radio parent false
  rw [← sent] at offered
  by_cases some : partsOf n.accumulators shares = []
  · have all (acc : Accumulator) (hacc : acc ∈ n.accumulators) :=
      Accumulator.ready_of_pending_eq_nil (h.clear acc hacc)
    have none := loads.ready_eq_nil some fun acc hacc e he ↦ by
      rw [all acc hacc] at he
      obtain ⟨r, hr, rfl⟩ := List.mem_map.1 he
      exact h.short acc hacc r hr
    rw [Node.round, offered.nothing some]
    refine .idle (contents_eq_nil_iff.2 fun acc hacc ↦ ?_)
    exact List.map_eq_nil_iff.1 ((all acc hacc).symm.trans (none acc hacc))
  · obtain ⟨payload, outputs, answer, long, -, readsBack, taken⟩ := offered.frame some
    have filled : payload ≠ [] := by
      rintro rfl
      have none : ¬Wire.minFrameLength ≤ 0 := by decide
      exact none long
    rw [willing.accepts _ filled] at answer
    have state := taken answer
    have bindings := bindings_flush h.distinct round.radio false
    obtain ⟨gradient, closed⟩ := flush_keeps h.distinct round.radio false
    have after : n.round round = ⟨true, (n.flush round.radio false).state.confirmed,
        [.offer ⟨parent, payload, n.config.maxRetries⟩ true]⟩ := by
      have told := onSignal_sent (closed.trans h.opened) round.radio parent round.retries
      simp [Node.round, outputs, answer, takenFrame?, told]
    have left : (n.flush round.radio false).state.confirmed.accumulators =
        withoutShares n.accumulators shares := by
      rw [← loads.filter_markShares h.clear, confirmed, accumulators_cleanup, state]
      simp
    have carried := readsBack.carried_eq
    rw [after]
    refine .moved ?_ ?_ ((bindings_confirmed _).trans bindings) ?_
    · obtain ⟨part, mem⟩ := List.exists_mem_of_ne_nil _ some
      obtain ⟨e, he⟩ := List.exists_mem_of_ne_nil _ (entries_ne_nil_of_mem_partsOf mem)
      rw [carried]
      exact List.ne_nil_of_mem
        (List.mem_flatMap.2 ⟨part, mem, List.mem_map.2 ⟨e, he, rfl⟩⟩)
    · rw [contents, left, carried]
      exact loads.contents_perm h.clear
    · refine h.of_sublist closed gradient ?_ ((bindings_confirmed _).trans bindings) ?_
      · rw [state]
        rfl
      · intro acc' hacc'
        rw [left, withoutShares, ← List.map_uncurry_zip_eq_zipWith] at hacc'
        obtain ⟨⟨acc, taken⟩, mem, rfl⟩ := List.mem_map.1 hacc'
        exact ⟨acc, (List.of_mem_zip mem).1, List.drop_sublist ..⟩

/-- As long as anything is stored, a frame is taken and less is stored afterwards. -/
theorem Drained.fewer {reaction : Reaction Bool Node Output} (h : n.Drained reaction)
    (some : n.contents ≠ []) :
    reaction.answer = true ∧ reaction.state.contents.length < n.contents.length := by
  cases h with
  | idle empty => exact absurd empty some
  | moved filled split bindings drainable =>
    have carried := List.length_pos_of_ne_nil filled
    have total := split.length_eq
    simp only [List.length_append] at total ⊢
    exact ⟨trivial, by omega⟩

/-! ## Rounds one after another -/

/-- Some rounds in order: what was wanted done in them, and the node in the end. -/
def rounds (n : Node) : List Round → List Output × Node
  | [] => ([], n)
  | round :: rest =>
    ((n.round round).outputs ++ ((n.round round).state.rounds rest).1,
      ((n.round round).state.rounds rest).2)

/-- Everything that the frames taken in some rounds carry. -/
def carriedIn (n : Node) (rounds : List Round) : List (UInt8 × Wire.Entry) :=
  (takenFrames (n.rounds rounds).1).flatMap fun frame ↦ Wire.carried frame.payload

/-- What rounds carry away and what is stored after them are what was stored before, and each round
carries something away as long as there is something. -/
theorem Drainable.rounds (h : n.Drainable) {rounds : List Round}
    (willing : ∀ round ∈ rounds, round.Willing) :
    (n.rounds rounds).2.Drainable ∧ (n.rounds rounds).2.bindings = n.bindings ∧
      (n.carriedIn rounds ++ (n.rounds rounds).2.contents).Perm n.contents ∧
      (n.rounds rounds).2.contents.length ≤ n.contents.length - rounds.length := by
  induction rounds generalizing n with
  | nil => exact ⟨h, rfl, by simp [carriedIn, Node.rounds, takenFrames], le_rfl⟩
  | cons round rest ih =>
    have first := h.drained (willing round List.mem_cons_self)
    have later : ∀ round ∈ rest, round.Willing := fun r hr ↦
      willing r (List.mem_cons_of_mem round hr)
    simp only [carriedIn, Node.rounds] at ih ⊢
    generalize n.round round = one at first ⊢
    cases first with
    | idle empty =>
      obtain ⟨drainable, bindings, split, fewer⟩ := ih h later
      refine ⟨drainable, bindings, split, ?_⟩
      rw [empty] at fewer ⊢
      simpa using fewer
    | @moved frame n' filled split bindings drainable =>
      obtain ⟨drainable, bindings', split', fewer⟩ := ih drainable later
      refine ⟨drainable, bindings'.trans bindings, ?_, ?_⟩
      · refine .trans ?_ split
        simpa [takenFrames] using split'.append_left (Wire.carried frame.payload)
      · have some := List.length_pos_of_ne_nil filled
        have total := split.length_eq
        simp only [List.length_append, List.length_cons] at total fewer ⊢
        omega

/-- Everything stored drains, each record once. After any rounds, what was carried away and what is
still stored make up what was stored at first. While anything is stored a further round has a frame
taken and leaves less. So after as many rounds as there were records every accumulator is empty, and
the frames carried each record exactly once and nothing else. -/
theorem drains_rounds (h : n.Drainable) {rounds : List Round}
    (willing : ∀ round ∈ rounds, round.Willing) :
    (n.carriedIn rounds ++ (n.rounds rounds).2.contents).Perm n.contents ∧
    (∀ round : Round, round.Willing → (n.rounds rounds).2.contents ≠ [] →
      ((n.rounds rounds).2.round round).answer = true ∧
        ((n.rounds rounds).2.round round).state.contents.length <
          (n.rounds rounds).2.contents.length) ∧
    (n.contents.length ≤ rounds.length →
      (n.rounds rounds).2.bindings = n.bindings ∧
        (∀ acc ∈ (n.rounds rounds).2.accumulators, acc.records = []) ∧
        ∀ item, (n.carriedIn rounds).count item = if item ∈ n.contents then 1 else 0) := by
  obtain ⟨drainable, bindings, split, fewer⟩ := h.rounds willing
  refine ⟨split, fun round willing some ↦ (drainable.drained willing).fewer some, fun enough ↦ ?_⟩
  have empty : (n.rounds rounds).2.contents = [] := List.eq_nil_of_length_eq_zero (by omega)
  refine ⟨bindings, contents_eq_nil_iff.1 empty, fun item ↦ ?_⟩
  rw [empty, List.append_nil] at split
  rw [split.count_eq]
  by_cases mem : item ∈ n.contents
  · rw [if_pos mem, List.count_eq_one_of_mem h.nodup_contents mem]
  · rw [if_neg mem, List.count_eq_zero_of_not_mem mem]

/-- A node with short and long records in two accumulators, whose frames have at most 12 bytes. -/
def shortAndLong : Node where
  address := .ofNat 2
  gradient := ⟨some (.ofNat 1), 1, false⟩
  config := { maxPayload := 12 }
  source := .ofList []
  ledger := { allocated := 45 }
  accumulators :=
    [{ id := 1, job := Bytewise.latest, records := [⟨[97], [1], .storedOnly⟩,
        ⟨[98], [2, 3, 4, 5, 6], ⟨true, true, false⟩⟩] },
      { id := 2, job := Bytewise.latest, records := [⟨[97], [7], .storedOnly⟩,
        ⟨[], [], .storedOnly⟩] }]

/-- Four rounds with a radio that is willing. -/
def fourRounds : List Round := List.replicate 4 ⟨idleRadio, 0⟩

/-- The long record needs a frame of its own, and the frame before it has room for no record behind
it. The fourth round finds nothing left. -/
theorem drains_shortAndLong :
    (shortAndLong.Drainable ∧ ∀ round ∈ fourRounds, round.Willing) ∧
    (takenFrames (shortAndLong.rounds fourRounds).1).map Outgoing.payload =
      [[0, 1, 1, 6, 1, 1, 97, 1], [0, 1, 1, 10, 1, 5, 98, 2, 3, 4, 5, 6],
        [0, 1, 2, 8, 1, 1, 97, 7, 0, 0]] ∧
    (∀ acc ∈ (shortAndLong.rounds fourRounds).2.accumulators, acc.records = []) ∧
    ∀ item, (shortAndLong.carriedIn fourRounds).count item =
      if item ∈ shortAndLong.contents then 1 else 0 := by
  have drainable : shortAndLong.Drainable := by
    refine ⟨rfl, rfl, rfl, ?_, ?_, ?_, ?_⟩
    · simp [DistinctIds, shortAndLong]
    · decide
    · decide
    · decide
  have willing : ∀ round ∈ fourRounds, round.Willing := by
    intro round mem
    rw [List.eq_of_mem_replicate mem]
    exact ⟨rfl, fun _ _ ↦ rfl⟩
  have drained := (drains_rounds drainable willing).2.2 (by decide)
  exact ⟨⟨drainable, willing⟩, by decide +kernel, drained.2⟩

end Node
end CollectionTree
