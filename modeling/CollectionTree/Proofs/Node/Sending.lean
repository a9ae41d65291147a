import CollectionTree.Proofs.Node.Loading
import CollectionTree.Proofs.Node.Turns

/-!
# What a flush sends and marks

A frame is built from the ready records of every accumulator in turn. `buildFrame_spec` says that
the records marked are those the frame carries, and `flushed_flush` lists all that can come of a
flush.
-/

namespace CollectionTree

namespace Wire

private theorem entriesOf_append_of_forall_ne {parts : List Part} {owner : UInt8}
    (h : ∀ part ∈ parts, part.1 ≠ owner) (more : List Part) :
    entriesOf (parts ++ more) owner = entriesOf more owner := by
  have none : parts.find? (·.1 == owner) = none := by
    rw [List.find?_eq_none]
    simpa using h
  simp [entriesOf, none]

private theorem entriesOf_of_forall_ne {parts : List Part} {owner : UInt8}
    (h : ∀ part ∈ parts, part.1 ≠ owner) : entriesOf parts owner = [] := by
  simpa [entriesOf] using entriesOf_append_of_forall_ne h []

/-- A part in front is the first one for its owner. -/
@[simp] theorem entriesOf_cons_self (owner : UInt8) (entries : List Entry) (parts : List Part) :
    entriesOf ((owner, entries) :: parts) owner = entries := by
  simp [entriesOf]

end Wire

namespace Node

/-- Each of some accumulators with as many of its ready records marked as it has entries here. -/
def markAll (urgent : Bool) (entries : UInt8 → List Wire.Entry) (accs : List Accumulator) :
    List Accumulator :=
  accs.map fun acc ↦ acc.marked urgent (entries acc.id).length

private theorem markAll_congr {urgent : Bool} {entries others : UInt8 → List Wire.Entry}
    {accs : List Accumulator} (h : ∀ acc ∈ accs, entries acc.id = others acc.id) :
    markAll urgent entries accs = markAll urgent others accs :=
  List.map_congr_left fun acc hacc ↦ by rw [h acc hacc]

/-- With distinct ids the shares are found by id in the frame's parts: as many records are marked as
an accumulator's part has entries, and these are its first ready ones. -/
theorem Loads.entriesOf_partsOf {urgent : Bool} {maxPayload : Nat} {parts : List Wire.Part}
    {accs : List Accumulator} {shares : List (List Wire.Entry)}
    (loads : Loads urgent maxPayload parts accs shares) (distinct : (accs.map (·.id)).Nodup) :
    markShares urgent accs shares = markAll urgent (Wire.entriesOf (partsOf accs shares)) accs ∧
      (∀ part ∈ partsOf accs shares, ∃ acc ∈ accs, acc.id = part.1) ∧
      ∀ acc ∈ accs,
        Wire.entriesOf (partsOf accs shares) acc.id <+: Accumulator.ready urgent acc.records := by
  induction loads with
  | done => exact ⟨rfl, by simp [partsOf], by simp⟩
  | @next parts acc rest taken shares share more ih =>
    simp only [List.map_cons, List.nodup_cons] at distinct
    obtain ⟨gathered, owners, prefixes⟩ := ih distinct.2
    have ownPart : ∀ part ∈ acc.partOf taken, part = (acc.id, taken) := by
      intro part hpart
      unfold Accumulator.partOf at hpart
      split at hpart
      · cases hpart
      · exact List.mem_singleton.1 hpart
    -- No later part has this accumulator's id, and its own part has no later accumulator's.
    have notLater : ∀ part ∈ partsOf rest shares, part.1 ≠ acc.id := by
      intro part hpart same
      obtain ⟨later, hlater, owner⟩ := owners part hpart
      exact distinct.1 (List.mem_map.2 ⟨later, hlater, owner.trans same⟩)
    have own : Wire.entriesOf (partsOf (acc :: rest) (taken :: shares)) acc.id = taken := by
      rw [partsOf_cons, Accumulator.partOf]
      split
      · next empty => simpa [empty] using Wire.entriesOf_of_forall_ne notLater
      · exact Wire.entriesOf_cons_self ..
    have others : ∀ later ∈ rest,
        Wire.entriesOf (partsOf (acc :: rest) (taken :: shares)) later.id =
          Wire.entriesOf (partsOf rest shares) later.id := by
      intro later hlater
      refine Wire.entriesOf_append_of_forall_ne ?_ _
      intro part hpart same
      obtain rfl := ownPart part hpart
      exact distinct.1 (List.mem_map.2 ⟨later, hlater, same.symm⟩)
    refine ⟨?_, ?_, ?_⟩
    · have later := gathered.trans (markAll_congr others).symm
      simp only [markShares_cons, markAll, List.map_cons, own, List.cons.injEq, true_and]
      exact later
    · intro part hpart
      rcases List.mem_append.1 hpart with hpart | hpart
      · exact ⟨acc, by simp, by rw [ownPart part hpart]⟩
      · obtain ⟨later, hlater, owner⟩ := owners part hpart
        exact ⟨later, by simp [hlater], owner⟩
    · intro other hother
      rcases List.mem_cons.1 hother with rfl | hother
      · rw [own]
        exact share.front
      · rw [others other hother]
        exact prefixes other hother

/-- A payload carries the first ready records of some accumulators, and of nothing else. -/
structure Carries (urgent : Bool) (accs : List Accumulator) (payload : Bytes) : Prop where
  flagged : Wire.flaggedUrgent payload = urgent
  ready : ∀ acc ∈ accs,
    Wire.entriesFor payload acc.id <+: Accumulator.ready urgent acc.records
  bound : ∀ owner, Wire.entriesFor payload owner ≠ [] → ∃ acc ∈ accs, acc.id = owner

/-- A built frame carries the first ready records of every accumulator, exactly these are marked,
and the frame is worth sending exactly if there are any. -/
theorem buildFrame_spec {n : Node} (distinct : n.DistinctIds) (urgent : Bool) :
    Carries urgent n.accumulators (n.buildFrame urgent).1.finish ∧
      (n.buildFrame urgent).2 = { n with
        accumulators :=
          markAll urgent (Wire.entriesFor (n.buildFrame urgent).1.finish) n.accumulators } ∧
      ((n.buildFrame urgent).1.isWorthSending ↔
        ∃ owner, Wire.entriesFor (n.buildFrame urgent).1.finish owner ≠ []) := by
  obtain ⟨shares, loads, holds, urgency, -, marked⟩ := loads_buildFrame n urgent
  obtain ⟨gathered, owners, prefixes⟩ := loads.entriesOf_partsOf distinct
  generalize partsOf n.accumulators shares = parts at holds gathered owners prefixes
  have carried (owner : UInt8) :
      Wire.entriesFor (n.buildFrame urgent).1.finish owner = Wire.entriesOf parts owner := by
    rw [holds.entriesFor_finish]
  refine ⟨⟨?_, ?_, ?_⟩, ?_, ?_⟩
  · rw [Wire.FrameBuilder.flaggedUrgent_finish, urgency]
    cases urgent <;> rfl
  · intro acc hacc
    rw [carried]
    exact prefixes acc hacc
  · intro owner some
    rw [carried] at some
    have found : (parts.find? (·.1 == owner)).isSome := by
      cases h : parts.find? (·.1 == owner) with
      | none => simp [Wire.entriesOf, h] at some
      | some part => rfl
    obtain ⟨part, hpart⟩ := Option.isSome_iff_exists.1 found
    obtain ⟨acc, hacc, same⟩ := owners part (List.mem_of_find?_eq_some hpart)
    have named : part.1 = owner := by simpa using List.find?_some hpart
    exact ⟨acc, hacc, same.trans named⟩
  · rw [markAll_congr fun acc _ ↦ carried acc.id, ← gathered]
    exact marked
  · rw [holds.isWorthSending_iff]
    constructor
    · intro some
      obtain ⟨part, rest, rfl⟩ := List.exists_cons_of_ne_nil some
      refine ⟨part.1, ?_⟩
      rw [carried]
      have own : Wire.entriesOf (part :: rest) part.1 = part.2 := Wire.entriesOf_cons_self ..
      rw [own]
      exact holds.nonempty part (by simp)
    · rintro ⟨owner, some⟩ rfl
      exact some (carried owner)

/-! ## Flushing -/

/-- All that can come of a flush. -/
inductive Flushed (n : Node) (radio : Radio) (urgent : Bool) : Reaction Bool Node Output → Prop
  /-- Nothing is sent, and at most the node's own draws went on. -/
  | idle (gate : Gate) (source : Source) :
      Flushed n radio urgent ⟨false, { n with gate, source }, []⟩
  /-- The sink uses its records up. -/
  | consumed (sink : n.gradient.isSink = true) :
      Flushed n radio urgent ⟨false, n.cleanup .all, consumption n.accumulators⟩
  /-- The radio takes a frame, and the records that it carries are on their way. -/
  | taken (gate : Gate) (source : Source) {parent : Address} {payload : Bytes}
      (inner : n.gradient.isSink = false) (route : n.gradient.parent = some parent)
      (free : radio.busy = false)
      (accepted : radio.accepts ⟨parent, payload, n.config.maxRetries⟩ = true)
      (carries : Carries urgent n.accumulators payload)
      (loaded : ∃ owner, Wire.entriesFor payload owner ≠ []) :
      Flushed n radio urgent ⟨true,
        { n with
          gate, source
          accumulators := markAll urgent (Wire.entriesFor payload) n.accumulators },
        [.offer ⟨parent, payload, n.config.maxRetries⟩ true]⟩
  /-- The radio refuses a frame, and no record is on its way. -/
  | refused (gate : Gate) (source : Source) {parent : Address} {payload : Bytes}
      (inner : n.gradient.isSink = false) (free : radio.busy = false) (filled : payload ≠ [])
      (rejected : radio.accepts ⟨parent, payload, n.config.maxRetries⟩ = false) :
      Flushed n radio urgent ⟨false,
        { n with gate, source, accumulators := n.accumulators.map Accumulator.releasePending },
        [.offer ⟨parent, payload, n.config.maxRetries⟩ false]⟩

/-- The frame that a step had taken, if any. -/
def takenFrame? (outputs : List Output) : Option Outgoing :=
  outputs.findSome? fun
    | .offer frame true => some frame
    | _ => none

/-- The frames that were taken in some steps, in order. -/
def takenFrames (outputs : List Output) : List Outgoing :=
  outputs.filterMap fun
    | .offer frame true => some frame
    | _ => none

/-- Frames are taken in the order of the outputs. -/
theorem takenFrames_append (outputs more : List Output) :
    takenFrames (outputs ++ more) = takenFrames outputs ++ takenFrames more :=
  List.filterMap_append

/-- The frame that a step had taken is among those taken. -/
theorem mem_takenFrames_of_takenFrame? {outputs : List Output} {frame : Outgoing}
    (h : takenFrame? outputs = some frame) : frame ∈ takenFrames outputs := by
  refine List.mem_of_mem_head? ?_
  rw [takenFrames, List.head?_filterMap]
  exact h

/-- A sink that uses its records up has no frame taken. -/
theorem takenFrame?_consumption (accs : List Accumulator) :
    takenFrame? (consumption accs) = none := by
  rw [takenFrame?, List.findSome?_eq_none_iff]
  intro o ho
  obtain ⟨acc, -, ho⟩ := List.mem_flatMap.1 ho
  obtain ⟨r, -, rfl⟩ := List.mem_map.1 ho
  rfl

/-- The entries that are handed over for an id among some outputs, in order. -/
def handedOver (id : UInt8) (outputs : List Output) : List Wire.Entry :=
  outputs.filterMap fun
    | .consume job key value => if job = id then some ⟨key, value⟩ else none
    | _ => none

/-- Nothing is handed over without outputs. -/
@[simp] theorem handedOver_nil (id : UInt8) : handedOver id [] = [] := rfl

/-- Entries are handed over in the order of the outputs. -/
@[simp] theorem handedOver_append (id : UInt8) (outputs more : List Output) :
    handedOver id (outputs ++ more) = handedOver id outputs ++ handedOver id more :=
  List.filterMap_append

private theorem handedOver_records (id owner : UInt8) (records : List Record) :
    handedOver id (records.map fun r ↦ .consume owner r.key r.value) =
      if owner = id then records.map Record.entry else [] := by
  by_cases own : owner = id
  · rw [if_pos own, handedOver, List.filterMap_map]
    simp only [own, Function.comp_def, if_true]
    exact congrFun List.filterMap_eq_map' records
  · rw [if_neg own, handedOver, List.filterMap_map]
    simp [own]

/-- What a sink hands over for an id are the records that are held for it. -/
theorem handedOver_consumption {n : Node} (distinct : n.DistinctIds) (id : UInt8) :
    handedOver id (consumption n.accumulators) = (n.recordsFor id).map Record.entry := by
  have head (acc : Accumulator) (rest : List Accumulator) :
      handedOver id (consumption (acc :: rest)) =
        (if acc.id = id then acc.records.map Record.entry else []) ++
          handedOver id (consumption rest) := by
    rw [← handedOver_records]
    exact handedOver_append ..
  have others {accs : List Accumulator} (h : ∀ acc ∈ accs, acc.id ≠ id) :
      handedOver id (consumption accs) = [] := by
    induction accs with
    | nil => rfl
    | cons acc rest ih =>
      rw [head, if_neg (h acc List.mem_cons_self), List.nil_append]
      exact ih fun other hother ↦ h other (List.mem_cons_of_mem _ hother)
  rw [recordsFor, accumulator?]
  unfold DistinctIds at distinct
  generalize n.accumulators = accs at distinct ⊢
  induction accs with
  | nil => rfl
  | cons acc rest ih =>
    rw [List.map_cons, List.nodup_cons] at distinct
    rw [head]
    by_cases named : acc.id = id
    · rw [if_pos named, List.find?_cons_of_pos (by simpa using named), others, List.append_nil]
      · rfl
      · intro other hother also
        exact distinct.1 (List.mem_map.2 ⟨other, hother, also.trans named.symm⟩)
    · rw [if_neg named, List.find?_cons_of_neg (by simpa using named), List.nil_append]
      exact ih distinct.2

/-- Nothing is sent where records are handed over. -/
theorem offer_not_mem_consumption (accs : List Accumulator) (frame : Outgoing) (accepted : Bool) :
    .offer frame accepted ∉ consumption accs := by
  intro mem
  obtain ⟨acc, -, mem⟩ := List.mem_flatMap.1 mem
  obtain ⟨r, -, same⟩ := List.mem_map.1 mem
  cases same

private theorem markAll_nil (urgent : Bool) (accs : List Accumulator) :
    markAll urgent (fun _ ↦ []) accs = accs := by
  simp [markAll]

private theorem releasePending_markAll (urgent : Bool) (entries : UInt8 → List Wire.Entry)
    (accs : List Accumulator) :
    (markAll urgent entries accs).map Accumulator.releasePending =
      accs.map Accumulator.releasePending := by
  simp [markAll]

private theorem flushed_send {n : Node} (distinct : n.DistinctIds) {radio : Radio}
    {parent : Address} (inner : n.gradient.isSink = false) (route : n.gradient.parent = some parent)
    (free : radio.busy = false) (urgent : Bool) (gate : Gate) (source : Source) :
    Flushed n radio urgent ({ n with gate, source }.send radio parent urgent) := by
  obtain ⟨carries, gathered, worth⟩ :=
    buildFrame_spec (n := { n with gate, source }) distinct urgent
  unfold send
  generalize { n with gate, source }.buildFrame urgent = built at carries gathered worth
  obtain ⟨builder, marked⟩ := built
  simp only at carries gathered worth ⊢
  subst gathered
  by_cases some : builder.isWorthSending = true
  · by_cases accepted : radio.accepts ⟨parent, builder.finish, n.config.maxRetries⟩ = true
    · simp only [some, accepted, if_true]
      exact .taken gate source inner route free accepted carries (worth.1 some)
    · simp only [some, accepted, if_true, releasePending, releasePending_markAll]
      refine .refused gate source inner free ?_ (by simpa using accepted)
      simp [Wire.FrameBuilder.finish, Wire.FrameHeader.encode]
  · have none (owner : UInt8) : Wire.entriesFor builder.finish owner = [] := by
      by_cases h : Wire.entriesFor builder.finish owner = []
      · exact h
      · exact absurd (worth.2 ⟨owner, h⟩) some
    simp only [some, funext none, markAll_nil]
    exact .idle gate source

/-- Flushing does what is said of it. -/
theorem flushed_flush {n : Node} (distinct : n.DistinctIds) (radio : Radio) (urgent : Bool) :
    Flushed n radio urgent (n.flush radio urgent) := by
  unfold flush
  split
  · exact .idle n.gate n.source
  · split
    · next sink => exact .consumed sink
    · next inner =>
      simp only [Bool.not_eq_true] at inner
      split
      · exact .idle n.gate n.source
      · next parent route =>
        split
        · exact .idle n.gate n.source
        · next free =>
          simp only [Bool.not_eq_true] at free
          split
          · obtain ⟨gate, source, backed⟩ :
                ∃ gate source, n.backOff.2 = { n with gate, source } := ⟨_, _, rfl⟩
            simp only [backed]
            split
            · exact .idle gate source
            · exact flushed_send distinct inner route free urgent gate source
          · exact flushed_send distinct inner route free urgent n.gate n.source

/-- A frame that a flush has taken is for the parent and carries the first ready records. -/
theorem sent_of_takenFrame? {n : Node} (distinct : n.DistinctIds) {radio : Radio} {urgent : Bool}
    {frame : Outgoing} (taken : takenFrame? (n.flush radio urgent).outputs = some frame) :
    n.gradient.parent = some frame.target ∧ Carries urgent n.accumulators frame.payload := by
  have step := flushed_flush distinct radio urgent
  generalize n.flush radio urgent = reaction at step taken
  cases step with
  | idle gate source => cases taken
  | consumed sink =>
    rw [takenFrame?_consumption] at taken
    cases taken
  | taken gate source inner route free accepted carries loaded =>
    obtain rfl := Option.some.inj taken
    exact ⟨route, carries⟩
  | refused gate source inner free filled rejected => cases taken

/-! ## Marks afterwards -/

variable {n : Node} {urgent : Bool} {payload : Bytes}

/-- The entries that a frame carries are the first ready ones of the records held for their id. -/
theorem Carries.ready_recordsFor (carries : Carries urgent n.accumulators payload) (id : UInt8) :
    Wire.entriesFor payload id <+: Accumulator.ready urgent (n.recordsFor id) := by
  cases bound : n.accumulator? id with
  | none =>
    by_cases empty : Wire.entriesFor payload id = []
    · rw [empty]
      exact List.nil_prefix
    · obtain ⟨acc, hacc, named⟩ := carries.bound id empty
      rw [accumulator?, List.find?_eq_none] at bound
      exact absurd (by simpa using named) (bound acc hacc)
  | some acc =>
    obtain ⟨hacc, rfl⟩ := n.mem_accumulators_of_accumulator? bound
    simpa [recordsFor, bound] using carries.ready acc hacc

/-- Marking marks as many ready records of an id as there are entries for it. -/
theorem recordsFor_markAll (urgent : Bool) (entries : UInt8 → List Wire.Entry) (gate : Gate)
    (source : Source) (id : UInt8) :
    Node.recordsFor { n with
        gate, source, accumulators := markAll urgent entries n.accumulators } id =
      Accumulator.markReady urgent (entries id).length (n.recordsFor id) := by
  have found : Node.accumulator? { n with
        gate, source, accumulators := markAll urgent entries n.accumulators } id =
      (n.accumulator? id).map fun acc ↦ acc.marked urgent (entries acc.id).length := by
    rw [accumulator?, markAll, List.find?_map]
    rfl
  cases bound : n.accumulator? id with
  | none =>
    simp only [recordsFor, found, bound, Option.map_none, Option.getD_none]
    cases (entries id).length <;> rfl
  | some acc =>
    obtain ⟨-, rfl⟩ := n.mem_accumulators_of_accumulator? bound
    simp [recordsFor, found, bound, Accumulator.marked]

/-- The keys on their way after a frame was taken: those from before and those that it carries. -/
theorem mem_pendingKeys_markAll (carries : Carries urgent n.accumulators payload) (gate : Gate)
    (source : Source) (id : UInt8) (key : Bytes) :
    key ∈ Node.pendingKeys { n with
        gate, source
        accumulators := markAll urgent (Wire.entriesFor payload) n.accumulators } id ↔
      key ∈ n.pendingKeys id ∨ key ∈ (Wire.entriesFor payload id).map Wire.Entry.key := by
  have marked := Accumulator.pending_markReady_perm urgent (Wire.entriesFor payload id).length
    (n.recordsFor id)
  rw [← List.prefix_iff_eq_take.1 (carries.ready_recordsFor id)] at marked
  have keys := (marked.map Wire.Entry.key).mem_iff (a := key)
  rw [List.map_append, Record.map_key_map_entry, Record.map_key_map_entry,
    List.mem_append] at keys
  rw [pendingKeys, recordsFor_markAll]
  exact keys

/-- A flush binds and unbinds nothing. -/
theorem bindings_flush (distinct : n.DistinctIds) (radio : Radio) (urgent : Bool) :
    (n.flush radio urgent).state.bindings = n.bindings := by
  have step := flushed_flush distinct radio urgent
  generalize n.flush radio urgent = reaction at step ⊢
  cases step with
  | idle gate source => rfl
  | consumed sink => exact n.bindings_cleanup .all
  | taken gate source inner route free accepted carries loaded => simp [bindings, markAll]
  | refused gate source inner free filled rejected => simp [bindings, Accumulator.releasePending]

/-- A flush neither moves nor closes the node. -/
theorem flush_keeps (distinct : n.DistinctIds) (radio : Radio) (urgent : Bool) :
    (n.flush radio urgent).state.gradient = n.gradient ∧
      (n.flush radio urgent).state.closed = n.closed := by
  have step := flushed_flush distinct radio urgent
  generalize n.flush radio urgent = reaction at step ⊢
  cases step with
  | idle | consumed | taken | refused => exact ⟨rfl, rfl⟩

/-! ## Signals and beacons -/

/-- The node with one more confirmed frame, and without the records that were on their way. -/
def confirmed (n : Node) : Node := { n with counters := n.counters.addSent }.cleanup .pendingOnly

/-- The node with one more given-up frame, and with all of its records ready. -/
def givenUp (n : Node) : Node := { n with counters := n.counters.addTimedOut }.releasePending

/-- The node with one more received frame, taken in. -/
def takingIn (n : Node) (payload : Bytes) : Node :=
  { n with counters := n.counters.addReceived }.receive payload

/-- An open node takes the news of an arrival as the confirmation of its frame. -/
theorem onSignal_sent (opened : n.closed = false) (radio : Radio) (target : Address)
    (retries : Nat) : n.onSignal radio (.sent target retries) = ⟨(), n.confirmed, []⟩ :=
  if_neg (by simp [opened])

/-- An open node takes the news of a loss as the end of its frame. -/
theorem onSignal_timedOut (opened : n.closed = false) (radio : Radio) (target : Address)
    (retries : Nat) : n.onSignal radio (.timedOut target retries) = ⟨(), n.givenUp, []⟩ :=
  if_neg (by simp [opened])

/-- An open node takes a payload in and flushes what is urgent. -/
theorem onSignal_received (opened : n.closed = false) (radio : Radio) (sender : Address)
    (payload : Bytes) :
    n.onSignal radio (.received sender payload) =
      ⟨(), ((n.takingIn payload).flush radio true).state,
        ((n.takingIn payload).flush radio true).outputs⟩ :=
  if_neg (by simp [opened])

/-- An open node considers what it hears as a parent, and announces itself if it took it. -/
theorem onBeacon_heard (opened : n.closed = false) (neighbor : Address) (hop : UInt8) :
    n.onBeacon (.heard neighbor hop) =
      ⟨(), { n with gradient := (n.gradient.consider neighbor hop).2 },
        if (n.gradient.consider neighbor hop).1 then
          [.announce (n.gradient.consider neighbor hop).2.advertised] else []⟩ :=
  if_neg (by simp [opened])

/-- A neighbour that is nearer to the sink becomes the parent, and the new hop count is announced.
-/
theorem onBeacon_heard_of_lt (opened : n.closed = false) {neighbor : Address} {hop : UInt8}
    (better : hop.toNat < n.gradient.hop.toNat) :
    n.onBeacon (.heard neighbor hop) =
      ⟨(), { n with gradient := { n.gradient with parent := some neighbor, hop } },
        [.announce (Gradient.advertised { n.gradient with parent := some neighbor, hop })]⟩ := by
  rw [onBeacon_heard opened, Gradient.consider_of_lt better]
  rfl

/-- What is no nearer to the sink than the node itself is no news. -/
theorem onBeacon_heard_of_le (opened : n.closed = false) {neighbor : Address} {hop : UInt8}
    (worse : n.gradient.hop.toNat ≤ hop.toNat) :
    n.onBeacon (.heard neighbor hop) = ⟨(), n, []⟩ := by
  rw [onBeacon_heard opened, Gradient.consider_of_le worse]
  rfl

/-- A tick counts one cycle. -/
theorem onBeacon_tick (opened : n.closed = false) :
    n.onBeacon .tick = ⟨(), { n with counters := n.counters.addCycle }, []⟩ :=
  if_neg (by simp [opened])

/-- Closing an open node removes all records and stops its radio. -/
theorem close_of_running (opened : n.closed = false) :
    n.close = ⟨(), { n.cleanup .all with closed := true }, [.stop]⟩ :=
  if_neg (by simp [opened])

/-- Closing leaves the node where it stands. -/
theorem gradient_close (n : Node) : n.close.state.gradient = n.gradient := by
  unfold close
  split <;> rfl

/-- A confirmation binds and unbinds nothing. -/
@[simp] theorem bindings_confirmed (n : Node) : n.confirmed.bindings = n.bindings :=
  bindings_cleanup { n with counters := n.counters.addSent } .pendingOnly

/-- Giving a frame up binds and unbinds nothing. -/
@[simp] theorem bindings_givenUp (n : Node) : n.givenUp.bindings = n.bindings :=
  n.bindings_releasePending

/-- Taking a payload in binds and unbinds nothing. -/
@[simp] theorem bindings_takingIn (n : Node) (payload : Bytes) :
    (n.takingIn payload).bindings = n.bindings :=
  bindings_receive { n with counters := n.counters.addReceived } payload

/-- A confirmation removes the records on their way. -/
theorem recordsFor_confirmed (n : Node) (id : UInt8) :
    n.confirmed.recordsFor id = (n.recordsFor id).filter fun r ↦ !r.isPending := by
  have cleaned := recordsFor_cleanup { n with counters := n.counters.addSent } .pendingOnly id
  simp only [Record.bears_pendingOnly] at cleaned
  exact cleaned

/-- Giving a frame up takes the marks of records on their way back. -/
theorem recordsFor_givenUp (n : Node) (id : UInt8) :
    n.givenUp.recordsFor id = (n.recordsFor id).map (·.unmark .pendingOnly) :=
  n.recordsFor_releasePending id

/-- After a confirmation nothing is on its way. -/
@[simp] theorem pendingKeys_confirmed (n : Node) (id : UInt8) : n.confirmed.pendingKeys id = [] :=
  pendingKeys_cleanup_pending { n with counters := n.counters.addSent } id

/-- After a frame was given up nothing is on its way. -/
@[simp] theorem pendingKeys_givenUp (n : Node) (id : UInt8) : n.givenUp.pendingKeys id = [] :=
  n.pendingKeys_releasePending id

/-- Taking a payload in keeps the keys on their way. -/
theorem pendingKeys_takingIn (keeps : n.KeepsIdentity) (payload : Bytes) (id : UInt8) :
    (n.takingIn payload).pendingKeys id = n.pendingKeys id :=
  pendingKeys_receive (n := { n with counters := n.counters.addReceived }) keeps payload id

/-- Taking a payload in leaves the node where it stands. -/
@[simp] theorem gradient_takingIn (n : Node) (payload : Bytes) :
    (n.takingIn payload).gradient = n.gradient :=
  gradient_receive { n with counters := n.counters.addReceived } payload

/-- Taking a payload in neither opens nor closes the node. -/
@[simp] theorem closed_takingIn (n : Node) (payload : Bytes) :
    (n.takingIn payload).closed = n.closed :=
  closed_receive { n with counters := n.counters.addReceived } payload

end Node
end CollectionTree
