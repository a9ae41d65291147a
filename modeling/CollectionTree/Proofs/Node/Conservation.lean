import CollectionTree.Proofs.Node.Exchange
import CollectionTree.Proofs.Store.Combining

/-!
# What becomes of every value

The history of an exchange follows the values of one accumulator: which were emitted into it, which
were carried by confirmed frames, and which were folded into records on their way. A confirmation
removes a record together with all that was folded into it since its frame was taken, so these late
values are lost: no frame carried them.

`balanced_run` is the account that every event keeps, for any additive weight. For a job that
combines values it becomes `total_run`: confirmed, stored and lost values together make up what was
emitted.
-/

namespace CollectionTree

/-- What became of the values of one accumulator: all that were taken in, from facts and from
frames; those carried by confirmed frames; those folded into records on their way since the
outstanding frame was taken; and those removed with a confirmed record into which they had been
folded on its way. -/
structure History where
  emitted : List Wire.Entry := []
  confirmed : List Wire.Entry := []
  late : List Wire.Entry := []
  lost : List Wire.Entry := []

namespace Exchange

/-- The store that an event gives candidates for an id to, with these candidates. -/
def offer? (e : Exchange) (id : UInt8) : Event → Option (Store × List Record)
  | .sow target elapsed key value =>
    if target = id then
      (e.node.storeFor? id).map fun store ↦
        ({ store with counters := store.counters.addMapped }, store.job.map elapsed key value)
    else none
  | .received _ _ payload =>
    (Node.turnFor? (Store.taking payload)
      { e.node with counters := e.node.counters.addReceived } id).map fun store ↦
        (store, Store.arrivals payload id)
  | _ => none

/-- The entries that an event brings into the accumulator with an id. -/
def takenIn (e : Exchange) (id : UInt8) (event : Event) : List Wire.Entry :=
  match e.offer? id event with
  | none => []
  | some (store, candidates) => (store.accepted candidates).map Record.entry

/-- The entries among them that are folded into records on their way. -/
def foldedLate (e : Exchange) (id : UInt8) (event : Event) : List Wire.Entry :=
  match e.offer? id event with
  | none => []
  | some (store, candidates) =>
    (Store.lateAmong store.records candidates).map Record.entry

/-- The history of an id after one more event. -/
def recorded (e : Exchange) (id : UInt8) (h : History) : Event → History
  | .sent _ _ =>
    { h with
      confirmed := h.confirmed ++ e.outstandingFor id
      lost := h.lost ++ h.late
      late := [] }
  | .timedOut _ _ => { h with late := [] }
  | event =>
    { h with
      emitted := h.emitted ++ e.takenIn id event
      late := h.late ++ e.foldedLate id event }

/-- The history of an id after some events. -/
def recordedAll (id : UInt8) : Exchange → History → List Event → History
  | _, h, [] => h
  | e, h, event :: rest => recordedAll id (e.step event) (e.recorded id h event) rest

/-- The history of an id from a start, where what is stored already counts as emitted. -/
def historyOf (e : Exchange) (id : UInt8) (events : List Event) : History :=
  recordedAll id e { emitted := (e.node.recordsFor id).map Record.entry } events

/-- All values that an event brings for an id are valid. -/
def OffersValid (valid : Wire.Entry → Prop) (n : Node) (id : UInt8) : Event → Prop
  | .sow target elapsed key value => target = id → ∀ job, (id, job) ∈ n.bindings →
      ∀ r ∈ job.map elapsed key value, valid r.entry
  | .received _ _ payload => ∀ entry ∈ Wire.entriesFor payload id, valid entry
  | _ => True

variable {M : Type} [AddCommMonoid M] {valid : Wire.Entry → Prop} {weight : Wire.Entry → M}
  {e : Exchange} {id : UInt8} {h : History}

/-- The account of an id: what was confirmed, is stored and was lost weighs what was emitted, and
what is on its way weighs what the outstanding frame carries and what was folded in late. -/
structure Balanced (valid : Wire.Entry → Prop) (weight : Wire.Entry → M) (e : Exchange)
    (id : UInt8) (h : History) : Prop where
  additive : ∀ job, (id, job) ∈ e.node.bindings → job.Additive valid weight
  stored : ∀ r ∈ e.node.recordsFor id, valid r.entry
  outstanding : ∀ entry ∈ e.outstandingFor id, valid entry
  emitted : ∀ entry ∈ h.emitted, valid entry
  confirmed : ∀ entry ∈ h.confirmed, valid entry
  late : ∀ entry ∈ h.late, valid entry
  lost : ∀ entry ∈ h.lost, valid entry
  quiet : e.outstanding = none → h.late = []
  total : weighEntries weight h.confirmed + weigh weight (e.node.recordsFor id) +
    weighEntries weight h.lost = weighEntries weight h.emitted
  pending : weigh weight (Accumulator.pending (e.node.recordsFor id)) =
    weighEntries weight (e.outstandingFor id) + weighEntries weight h.late

/-! ## Taking values in -/

/-- How the records of an id come out of an offer, and that nothing else changed. -/
def TakesOffer (e : Exchange) (id : UInt8) (event : Event) (n : Node) : Prop :=
  (e.offer? id event = none ∧ n.recordsFor id = e.node.recordsFor id) ∨
    ∃ store candidates, e.offer? id event = some (store, candidates) ∧
      (id, store.job) ∈ e.node.bindings ∧ store.records = e.node.recordsFor id ∧
      n.recordsFor id = (store.emitAll candidates).2.records

/-- A fact comes out as an offer of what its job makes of it. -/
theorem takesOffer_sow (e : Exchange) (id target : UInt8) (elapsed : Nat) (key value : Bytes) :
    TakesOffer e id (.sow target elapsed key value) (e.node.sow target elapsed key value).2 := by
  have step := e.node.sown_sow target elapsed key value
  generalize (e.node.sow target elapsed key value).2 = n at step ⊢
  cases step with
  | unbound missing =>
    refine .inl ⟨?_, rfl⟩
    simp only [offer?, Node.storeFor?]
    split
    · next same => simp [← same, missing]
    · rfl
  | @taken store _ found bindings here elsewhere rest =>
    obtain ⟨acc, bound, rfl⟩ := Option.map_eq_some_iff.1 found
    by_cases same : target = id
    · subst same
      refine .inr ⟨⟨acc, e.node.ledger, e.node.counters.addMapped⟩, acc.job.map elapsed key value,
        by simp [offer?, found], Node.mem_bindings_of_accumulator? bound, ?_, ?_⟩
      · simp [Node.recordsFor, bound]
      · simp [Node.recordsFor, here, Store.sow]
    · refine .inl ⟨by simp [offer?, same], ?_⟩
      simp only [Node.recordsFor, elsewhere id (Ne.symm same)]

/-- A payload comes out as an offer of what it carries for the id. -/
theorem takesOffer_takingIn (e : Exchange) (id : UInt8) (radio : Radio) (sender : Address)
    (payload : Bytes) :
    TakesOffer e id (.received radio sender payload) (e.node.takingIn payload) := by
  rw [TakesOffer, Node.takingIn, Node.receive_eq]
  rcases Node.onEach_cases { e.node with counters := e.node.counters.addReceived }
    (Store.taking payload) (Store.id_taking payload) id with
    ⟨turn, before, after⟩ | ⟨store, turn, named, before, after⟩
  · refine .inl ⟨by simp [offer?, turn], ?_⟩
    have before : e.node.accumulator? id = none := before
    simp [Node.recordsFor, before, after]
  · have before : e.node.accumulator? id = some store.toAccumulator := before
    refine .inr ⟨store, Store.arrivals payload id, by simp [offer?, turn],
      Node.mem_bindings_of_accumulator? before, by simp [Node.recordsFor, before], ?_⟩
    simp [Node.recordsFor, after, Store.taking, named]

/-- Without anything on its way nothing is late. -/
theorem lateAmong_eq_nil {records : List Record} (clear : Accumulator.pending records = [])
    (candidates : List Record) : Store.lateAmong records candidates = [] := by
  rw [Store.lateAmong, List.filter_eq_nil_iff]
  intro c _
  simp only [Store.marksKey, Option.any_eq_true, not_exists, not_and]
  intro r found marked
  have mem : r ∈ Accumulator.pending records :=
    List.mem_filter.2 ⟨List.mem_of_find?_eq_some found, marked⟩
  simp [clear] at mem

private theorem Balanced.takesOffer (balanced : Balanced valid weight e id h) (sound : e.Sound)
    {event : Event} {n : Node} (bindings : n.bindings = e.node.bindings)
    (takes : TakesOffer e id event n)
    (offered : ∀ store candidates, e.offer? id event = some (store, candidates) →
      ∀ c ∈ candidates, valid c.entry) :
    Balanced valid weight { e with node := n } id
      { h with
        emitted := h.emitted ++ e.takenIn id event
        late := h.late ++ e.foldedLate id event } := by
  rcases takes with ⟨none, same⟩ | ⟨store, candidates, offer, bound, records, after⟩
  · simp only [takenIn, foldedLate, none, List.append_nil]
    exact ⟨bindings ▸ balanced.additive, same ▸ balanced.stored, balanced.outstanding,
      balanced.emitted, balanced.confirmed, balanced.late, balanced.lost, balanced.quiet,
      same ▸ balanced.total, same ▸ balanced.pending⟩
  · have additive := balanced.additive store.job bound
    have validRecords : ∀ r ∈ store.records, valid r.entry := records ▸ balanced.stored
    have validCandidates := offered store candidates offer
    have stored := Store.weigh_emitAll additive validRecords validCandidates
    have pending := Store.weigh_pending_emitAll additive validRecords validCandidates
    rw [← after, records] at stored pending
    simp only [takenIn, foldedLate, offer]
    refine ⟨bindings ▸ balanced.additive, ?_, balanced.outstanding, ?_, balanced.confirmed, ?_,
      balanced.lost, ?_, ?_, ?_⟩
    · simp only [after]
      exact Store.valid_emitAll additive validRecords validCandidates
    · intro entry mem
      rcases List.mem_append.1 mem with mem | mem
      · exact balanced.emitted entry mem
      · obtain ⟨c, hc, rfl⟩ := List.mem_map.1 mem
        exact validCandidates c (Store.mem_of_mem_accepted hc)
    · intro entry mem
      rcases List.mem_append.1 mem with mem | mem
      · exact balanced.late entry mem
      · obtain ⟨c, hc, rfl⟩ := List.mem_map.1 mem
        exact validCandidates c (List.mem_filter.1 hc).1
    · intro idle
      rw [balanced.quiet idle, records, lateAmong_eq_nil (sound.clear idle id)]
      rfl
    · simp only [stored, weighEntries_append, ← balanced.total]
      rw [weigh, weigh]
      ac_rfl
    · simp only [pending, weighEntries_append, balanced.pending, records]
      rw [weigh, add_assoc]
      rfl

/-! ## Sending and settling -/

/-- Where the entries of an id's records stay the same, so do the account and the values. -/
theorem Balanced.congr (balanced : Balanced valid weight e id h) {e' : Exchange}
    (bindings : e'.node.bindings = e.node.bindings)
    (entries : (e'.node.recordsFor id).map Record.entry =
      (e.node.recordsFor id).map Record.entry)
    (outstanding : ∀ entry ∈ e'.outstandingFor id, valid entry)
    (quiet : e'.outstanding = none → h.late = [])
    (pending : weigh weight (Accumulator.pending (e'.node.recordsFor id)) =
      weighEntries weight (e'.outstandingFor id) + weighEntries weight h.late) :
    Balanced valid weight e' id h where
  additive := bindings ▸ balanced.additive
  stored := forall_entry_of_map_eq entries balanced.stored
  outstanding := outstanding
  emitted := balanced.emitted
  confirmed := balanced.confirmed
  late := balanced.late
  lost := balanced.lost
  quiet := quiet
  total := by
    rw [weigh, entries]
    exact balanced.total
  pending := pending

private theorem Balanced.flush (balanced : Balanced valid weight e id h) (sound : e.Sound)
    {radio : Radio} (busy : e.outstanding.isSome = true → radio.busy = true) (urgent : Bool) :
    Balanced valid weight (e.after (e.node.flush radio urgent)) id h := by
  have bindings := Node.bindings_flush sound.distinct radio urgent
  rcases sound.flush_cases busy urgent with ⟨outstanding, records⟩ | ⟨idle, frame, taken, marked⟩
  · have same : (e.after (e.node.flush radio urgent)).outstandingFor id = e.outstandingFor id := by
      rw [outstandingFor, outstanding, outstandingFor]
    refine balanced.congr bindings ?_ (same ▸ balanced.outstanding)
      (outstanding ▸ balanced.quiet) ?_
    · rw [after, records]
    · rw [same, after, records]
      exact balanced.pending
  · obtain ⟨ready, records⟩ := marked id
    have carried : (e.after (e.node.flush radio urgent)).outstandingFor id =
        Wire.entriesFor frame.payload id := by
      rw [outstandingFor, taken]
    refine balanced.congr bindings ?_ ?_ (fun none ↦ ?_) ?_
    · rw [after, records, Accumulator.map_entry_markReady]
    · rw [carried]
      intro entry mem
      obtain ⟨r, hr, rfl⟩ := List.mem_map.1 (ready.subset mem)
      exact balanced.stored r (List.mem_filter.1 hr).1
    · rw [taken] at none
      cases none
    · rw [carried, balanced.quiet idle, weighEntries_nil, add_zero, weigh, after, records,
        Accumulator.pending_markReady urgent _ (sound.clear idle id),
        ← List.prefix_iff_eq_take.1 ready]

/-- A confirmation moves what the frame carried to the confirmed values, and loses what is late. -/
theorem Balanced.confirmed_node (balanced : Balanced valid weight e id h) :
    Balanced valid weight ⟨e.node.confirmed, none⟩ id
      { h with
        confirmed := h.confirmed ++ e.outstandingFor id
        lost := h.lost ++ h.late
        late := [] } where
  additive := e.node.bindings_confirmed ▸ balanced.additive
  stored r hr := by
    rw [Node.recordsFor_confirmed] at hr
    exact balanced.stored r (List.mem_filter.1 hr).1
  outstanding := by simp [outstandingFor]
  emitted := balanced.emitted
  confirmed entry mem := (List.mem_append.1 mem).elim (balanced.confirmed entry)
    (balanced.outstanding entry)
  late := by simp
  lost entry mem := (List.mem_append.1 mem).elim (balanced.lost entry) (balanced.late entry)
  quiet _ := rfl
  total := by
    have split := weigh_filter_add weight Record.isPending (e.node.recordsFor id)
    have pending := balanced.pending
    rw [Accumulator.pending] at pending
    rw [pending] at split
    rw [Node.recordsFor_confirmed, weighEntries_append, weighEntries_append, ← balanced.total,
      ← split]
    ac_rfl
  pending := by
    have clear := e.node.pendingKeys_confirmed id
    rw [Node.pendingKeys, List.map_eq_nil_iff] at clear
    simp [clear, outstandingFor]

/-- A frame that was given up leaves all values stored, the late ones with them. -/
theorem Balanced.givenUp_node (balanced : Balanced valid weight e id h) :
    Balanced valid weight ⟨e.node.givenUp, none⟩ id { h with late := [] } := by
  have entries : (e.node.givenUp.recordsFor id).map Record.entry =
      (e.node.recordsFor id).map Record.entry := by
    simp [Node.recordsFor_givenUp, Function.comp_def]
  have clear := e.node.pendingKeys_givenUp id
  rw [Node.pendingKeys, List.map_eq_nil_iff] at clear
  exact {
    additive := e.node.bindings_givenUp ▸ balanced.additive
    stored := forall_entry_of_map_eq entries balanced.stored
    outstanding := by simp [outstandingFor]
    emitted := balanced.emitted
    confirmed := balanced.confirmed
    late := by simp
    lost := balanced.lost
    quiet := fun _ ↦ rfl
    total := by
      rw [weigh, entries]
      exact balanced.total
    pending := by simp [clear, outstandingFor] }

/-! ## Every sequence of events -/

/-- What an event offers is valid if all that it brings is. -/
theorem valid_of_offersValid {event : Event} (offers : OffersValid valid e.node id event)
    {store : Store} {candidates : List Record}
    (offer : e.offer? id event = some (store, candidates)) : ∀ c ∈ candidates, valid c.entry := by
  cases event with
  | sow target elapsed key value =>
    simp only [offer?] at offer
    split at offer
    · next same =>
      obtain ⟨found, some, pair⟩ := Option.map_eq_some_iff.1 offer
      obtain ⟨acc, bound, rfl⟩ := Option.map_eq_some_iff.1 some
      obtain ⟨rfl, rfl⟩ := Prod.mk.inj pair
      exact offers same acc.job (Node.mem_bindings_of_accumulator? bound)
    · cases offer
  | received radio sender payload =>
    obtain ⟨found, some, pair⟩ := Option.map_eq_some_iff.1 offer
    obtain ⟨rfl, rfl⟩ := Prod.mk.inj pair
    intro c hc
    refine offers c.entry ?_
    rw [← Store.map_entry_arrivals]
    exact List.mem_map.2 ⟨c, hc, rfl⟩
  | flush | sent | timedOut | beacon | nextDelay => cases offer

/-- An event that offers nothing and settles nothing leaves the history alone. -/
theorem recorded_of_silent {event : Event} (silent : e.offer? id event = none)
    (notSent : ∀ radio retries, event ≠ .sent radio retries)
    (notTimedOut : ∀ radio retries, event ≠ .timedOut radio retries) :
    e.recorded id h event = h := by
  cases event with
  | sent radio retries => exact absurd rfl (notSent radio retries)
  | timedOut radio retries => exact absurd rfl (notTimedOut radio retries)
  | sow | flush | received | beacon | nextDelay =>
    simp [recorded, takenIn, foldedLate, silent]

private theorem Balanced.step (balanced : Balanced valid weight e id h) (sound : e.Sound)
    {event : Event} (allowed : e.Allows event) (offers : OffersValid valid e.node id event) :
    Balanced valid weight (e.step event) id (e.recorded id h event) := by
  have offered (store : Store) (candidates : List Record)
      (offer : e.offer? id event = some (store, candidates)) : ∀ c ∈ candidates, valid c.entry :=
    valid_of_offersValid offers offer
  cases event with
  | sow target elapsed key value =>
    exact balanced.takesOffer sound (e.node.bindings_sow ..) (takesOffer_sow e id ..) offered
  | flush radio urgent =>
    rw [recorded_of_silent rfl (by simp) (by simp)]
    exact balanced.flush sound allowed urgent
  | received radio sender payload =>
    have taken := balanced.takesOffer sound (e.node.bindings_takingIn payload)
      (takesOffer_takingIn e id radio sender payload) offered
    rw [step_received sound.opened]
    exact taken.flush (sound.takingIn payload) allowed true
  | sent radio retries =>
    obtain ⟨frame, outstanding⟩ := Option.isSome_iff_exists.1 allowed
    rw [step_sent sound.opened outstanding]
    exact balanced.confirmed_node
  | timedOut radio retries =>
    obtain ⟨frame, outstanding⟩ := Option.isSome_iff_exists.1 allowed
    rw [step_timedOut sound.opened outstanding]
    exact balanced.givenUp_node
  | beacon beacon =>
    obtain ⟨gradient, counters, -, after⟩ := step_beacon sound.opened beacon
    rw [after, recorded_of_silent rfl (by simp) (by simp)]
    exact balanced.congr rfl rfl balanced.outstanding balanced.quiet balanced.pending
  | nextDelay =>
    rw [recorded_of_silent rfl (by simp) (by simp)]
    exact balanced.congr rfl rfl balanced.outstanding balanced.quiet balanced.pending

/-- No event changes what is bound. -/
theorem bindings_step (sound : e.Sound) (event : Event) :
    (e.step event).node.bindings = e.node.bindings := by
  cases event with
  | sow target elapsed key value => exact e.node.bindings_sow target elapsed key value
  | flush radio urgent => exact Node.bindings_flush sound.distinct radio urgent
  | received radio sender payload =>
    rw [step_received sound.opened]
    exact (Node.bindings_flush (sound.takingIn payload).distinct radio true).trans
      (e.node.bindings_takingIn payload)
  | sent radio retries =>
    cases outstanding : e.outstanding with
    | none => simp [Exchange.step, settled, outstanding]
    | some frame =>
      rw [step_sent sound.opened outstanding]
      exact e.node.bindings_confirmed
  | timedOut radio retries =>
    cases outstanding : e.outstanding with
    | none => simp [Exchange.step, settled, outstanding]
    | some frame =>
      rw [step_timedOut sound.opened outstanding]
      exact e.node.bindings_givenUp
  | beacon beacon =>
    obtain ⟨gradient, counters, -, after⟩ := step_beacon sound.opened beacon
    rw [after]
    rfl
  | nextDelay => rfl

private theorem balanced_run (balanced : Balanced valid weight e id h) (sound : e.Sound)
    {events : List Event} (allowed : e.AllowsAll events)
    (offers : ∀ event ∈ events, OffersValid valid e.node id event) :
    Balanced valid weight (e.run events) id (recordedAll id e h events) := by
  induction events generalizing e h with
  | nil => exact balanced
  | cons event rest ih =>
    have stepped := balanced.step sound allowed.1 (offers event (by simp))
    have bindings := bindings_step sound event
    refine ih stepped (sound.step allowed.1) allowed.2 fun later hlater ↦ ?_
    have valid := offers later (by simp [hlater])
    unfold OffersValid at valid ⊢
    rwa [bindings]

/-! ## Combining jobs -/

/-- The values that an id has stored under a key. -/
def storedUnder (e : Exchange) (id : UInt8) (key : Bytes) : List Bytes :=
  under key ((e.node.recordsFor id).map Record.entry)

private theorem Fresh.balanced (fresh : e.Fresh)
    (additive : ∀ job, (id, job) ∈ e.node.bindings → job.Additive valid weight)
    (stored : ∀ r ∈ e.node.recordsFor id, valid r.entry) :
    Balanced valid weight e id { emitted := (e.node.recordsFor id).map Record.entry } where
  additive := additive
  stored := stored
  outstanding := by simp [outstandingFor, fresh.idle]
  emitted := List.forall_mem_map.2 stored
  confirmed := by simp
  late := by simp
  lost := by simp
  quiet _ := rfl
  total := by simp [weigh]
  pending := by simp [fresh.sound.clear fresh.idle id, outstandingFor, fresh.idle]

/-- For a job that combines values, the values of confirmed frames, those stored and those lost make
up everything that was emitted. So the values of confirmed frames and those stored do so exactly if
the lost values add nothing to them, as when there are none. -/
theorem total_run (fresh : e.Fresh) {job : Job} (bound : (id, job) ∈ e.node.bindings)
    {op : Bytes → Bytes → Bytes} {width : Bytes → Nat} (combining : job.CombinesBy op width)
    (stored : ∀ r ∈ e.node.recordsFor id, Wide width r.entry) {events : List Event}
    (allowed : e.AllowsAll events)
    (offers : ∀ event ∈ events, OffersValid (Wide width) e.node id event) (key : Bytes) :
    let history := e.historyOf id events
    let kept := under key history.confirmed ++ (e.run events).storedUnder id key
    total op (kept ++ under key history.lost) = total op (under key history.emitted) ∧
      (total op kept = total op (under key history.emitted) ↔
        total op (kept ++ under key history.lost) = total op kept) := by
  intro history kept
  have start : Balanced (Wide width) (weightUnder (combining.combines key)) e id
      { emitted := (e.node.recordsFor id).map Record.entry } :=
    fresh.balanced (fun job' bound' ↦
      Node.job_unique fresh.distinct bound bound' ▸ combining.additive key) stored
  have balanced := balanced_run start fresh.sound allowed offers
  have wide : ∀ entry ∈ history.confirmed ++
      ((e.run events).node.recordsFor id).map Record.entry ++ history.lost, Wide width entry := by
    intro entry mem
    rcases List.mem_append.1 mem with mem | mem
    · rcases List.mem_append.1 mem with mem | mem
      · exact balanced.confirmed entry mem
      · exact List.forall_mem_map.2 balanced.stored entry mem
    · exact balanced.lost entry mem
  have same := balanced.total
  rw [weigh, ← weighEntries_append, ← weighEntries_append] at same
  have everything : total op (kept ++ under key history.lost) =
      total op (under key history.emitted) := by
    have combined := total_under_eq (combining.combines key) wide balanced.emitted same
    rw [under_append, under_append] at combined
    exact combined
  rw [everything]
  exact ⟨rfl, eq_comm⟩

/-! ## A value that is added on the way -/

/-- The sum of two words of four bytes. -/
def addWords : Bytes → Bytes → Bytes
  | [a₀, a₁, a₂, a₃], [b₀, b₁, b₂, b₃] =>
    Bytes.ofUInt32 (Bytes.uint32 a₀ a₁ a₂ a₃ + Bytes.uint32 b₀ b₁ b₂ b₃)
  | a, _ => a

private theorem exists_of_length_four {v : Bytes} (h : v.length = 4) :
    ∃ word, v = Bytes.ofUInt32 word := by
  match v, h with
  | [b₀, b₁, b₂, b₃], _ => exact ⟨Bytes.uint32 b₀ b₁ b₂ b₃, by simp⟩

/-- Adding words in their bytes is adding them. -/
@[simp] theorem addWords_ofUInt32 (a b : UInt32) :
    addWords (Bytes.ofUInt32 a) (Bytes.ofUInt32 b) = Bytes.ofUInt32 (a + b) := by
  rw [Bytes.ofUInt32, Bytes.ofUInt32, addWords, Bytes.uint32_ofUInt32, Bytes.uint32_ofUInt32]

private theorem combines_addWords : Combines addWords 4 where
  length a b ha hb := by
    obtain ⟨a, rfl⟩ := exists_of_length_four ha
    obtain ⟨b, rfl⟩ := exists_of_length_four hb
    rw [addWords_ofUInt32]
    rfl
  comm a b ha hb := by
    obtain ⟨a, rfl⟩ := exists_of_length_four ha
    obtain ⟨b, rfl⟩ := exists_of_length_four hb
    simp [UInt32.add_comm]
  assoc a b c ha hb hc := by
    obtain ⟨a, rfl⟩ := exists_of_length_four ha
    obtain ⟨b, rfl⟩ := exists_of_length_four hb
    obtain ⟨c, rfl⟩ := exists_of_length_four hc
    simp [UInt32.add_assoc]

/-- The job that sums up words combines by that sum. -/
theorem combinesBy_wordSum : Bytewise.wordSum.CombinesBy addWords fun _ ↦ 4 where
  keeps := keepsIdentity_wordSum
  reduce r value wide wide' := by
    obtain ⟨a, stored⟩ := exists_of_length_four wide
    obtain ⟨b, rfl⟩ := exists_of_length_four wide'
    rw [stored, addWords_ofUInt32]
    simp [Bytewise.wordSum, stored, Bytes.ofUInt32]
  combines _ := combines_addWords

/-- A value on its way to the parent, to which a further one was added before the confirmation. -/
def confirmedAfterAdding : List Event := addedInFlight ++ [.sent willing 0]

private theorem offersValid_confirmedAfterAdding : ∀ event ∈ confirmedAfterAdding,
    OffersValid (Wide fun _ ↦ 4) routedAdder.node 1 event := by
  have words (value : Bytes) (wide : value.length = 4) :
      OffersValid (Wide fun _ ↦ 4) routedAdder.node 1 (.sow 1 0 [110] value) := by
    intro _ job bound r mem
    obtain rfl : job = Bytewise.wordSum := by simpa [routedAdder, Node.bindings] using bound
    have made : Record.make [110] value = .ok { key := [110], value } :=
      (Record.make_eq_ok_iff ..).2 ⟨by simp [wide, Wire.maxFieldLength], rfl⟩
    simp only [Bytewise.wordSum, Bytewise.record, made, Except.toOption, Option.toList,
      List.mem_singleton] at mem
    rw [mem]
    exact wide
  intro event mem
  simp only [confirmedAfterAdding, addedInFlight, List.cons_append, List.nil_append,
    List.mem_cons, List.not_mem_nil, or_false] at mem
  rcases mem with rfl | rfl | rfl | rfl | rfl
  · exact words _ rfl
  · trivial
  · exact words _ rfl
  · trivial
  · trivial

/-- The value that was added in flight is lost, and with it the account balances. -/
theorem total_confirmedAfterAdding :
    let history := routedAdder.historyOf 1 confirmedAfterAdding
    let kept := under [110] history.confirmed ++
      (routedAdder.run confirmedAfterAdding).storedUnder 1 [110]
    under [110] history.lost = [[2, 0, 0, 0]] ∧
      total addWords (kept ++ under [110] history.lost) =
        total addWords (under [110] history.emitted) :=
  ⟨by decide +kernel,
    (total_run fresh_routedAdder (by simp [routedAdder, Node.bindings]) combinesBy_wordSum
      (by simp [routedAdder, Node.recordsFor, Node.accumulator?]) (by decide)
      offersValid_confirmedAfterAdding [110]).1⟩

/-- Of 1 and 2 emitted under one key, the confirmed frame carried 1, and nothing is stored any more.
-/
theorem loses_value_added_in_flight :
    let history := routedAdder.historyOf 1 confirmedAfterAdding
    let kept := under [110] history.confirmed ++
      (routedAdder.run confirmedAfterAdding).storedUnder 1 [110]
    routedAdder.Fresh ∧ routedAdder.AllowsAll confirmedAfterAdding ∧
      total addWords kept = some [1, 0, 0, 0] ∧
      total addWords (under [110] history.emitted) = some [3, 0, 0, 0] :=
  ⟨fresh_routedAdder, by decide, by decide +kernel, by decide +kernel⟩

end Exchange
end CollectionTree
