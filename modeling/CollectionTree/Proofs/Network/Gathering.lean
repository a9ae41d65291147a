import CollectionTree.Proofs.Network.Line
import CollectionTree.Proofs.Node.Collecting

/-!
# Readings in a network

What all nodes hold under a key of the collecting job, and what a step of the network does to that.
A frame that arrives is counted twice until its sender hears of it, and no step in between touches
the sender: `Gathers.settles`.
-/

namespace CollectionTree

namespace Table

variable {κ ν M : Type} [Ranked κ] [AddCommMonoid M]

/-- Replacing a value replaces its share in a sum over all values. -/
theorem sum_values_insert (f : ν → M) {t : Table κ ν} {key : κ} {old : ν}
    (h : t.get? key = some old) (value : ν) :
    ((t.insert key value).values.map f).sum + f old = (t.values.map f).sum + f value := by
  have from' {entries : List (κ × ν)} (ascending : Ascending entries)
      (h : lookup key entries = some old) :
      (((place key value entries).map Prod.snd).map f).sum + f old =
        ((entries.map Prod.snd).map f).sum + f value := by
    induction entries with
    | nil => cases h
    | cons head rest ih =>
      obtain ⟨k, v⟩ := head
      by_cases same : key = k
      · subst same
        rw [lookup_cons_self] at h
        obtain rfl := Option.some.inj h
        rw [place, if_neg (Nat.lt_irrefl _), if_pos rfl]
        simp only [List.map_cons, List.sum_cons]
        ac_rfl
      · rw [lookup_cons_of_ne same] at h
        have behind := (List.pairwise_cons.1 ascending).1 _ (mem_of_lookup h)
        rw [place, if_neg (Nat.lt_asymm behind), if_neg fun ranks ↦ same (rank_inj.1 ranks)]
        simp only [List.map_cons, List.sum_cons]
        rw [add_assoc, ih ascending.tail h, add_assoc]
  exact from' t.ascending h

/-- Where no value counts, the sum is zero. -/
theorem sum_values_eq_zero {f : ν → M} {t : Table κ ν}
    (zero : ∀ key value, t.get? key = some value → f value = 0) : (t.values.map f).sum = 0 := by
  apply List.sum_eq_zero
  intro share mem
  obtain ⟨value, hvalue, rfl⟩ := List.mem_map.1 mem
  obtain ⟨e, he, rfl⟩ := List.mem_map.1 hvalue
  exact zero e.1 e.2 (t.get?_of_mem he)

end Table

namespace Network

/-- What all nodes hold under a key of the collecting job. -/
def stored (key : Collect.Key) (net : Network) : Collect.Tally :=
  (net.nodes.values.map (Node.stored key)).sum

/-- What reaches a sink under a key among some outputs. -/
def reached (key : Collect.Key) (outputs : List (Address × Output)) : Collect.Tally :=
  Node.consumedAmong key (outputs.map Prod.snd)

/-- What reaches a sink in two lots of outputs adds up. -/
@[simp] theorem reached_append (key : Collect.Key) (outputs more : List (Address × Output)) :
    reached key (outputs ++ more) = reached key outputs + reached key more := by
  simp [reached]

private theorem reached_map_pair (key : Collect.Key) (address : Address) (outputs : List Output) :
    reached key (outputs.map (address, ·)) = Node.consumedAmong key outputs := by
  simp [reached, Function.comp_def]

/-- A frame on its way to a node nearer to the sink, such as nodes of a deployment send. -/
structure Transit (net : Network) (sender : Address) (frame : Outgoing) : Prop where
  toward : frame.target.toNat < sender.toNat
  sender : (net.nodes.get? sender).isSome
  receiver : (net.nodes.get? frame.target).isSome
  fits : ∀ id, ∀ e ∈ Wire.entriesFor frame.payload id, (shapeOf id).Fits e

/-- No frame is on its way to its sender. -/
theorem Transit.apart {net : Network} {sender : Address} {frame : Outgoing}
    (h : net.Transit sender frame) : frame.target ≠ sender := by
  rintro same
  have toward := h.toward
  rw [same] at toward
  exact Nat.lt_irrefl _ toward

/-- Such a frame, which carries no reading if it is urgent. -/
structure Travels (net : Network) (sender : Address) (frame : Outgoing) : Prop
    extends Transit net sender frame where
  calm : Wire.flaggedUrgent frame.payload = true → carried (some frame) = []

/-- A deployment whose frames in `waiting` left the medium but are not settled yet. -/
structure Gathers (net : Network) (waiting : List (Address × Outgoing)) : Prop where
  nodes : ∀ a n, net.nodes.get? a = some n →
    n.Collects (Table.lookup a waiting) (net.medium.inFlight.get? a)
  lined : net.Lined
  waits : ∀ e ∈ waiting, net.Travels e.1 e.2
  flies : ∀ a frame, net.medium.inFlight.get? a = some frame → net.Travels a frame

/-- No reading is under way. -/
def Calm (net : Network) : Prop := ∀ a, carried (net.medium.inFlight.get? a) = []

variable {net net' : Network} {address : Address} {n : Node} {key : Collect.Key}
  {waiting : List (Address × Outgoing)}

private theorem stored_insert (key : Collect.Key) (present : net.nodes.get? address = some n)
    (n' : Node) (board : Board) (medium : Medium) :
    stored key { net with nodes := net.nodes.insert address n', board, medium } + n.stored key =
      net.stored key + n'.stored key :=
  Table.sum_values_insert (Node.stored key) present n'

/-- Where no collecting job holds anything, nothing is stored under any key. -/
theorem stored_eq_zero
    (empty : ∀ a n, net.nodes.get? a = some n → n.recordsFor Collect.jobId = []) :
    net.stored key = 0 := by
  apply Table.sum_values_eq_zero
  intro a n present
  rw [Node.stored, empty a n present]
  rfl

/-- A frame stays on its way whichever nodes are replaced. -/
theorem Transit.insert {sender : Address} {frame : Outgoing} (h : net.Transit sender frame)
    (address : Address) (n : Node) (board : Board) (medium : Medium) :
    Transit { net with nodes := net.nodes.insert address n, board, medium } sender frame where
  toward := h.toward
  sender := Table.isSome_get?_insert h.sender address n
  receiver := Table.isSome_get?_insert h.receiver address n
  fits := h.fits

/-- A frame goes on its way whichever nodes are replaced. -/
theorem Travels.insert {sender : Address} {frame : Outgoing} (h : net.Travels sender frame)
    (address : Address) (n : Node) (board : Board) (medium : Medium) :
    Travels { net with nodes := net.nodes.insert address n, board, medium } sender frame where
  toTransit := h.toTransit.insert address n board medium
  calm := h.calm

/-! ## Steps of one node -/

/-- A change at one node that leaves it where it stands. -/
theorem Gathers.update {waiting' : List (Address × Outgoing)} (h : net.Gathers waiting)
    (present : net.nodes.get? address = some n) {n' : Node} {medium : Medium}
    (gradient : n'.gradient = n.gradient)
    (collects : n'.Collects (Table.lookup address waiting') (medium.inFlight.get? address))
    (lookup : ∀ a, a ≠ address → Table.lookup a waiting' = Table.lookup a waiting)
    (flying : ∀ a, a ≠ address → medium.inFlight.get? a = net.medium.inFlight.get? a)
    (waits : ∀ e ∈ waiting', e ∈ waiting)
    (flies : ∀ frame, medium.inFlight.get? address = some frame → net.Travels address frame) :
    Gathers { net with nodes := net.nodes.insert address n', medium } waiting' where
  nodes := by
    apply Table.forall_get?_insert
    · exact collects
    · intro a m own found
      rw [lookup a own, flying a own]
      exact h.nodes a m found
  lined := h.lined.insert present n' gradient medium
  waits e he := (h.waits e (waits e he)).insert address n' net.board medium
  flies a frame found := by
    by_cases own : a = address
    · subst own
      exact (flies frame found).insert a n' net.board medium
    · rw [flying a own] at found
      exact (h.flies a frame found).insert address n' net.board medium

/-- A node that took something in, or nothing, is flushed while no frame of it waits. -/
theorem Gathers.flushed (h : net.Gathers waiting) (present : net.nodes.get? address = some n)
    (settled : Table.lookup address waiting = none) {m : Node} (gradient : m.gradient = n.gradient)
    (collects : m.Collects none (net.medium.inFlight.get? address)) (urgent : Bool) :
    let flushed := m.flush (net.medium.radio address) urgent
    let net' : Network := { net with
      nodes := net.nodes.insert address flushed.state
      medium := net.medium.carrying address (Node.takenFrame? flushed.outputs) }
    net'.Gathers waiting ∧ (urgent = true → net.Calm → net'.Calm) ∧
      ∀ key, net'.stored key + Node.consumedAmong key flushed.outputs + n.stored key =
        net.stored key + m.stored key := by
  intro flushed net'
  have step := Node.flushed_flush collects.distinct (net.medium.radio address) urgent
  obtain ⟨collects', conserved, sends⟩ := collects.flushed rfl step
  refine ⟨?_, ?_, ?_⟩
  · refine h.update present ?_ ?_ (fun _ _ ↦ rfl)
      (fun a own ↦ net.medium.get?_carrying_of_ne own _) (fun _ he ↦ he) ?_
    · exact (Node.flush_keeps collects.distinct (net.medium.radio address) urgent).1.trans gradient
    · rw [settled, Medium.get?_carrying]
      exact collects'
    · intro frame found
      rw [Medium.get?_carrying] at found
      cases taken : Node.takenFrame? flushed.outputs with
      | none =>
        rw [taken] at found
        exact h.flies address frame found
      | some sent =>
        rw [taken] at found
        obtain rfl : sent = frame := Option.some.inj found
        have sent' := sends sent taken
        obtain ⟨toward, receiver⟩ := h.lined.parent present (gradient ▸ sent'.route)
        refine ⟨⟨toward, by rw [present]; rfl, receiver, sent'.fits⟩, fun flagged ↦ ?_⟩
        exact sent'.calm (sent'.flagged.symm.trans flagged)
  · intro hurry calm a
    by_cases own : a = address
    · subst own
      rw [Medium.get?_carrying]
      cases taken : Node.takenFrame? flushed.outputs with
      | none => exact calm a
      | some sent => exact (sends sent taken).calm hurry
    · rw [Medium.get?_carrying_of_ne _ own]
      exact calm a
  · intro key
    have replaced : net'.stored key + n.stored key = net.stored key + flushed.state.stored key :=
      stored_insert key present flushed.state net.board _
    rw [add_right_comm, replaced, add_assoc, conserved key]

/-- A flush moves what is stored into frames and to the sink. -/
theorem Gathers.flush (h : net.Gathers []) (present : net.nodes.get? address = some n)
    (urgent : Bool) :
    let r := net.settleReaction address (n.flush (net.medium.radio address) urgent)
    r.state.Gathers [] ∧ (urgent = true → net.Calm → r.state.Calm) ∧
      ∀ key, r.state.stored key + reached key r.outputs = net.stored key := by
  intro r
  have here := h.nodes address n present
  obtain ⟨gathers, calm, balance⟩ := h.flushed present rfl rfl here urgent
  have state := settleReaction_of_flushed
    (Node.flushed_flush here.distinct (net.medium.radio address) urgent)
  rw [state]
  refine ⟨gathers, calm, fun key ↦ ?_⟩
  have outputs : reached key r.outputs =
      Node.consumedAmong key (n.flush (net.medium.radio address) urgent).outputs :=
    reached_map_pair key address _
  rw [outputs]
  exact add_right_cancel (balance key)

/-- A node takes in what weighs so much, and no frame of it comes or goes. -/
theorem Gathers.modify (h : net.Gathers waiting) (present : net.nodes.get? address = some n)
    {change : Node → Node} (gradient : (change n).gradient = n.gradient)
    (collects : (change n).Collects (Table.lookup address waiting)
      (net.medium.inFlight.get? address))
    {added : Collect.Key → Collect.Tally}
    (adds : ∀ key, (change n).stored key = n.stored key + added key) :
    (net.modifyNode address change).Gathers waiting ∧
      ∀ key, (net.modifyNode address change).stored key = net.stored key + added key := by
  rw [modifyNode, Table.modify_of_present present]
  refine ⟨?_, fun key ↦ ?_⟩
  · exact h.update present gradient collects (fun _ _ ↦ rfl) (fun _ _ ↦ rfl) (fun _ he ↦ he)
      (h.flies address)
  · have replaced := stored_insert key present (change n) net.board net.medium
    rw [adds key, add_left_comm, add_comm (n.stored key)] at replaced
    exact add_right_cancel replaced

/-- What arrives is added to what is stored, although its sender still holds it. -/
theorem Gathers.received {sender : Address} {frame : Outgoing}
    (h : net.Gathers ((sender, frame) :: waiting))
    (ascending : Table.Ascending ((sender, frame) :: waiting)) (calm : net.Calm) :
    let event : Address × Signal := (frame.target, .received sender frame.payload)
    (net.tell Node.onSignal event).Gathers ((sender, frame) :: waiting) ∧
      (net.tell Node.onSignal event).Calm ∧
      ∀ key, (net.tell Node.onSignal event).stored key +
        reached key (net.toldOutputs Node.onSignal event) =
          net.stored key + weighEntries (Collect.tallyUnder key) (carried (some frame)) := by
  intro event
  have travels : net.Travels sender frame := h.waits (sender, frame) List.mem_cons_self
  obtain ⟨n, present⟩ := Option.isSome_iff_exists.1 travels.receiver
  have settled : Table.lookup frame.target ((sender, frame) :: waiting) = none :=
    ascending.lookup_of_lt travels.toward
  have here := h.nodes frame.target n present
  rw [settled] at here
  obtain ⟨taken, added⟩ := here.takingIn (calm frame.target) travels.fits travels.calm
  obtain ⟨gathers, stays, balance⟩ :=
    h.flushed present settled (n.gradient_takingIn frame.payload) taken true
  rw [tell_received present here.opened here.distinct, toldOutputs_of_present present,
    Node.onSignal_received here.opened]
  refine ⟨gathers, stays rfl calm, fun key ↦ ?_⟩
  rw [reached_map_pair]
  have sum := balance key
  rw [added key, ← add_assoc, add_right_comm (net.stored key)] at sum
  exact add_right_cancel sum

/-- The first waiting frame is settled. -/
theorem Gathers.settled {sender : Address} {frame : Outgoing}
    (h : net.Gathers ((sender, frame) :: waiting))
    (ascending : Table.Ascending ((sender, frame) :: waiting))
    (present : net.nodes.get? sender = some n) {n' : Node} (gradient : n'.gradient = n.gradient)
    (collects : n'.Collects none (net.medium.inFlight.get? sender)) :
    Gathers { net with nodes := net.nodes.insert sender n' } waiting := by
  refine h.update present gradient ?_ ?_ (fun _ _ ↦ rfl) (fun e he ↦ List.mem_cons_of_mem _ he)
    (h.flies sender)
  · rw [ascending.lookup_tail]
    exact collects
  · exact fun a own ↦ (Table.lookup_cons_of_ne own frame waiting).symm

/-- What was delivered leaves its sender. -/
theorem Gathers.sent {sender : Address} {frame : Outgoing}
    (h : net.Gathers ((sender, frame) :: waiting))
    (ascending : Table.Ascending ((sender, frame) :: waiting)) (calm : net.Calm)
    (retries : Nat) :
    let event : Address × Signal := (sender, .sent frame.target retries)
    (net.tell Node.onSignal event).Gathers waiting ∧ (net.tell Node.onSignal event).Calm ∧
      net.toldOutputs Node.onSignal event = [] ∧
      ∀ key, (net.tell Node.onSignal event).stored key +
        weighEntries (Collect.tallyUnder key) (carried (some frame)) = net.stored key := by
  intro event
  have travels : net.Travels sender frame := h.waits (sender, frame) List.mem_cons_self
  obtain ⟨n, present⟩ := Option.isSome_iff_exists.1 travels.sender
  have here := h.nodes sender n present
  rw [Table.lookup_cons_self] at here
  obtain ⟨confirmed, removed⟩ := here.confirmed (calm sender)
  rw [tell_sent present here.opened, toldOutputs_of_present present,
    Node.onSignal_sent here.opened]
  refine ⟨h.settled ascending present rfl confirmed, calm, rfl, fun key ↦ ?_⟩
  have replaced := stored_insert key present n.confirmed net.board net.medium
  rw [← removed key, add_left_comm, add_comm (n.confirmed.stored key)] at replaced
  exact add_right_cancel replaced

/-- What was given up stays with its sender. -/
theorem Gathers.timedOut {sender : Address} {frame : Outgoing}
    (h : net.Gathers ((sender, frame) :: waiting))
    (ascending : Table.Ascending ((sender, frame) :: waiting)) (calm : net.Calm)
    (retries : Nat) :
    let event : Address × Signal := (sender, .timedOut frame.target retries)
    (net.tell Node.onSignal event).Gathers waiting ∧ (net.tell Node.onSignal event).Calm ∧
      net.toldOutputs Node.onSignal event = [] ∧
      ∀ key, (net.tell Node.onSignal event).stored key = net.stored key := by
  intro event
  have travels : net.Travels sender frame := h.waits (sender, frame) List.mem_cons_self
  obtain ⟨n, present⟩ := Option.isSome_iff_exists.1 travels.sender
  have here := h.nodes sender n present
  rw [Table.lookup_cons_self] at here
  obtain ⟨givenUp, kept⟩ := here.givenUp (calm sender)
  rw [tell_timedOut present here.opened, toldOutputs_of_present present,
    Node.onSignal_timedOut here.opened]
  refine ⟨h.settled ascending present rfl givenUp, calm, rfl, fun key ↦ ?_⟩
  have replaced := stored_insert key present n.givenUp net.board net.medium
  rw [kept key] at replaced
  exact add_right_cancel replaced

/-! ## Whole turns -/

/-- A turn of the network after which no reading is under way. What is stored afterwards and what
reached a sink meanwhile is what was stored before. -/
structure Gathered {α : Type} (net : Network) (r : Reaction α Network (Address × Output)) :
    Prop where
  gathers : r.state.Gathers []
  calm : r.state.Calm
  conserved : ∀ key, r.state.stored key + reached key r.outputs = net.stored key

private theorem Gathered.refl {α : Type} (h : net.Gathers []) (calm : net.Calm) (answer : α) :
    net.Gathered ⟨answer, net, []⟩ :=
  ⟨h, calm, fun _ ↦ add_zero _⟩

private theorem Gathered.trans {α β γ : Type} {first : Reaction α Network (Address × Output)}
    {last : Reaction β Network (Address × Output)} (h : net.Gathered first)
    (h' : first.state.Gathered last) (answer : γ) :
    net.Gathered ⟨answer, last.state, first.outputs ++ last.outputs⟩ := by
  refine ⟨h'.gathers, h'.calm, fun key ↦ ?_⟩
  rw [reached_append, ← h.conserved key, ← h'.conserved key]
  ac_rfl

/-- All signals of settled frames are told. An arrival is made up for by the confirmation that comes
right after it. -/
theorem Gathers.settles {signals : List (Address × Signal)} (settles : Settles waiting signals)
    (h : net.Gathers waiting) (ascending : Table.Ascending waiting) (calm : net.Calm) :
    net.Gathered (net.deliver Node.onSignal signals) := by
  induction settles generalizing net with
  | done => exact .refl h calm ()
  | @delivered sender frame rest signals retries more ih =>
    obtain ⟨h₁, calm₁, arrived⟩ := h.received ascending calm
    obtain ⟨h₂, calm₂, silent, left⟩ := h₁.sent ascending calm₁ retries
    have later := ih h₂ ascending.tail calm₂
    rw [deliver_cons, deliver_cons, silent]
    refine ⟨later.gathers, later.calm, fun key ↦ ?_⟩
    have balance := arrived key
    rw [← left key, ← later.conserved key] at balance
    rw [List.nil_append, reached_append]
    refine add_right_cancel (b := weighEntries (Collect.tallyUnder key) (carried (some frame))) ?_
    rw [← balance]
    ac_rfl
  | @givenUp sender frame rest signals retries more ih =>
    obtain ⟨h₁, calm₁, silent, kept⟩ := h.timedOut ascending calm retries
    have later := ih h₁ ascending.tail calm₁
    rw [deliver_cons, silent]
    refine ⟨later.gathers, later.calm, fun key ↦ ?_⟩
    rw [← kept key]
    exact later.conserved key

/-- What was under way is waiting once the medium has settled it. -/
theorem Gathers.settledMedium (h : net.Gathers []) :
    net.settledMedium.Gathers net.medium.inFlight.entries where
  nodes a n present := by
    have here := h.nodes a n present
    rw [get?_settledMedium]
    exact ⟨here.opened, here.jobs, here.books, here.routine,
      here.pending.trans (List.append_nil _).symm,
      fun sink ↦ (List.append_nil _).trans (here.sink sink)⟩
  lined := h.lined.congr (fun _ ↦ rfl) rfl
  waits e he := by
    have travels := h.flies e.1 e.2 (net.medium.inFlight.get?_of_mem he)
    exact ⟨⟨travels.toward, travels.sender, travels.receiver, travels.fits⟩, travels.calm⟩
  flies a frame found := by
    rw [get?_settledMedium] at found
    cases found

private theorem Gathers.pump (h : net.Gathers []) : net.Gathered net.pump := by
  have calm : net.settledMedium.Calm := by
    intro a
    rw [get?_settledMedium]
    rfl
  have told := h.settledMedium.settles net.medium.settles_pump net.medium.inFlight.ascending calm
  exact ⟨told.gathers, told.calm, told.conserved⟩

/-- However often the radio is settled, if only once, no reading is under way afterwards. -/
theorem Gathers.settle (h : net.Gathers []) (rounds : Nat) :
    net.Gathered (net.settle (rounds + 1)) := by
  induction rounds generalizing net with
  | zero =>
    have first := h.pump
    rw [Network.settle]
    split
    · exact ⟨first.gathers, first.calm, first.conserved⟩
    · exact first.trans (.refl first.gathers first.calm _) _
  | succ rounds ih =>
    have first := h.pump
    rw [Network.settle]
    split
    · exact ⟨first.gathers, first.calm, first.conserved⟩
    · exact first.trans (ih first.gathers) _

/-! ## Discovery -/

private theorem consumedAmong_onBeacon (n : Node) (beacon : Beacon) :
    Node.consumedAmong key (n.onBeacon beacon).outputs = 0 := by
  have announced (adopted : Bool) (hop : UInt8) :
      Node.consumedAmong key (if adopted = true then [Output.announce hop] else []) = 0 := by
    cases adopted
    · rfl
    · exact add_zero 0
  unfold Node.onBeacon
  split
  · rfl
  · split
    · exact announced _ _
    · rfl

private theorem Gathers.beacon (h : net.Gathers []) (calm : net.Calm)
    (present : net.nodes.get? address = some n) {beacon : Beacon}
    (heard : net.Heard address beacon) :
    let net' := net.tell (fun n _ beacon ↦ n.onBeacon beacon) (address, beacon)
    net'.Gathers [] ∧ net'.Calm ∧ ∀ key, net'.stored key = net.stored key := by
  intro net'
  have here := h.nodes address n present
  have lined := h.lined.heard present here.opened heard
  obtain ⟨gradient, cycles, board, isSink, after⟩ := tell_beacon present here.opened beacon
  rw [after] at lined
  simp only [net', after]
  refine ⟨⟨?_, lined, by simp, ?_⟩, calm, fun key ↦ ?_⟩
  · apply Table.forall_get?_insert
    · exact here.congr rfl rfl (here.books.congr rfl rfl) rfl isSink
    · exact fun a m _ found ↦ h.nodes a m found
  · exact fun a frame found ↦ (h.flies a frame found).insert address _ board net.medium
  · exact add_right_cancel (stored_insert key present _ board net.medium)

/-- A round of discovery carries no reading anywhere. -/
theorem Gathers.discover (h : net.Gathers []) (calm : net.Calm) :
    net.Gathered net.discover := by
  have told : (net.discover.state.Gathers [] ∧ net.discover.state.Calm) ∧
      ∀ key, net.discover.state.stored key + reached key net.discover.outputs =
        net.stored key := by
    refine discover_induction (P := fun net ↦ net.Gathers [] ∧ net.Calm)
      (T := fun net net' outputs ↦ ∀ key, net'.stored key + reached key outputs = net.stored key)
      (fun h ↦ h.1.lined) (fun h present ↦ (h.1.nodes _ _ present).opened)
      (fun _ _ ↦ add_zero _) ?_ ?_ ⟨h, calm⟩
    · intro net mid last outputs more first later key
      rw [reached_append, ← first key, ← later key]
      ac_rfl
    · intro net a n beacon h present heard
      obtain ⟨gathers, calm, kept⟩ := h.1.beacon h.2 present heard
      refine ⟨⟨gathers, calm⟩, fun key ↦ ?_⟩
      rw [reached_map_pair, consumedAmong_onBeacon, add_zero]
      exact kept key
  exact ⟨told.1.1, told.1.2, told.2⟩

end Network
end CollectionTree
