import CollectionTree.Proofs.Network.Completion
import CollectionTree.Proofs.Network.Gathering
import CollectionTree.Proofs.Node.Fitting

/-!
# Lines whose nodes may run out of memory

`Network.Fitted` holds of every line of a deployment, also where ledgers refuse records: what is
stored and what is under way has the lengths of its job, the records on their way are those of the
frame under way, and only nodes near enough to know their distance send. Every turn of the network
keeps it.
-/

namespace CollectionTree

/-- The position that the readings of a node are about: the low byte of its address. -/
def Address.position (address : Address) : UInt8 := (address.toNat % 256).toUInt8

/-- Below 256 the position of a node is its address. -/
theorem Address.toNat_position {address : Address} (near : address.toNat < 256) :
    address.position.toNat = address.toNat := by
  rw [position, Nat.mod_eq_of_lt near, Nat.toUInt8, UInt8.toNat_ofNat', Nat.mod_eq_of_lt near]

namespace Network

/-- A frame on its way toward the sink from a node that knows its distance, with no key twice. -/
structure Bears (net : Network) (origin : Address) (frame : Outgoing) : Prop
    extends Transit net origin frame where
  near : origin.toNat < 255
  nodup : ∀ id, (carriedKeys (some frame) id).Nodup

/-- A line whose frames have at most `size` bytes, and of which the frames in `waiting` left the
medium but are not settled yet. Nothing is under way from their senders. -/
structure Fitted (size : Nat) (net : Network) (waiting : List (Address × Outgoing)) : Prop where
  accounted : net.Accounted waiting
  lined : net.Lined
  nodes : ∀ a n, net.nodes.get? a = some n → n.Fitted size a.position
  waits : ∀ a frame, Table.lookup a waiting = some frame →
    net.Bears a frame ∧ net.medium.inFlight.get? a = none
  flies : ∀ a frame, net.medium.inFlight.get? a = some frame → net.Bears a frame

/-- Frames are offered only by nodes that may know their distance. -/
def Near (outputs : List (Address × Output)) : Prop :=
  ∀ a frame accepted, (a, Output.offer frame accepted) ∈ outputs → a.toNat < 255

/-- A turn after which the line is as it should be. -/
structure Fits {α : Type} (size : Nat) (r : Reaction α Network (Address × Output)) : Prop where
  fitted : r.state.Fitted size []
  near : Near r.outputs

variable {net : Network} {address sender : Address} {n : Node} {frame : Outgoing}
  {waiting : List (Address × Outgoing)} {size : Nat}

/-- Nothing is offered where there are no outputs. -/
theorem near_nil : Near [] := fun _ _ _ mem ↦ nomatch mem

/-- Two lots of outputs from near nodes are one. -/
theorem Near.append {outputs more : List (Address × Output)} (h : Near outputs) (h' : Near more) :
    Near (outputs ++ more) :=
  fun a frame accepted mem ↦ (List.mem_append.1 mem).elim (h a frame accepted) (h' a frame accepted)

/-- A node with a parent knows its distance. -/
theorem Lined.near (h : net.Lined) (present : net.nodes.get? address = some n)
    (routed : n.gradient.parent ≠ none) : address.toNat < 255 := by
  rcases h.standing address n present with ⟨unrouted, -⟩ | ⟨-, near⟩
  · rw [unrouted] at routed
    exact absurd rfl routed
  · exact near

/-- What a node wants done in a flush, which stands where a node of the line does. -/
theorem Lined.near_flush (h : net.Lined) (present : net.nodes.get? address = some n) {m : Node}
    (gradient : m.gradient = n.gradient) (radio : Radio) (urgent : Bool) :
    Near ((m.flush radio urgent).outputs.map (address, ·)) := by
  intro a frame accepted mem
  obtain ⟨output, offered, same⟩ := List.mem_map.1 mem
  obtain ⟨rfl, rfl⟩ := Prod.mk.inj same
  exact h.near present (gradient ▸ Node.parent_of_offer offered)

private theorem Bears.insert (h : net.Bears sender frame) (address : Address) (n : Node)
    (board : Board) (medium : Medium) :
    Bears { net with nodes := net.nodes.insert address n, board, medium } sender frame where
  toTransit := h.toTransit.insert address n board medium
  near := h.near
  nodup := h.nodup

/-! ## Steps of one node -/

/-- A change at one node that leaves it where it stands, with no frame of it waiting afterwards. -/
theorem Fitted.update {waiting' : List (Address × Outgoing)} (h : net.Fitted size waiting)
    (present : net.nodes.get? address = some n) {n' : Node} {medium : Medium}
    (gradient : n'.gradient = n.gradient) (fitted : n'.Fitted size address.position)
    (accounted : Accounted { net with nodes := net.nodes.insert address n', medium } waiting')
    (settled : Table.lookup address waiting' = none)
    (lookup : ∀ a, a ≠ address → Table.lookup a waiting' = Table.lookup a waiting)
    (flying : ∀ a, a ≠ address → medium.inFlight.get? a = net.medium.inFlight.get? a)
    (flies : ∀ frame, medium.inFlight.get? address = some frame → net.Bears address frame) :
    Fitted size { net with nodes := net.nodes.insert address n', medium } waiting' where
  accounted := accounted
  lined := h.lined.insert present n' gradient medium
  nodes := by
    apply Table.forall_get?_insert
    · exact fitted
    · exact fun a m _ found ↦ h.nodes a m found
  waits a frame found := by
    have other : a ≠ address := by
      rintro rfl
      rw [settled] at found
      cases found
    rw [lookup a other] at found
    obtain ⟨bears, free⟩ := h.waits a frame found
    exact ⟨bears.insert address n' net.board medium, (flying a other).trans free⟩
  flies a frame found := by
    by_cases own : a = address
    · subst own
      exact (flies frame found).insert a n' net.board medium
    · rw [flying a own] at found
      exact (h.flies a frame found).insert address n' net.board medium

/-- A node that took something in, or nothing, is flushed while no frame of it waits. -/
theorem Fitted.flushed (h : net.Fitted size waiting) (present : net.nodes.get? address = some n)
    (settled : Table.lookup address waiting = none) {m : Node} (gradient : m.gradient = n.gradient)
    (fitted : m.Fitted size address.position)
    (nodup : ∀ id, ((m.recordsFor id).map Record.key).Nodup) (urgent : Bool) :
    let flushed := m.flush (net.medium.radio address) urgent
    let net' : Network := { net with
      nodes := net.nodes.insert address flushed.state
      medium := net.medium.carrying address (Node.takenFrame? flushed.outputs) }
    net'.Accounted waiting → net'.Fitted size waiting := by
  intro flushed net' accounted
  have stands : flushed.state.gradient = n.gradient :=
    (Node.flush_keeps fitted.distinct (net.medium.radio address) urgent).1.trans gradient
  refine h.update present stands (fitted.flush _ urgent) accounted settled (fun _ _ ↦ rfl)
    (fun a own ↦ net.medium.get?_carrying_of_ne own _) fun frame found ↦ ?_
  rw [Medium.get?_carrying] at found
  cases taken : Node.takenFrame? flushed.outputs with
  | none =>
    rw [taken] at found
    exact h.flies address frame found
  | some sent =>
    rw [taken] at found
    obtain rfl : sent = frame := Option.some.inj found
    obtain ⟨route, fits, once⟩ := fitted.sends nodup taken
    rw [gradient] at route
    obtain ⟨toward, receiver⟩ := h.lined.parent present route
    exact ⟨⟨toward, by rw [present]; rfl, receiver, fits⟩,
      h.lined.near present (by rw [route]; exact Option.some_ne_none _), once⟩

/-- A flush leaves the line fitted. -/
theorem Fitted.flush (h : net.Fitted size []) (present : net.nodes.get? address = some n)
    (urgent : Bool) :
    Fits size (net.settleReaction address (n.flush (net.medium.radio address) urgent)) := by
  have here := h.accounted.nodes address n present
  have fitted := h.nodes address n present
  have accounted := h.accounted.flush address urgent
  rw [acted_flush present fitted.distinct] at accounted
  have state := settleReaction_of_flushed
    (Node.flushed_flush fitted.distinct (net.medium.radio address) urgent)
  have after := h.flushed present rfl rfl fitted here.nodup urgent accounted
  exact ⟨state ▸ after, h.lined.near_flush present rfl _ urgent⟩

/-- A node changes by itself, and no frame of it comes or goes. -/
theorem Fitted.modify (h : net.Fitted size []) (present : net.nodes.get? address = some n)
    {n' : Node} (gradient : n'.gradient = n.gradient) (fitted : n'.Fitted size address.position)
    (accounted : Accounted { net with nodes := net.nodes.insert address n' } []) :
    Fitted size { net with nodes := net.nodes.insert address n' } [] :=
  h.update present gradient fitted accounted rfl (fun _ _ ↦ rfl) (fun _ _ ↦ rfl) (h.flies address)

/-- A fact leaves the line fitted. -/
theorem Fitted.sow (h : net.Fitted size []) (present : net.nodes.get? address = some n) (id : UInt8)
    (elapsed : Nat) (fact value : Bytes) :
    Fitted size { net with
      nodes := net.nodes.insert address (n.sow id elapsed fact value).2 } [] := by
  have accounted := h.accounted.sow address id elapsed fact value
  rw [modifyNode, Table.modify_of_present present] at accounted
  exact h.modify present (n.sow_keeps id elapsed fact value).1
    ((h.nodes address n present).sow id elapsed fact value) accounted

/-- Drawing the next delay leaves the line fitted. -/
theorem Fitted.nextFlushDelay (h : net.Fitted size []) (present : net.nodes.get? address = some n) :
    Fitted size { net with nodes := net.nodes.insert address n.nextFlushDelay.2 } [] := by
  have here : n.nextFlushDelay.2.Accounted none (net.medium.inFlight.get? address) :=
    (h.accounted.nodes address n present).congr rfl rfl rfl
  exact h.modify present rfl ((h.nodes address n present).congr rfl rfl rfl)
    (h.accounted.insert present n.nextFlushDelay.2 none here net.board)

/-! ## Settled frames -/

/-- The receiver of a waiting frame is one of the nodes, and no frame of it waits any more. -/
theorem Fitted.exists_receiver (h : net.Fitted size ((sender, frame) :: waiting))
    (ascending : Table.Ascending ((sender, frame) :: waiting)) :
    ∃ n, net.nodes.get? frame.target = some n ∧
      Table.lookup frame.target ((sender, frame) :: waiting) = none := by
  obtain ⟨bears, -⟩ := h.waits sender frame (Table.lookup_cons_self ..)
  obtain ⟨n, present⟩ := Option.isSome_iff_exists.1 bears.receiver
  exact ⟨n, present, ascending.lookup_of_lt bears.toward⟩

/-- The receiver of a waiting frame takes it in, and the line stays fitted. What it sends on comes
from near enough. -/
theorem Fitted.received (h : net.Fitted size ((sender, frame) :: waiting))
    (ascending : Table.Ascending ((sender, frame) :: waiting)) :
    let event : Address × Signal := (frame.target, .received sender frame.payload)
    (net.tell Node.onSignal event).Fitted size ((sender, frame) :: waiting) ∧
      Near (net.toldOutputs Node.onSignal event) := by
  intro event
  obtain ⟨bears, -⟩ := h.waits sender frame (Table.lookup_cons_self ..)
  obtain ⟨n, present, settled⟩ := h.exists_receiver ascending
  have here := h.accounted.nodes frame.target n present
  have fitted := h.nodes frame.target n present
  have accounted := h.accounted.received frame.target sender frame.payload
  rw [tell_received present here.opened fitted.distinct] at accounted ⊢
  rw [toldOutputs_of_present present, Node.onSignal_received here.opened]
  exact ⟨h.flushed present settled (n.gradient_takingIn frame.payload)
    (fitted.takingIn bears.fits) (here.takingIn frame.payload).nodup true accounted,
    h.lined.near_flush present (n.gradient_takingIn frame.payload) _ true⟩

/-- The first waiting frame is settled. -/
theorem Fitted.settled (h : net.Fitted size ((sender, frame) :: waiting))
    (ascending : Table.Ascending ((sender, frame) :: waiting))
    (present : net.nodes.get? sender = some n) {n' : Node} (settled : n.SettledAs n')
    (gradient : n'.gradient = n.gradient) (fitted : n'.Fitted size sender.position) :
    Fitted size { net with nodes := net.nodes.insert sender n' } waiting := by
  obtain ⟨-, free⟩ := h.waits sender frame (Table.lookup_cons_self ..)
  refine h.update present gradient fitted (h.accounted.settled ascending present free settled)
    ascending.lookup_tail ?_ (fun _ _ ↦ rfl) (h.flies sender)
  exact fun a own ↦ (Table.lookup_cons_of_ne own frame waiting).symm

/-- The sender of a waiting frame is one of the nodes, and open. -/
theorem Fitted.exists_sender (h : net.Fitted size ((sender, frame) :: waiting)) :
    ∃ n, net.nodes.get? sender = some n ∧ n.closed = false ∧
      n.Accounted (some frame) none := by
  obtain ⟨bears, free⟩ := h.waits sender frame (Table.lookup_cons_self ..)
  obtain ⟨n, present⟩ := Option.isSome_iff_exists.1 bears.sender
  have here := h.accounted.nodes sender n present
  rw [Table.lookup_cons_self, free] at here
  exact ⟨n, present, here.opened, here⟩

/-- A sender that is told of its frame's arrival leaves the line fitted, and wants nothing done. -/
theorem Fitted.sent (h : net.Fitted size ((sender, frame) :: waiting))
    (ascending : Table.Ascending ((sender, frame) :: waiting)) (retries : Nat) :
    let event : Address × Signal := (sender, .sent frame.target retries)
    (net.tell Node.onSignal event).Fitted size waiting ∧
      net.toldOutputs Node.onSignal event = [] := by
  intro event
  obtain ⟨n, present, opened, -⟩ := h.exists_sender
  rw [tell_sent present opened, toldOutputs_of_present present, Node.onSignal_sent opened]
  exact ⟨h.settled ascending present (.inl rfl) rfl (h.nodes sender n present).confirmed, rfl⟩

/-- A sender that is told of its frame's loss leaves the line fitted, and wants nothing done. -/
theorem Fitted.timedOut (h : net.Fitted size ((sender, frame) :: waiting))
    (ascending : Table.Ascending ((sender, frame) :: waiting)) (retries : Nat) :
    let event : Address × Signal := (sender, .timedOut frame.target retries)
    (net.tell Node.onSignal event).Fitted size waiting ∧
      net.toldOutputs Node.onSignal event = [] := by
  intro event
  obtain ⟨n, present, opened, -⟩ := h.exists_sender
  rw [tell_timedOut present opened, toldOutputs_of_present present, Node.onSignal_timedOut opened]
  exact ⟨h.settled ascending present (.inr rfl) rfl (h.nodes sender n present).givenUp, rfl⟩

/-! ## Whole turns -/

/-- What is kept by every way in which a frame is settled, together with all that was wanted done so
far, is kept by all the signals of settled frames. -/
theorem settles_induction
    {P : Network → List (Address × Outgoing) → List (Address × Output) → Prop}
    (delivered : ∀ {net sender frame rest past}, P net ((sender, frame) :: rest) past →
      Table.Ascending ((sender, frame) :: rest) → ∀ retries,
        let arrival : Address × Signal := (frame.target, .received sender frame.payload)
        let confirmation : Address × Signal := (sender, .sent frame.target retries)
        let arrived := net.tell Node.onSignal arrival
        P (arrived.tell Node.onSignal confirmation) rest (past ++
          (net.toldOutputs Node.onSignal arrival ++
            arrived.toldOutputs Node.onSignal confirmation)))
    (givenUp : ∀ {net sender frame rest past}, P net ((sender, frame) :: rest) past →
      Table.Ascending ((sender, frame) :: rest) → ∀ retries,
        let failure : Address × Signal := (sender, .timedOut frame.target retries)
        P (net.tell Node.onSignal failure) rest (past ++ net.toldOutputs Node.onSignal failure))
    {signals : List (Address × Signal)} (settles : Settles waiting signals)
    {past : List (Address × Output)} (h : P net waiting past)
    (ascending : Table.Ascending waiting) :
    P (net.deliver Node.onSignal signals).state []
      (past ++ (net.deliver Node.onSignal signals).outputs) := by
  induction settles generalizing net past with
  | done =>
    rw [show (net.deliver Node.onSignal []).outputs = [] from rfl, List.append_nil]
    exact h
  | @delivered sender frame rest signals retries more ih =>
    have later := ih (delivered h ascending retries) ascending.tail
    rw [deliver_cons, deliver_cons]
    simpa only [List.append_assoc] using later
  | @givenUp sender frame rest signals retries more ih =>
    have later := ih (givenUp h ascending retries) ascending.tail
    rw [deliver_cons]
    simpa only [List.append_assoc] using later

/-- What was under way is waiting once the medium has settled it. -/
theorem Fitted.settledMedium (h : net.Fitted size []) :
    net.settledMedium.Fitted size net.medium.inFlight.entries where
  accounted := h.accounted.settledMedium
  lined := h.lined.congr (fun _ ↦ rfl) rfl
  nodes := h.nodes
  waits a frame found := by
    have bears := h.flies a frame found
    exact ⟨⟨⟨bears.toward, bears.sender, bears.receiver, bears.fits⟩, bears.near, bears.nodup⟩,
      get?_settledMedium net a⟩
  flies a frame found := by
    rw [get?_settledMedium] at found
    cases found

private theorem Fitted.pump (h : net.Fitted size []) : Fits size net.pump := by
  obtain ⟨fitted, near⟩ := settles_induction
    (P := fun net waiting past ↦ net.Fitted size waiting ∧ Near past)
    (fun ⟨h, near⟩ ascending retries ↦ by
      obtain ⟨arrived, offered⟩ := h.received ascending
      obtain ⟨settled, silent⟩ := arrived.sent ascending retries
      exact ⟨settled, near.append (offered.append (silent ▸ near_nil))⟩)
    (fun ⟨h, near⟩ ascending retries ↦ by
      obtain ⟨settled, silent⟩ := h.timedOut ascending retries
      exact ⟨settled, near.append (silent ▸ near_nil)⟩)
    net.medium.settles_pump ⟨h.settledMedium, near_nil⟩ net.medium.inFlight.ascending
  exact ⟨fitted, near⟩

/-- Settling leaves the line fitted. -/
theorem Fitted.settle (h : net.Fitted size []) (rounds : Nat) : Fits size (net.settle rounds) := by
  induction rounds generalizing net with
  | zero => exact ⟨h, near_nil⟩
  | succ rounds ih =>
    have first := h.pump
    rw [Network.settle]
    split
    · exact ⟨first.fitted, first.near⟩
    · have later := ih first.fitted
      exact ⟨later.fitted, first.near.append later.near⟩

/-- Beacons make no node send. -/
theorem near_onBeacon (address : Address) (n : Node) (beacon : Beacon) :
    Near ((n.onBeacon beacon).outputs.map (address, ·)) := by
  intro a frame accepted mem
  obtain ⟨output, offered, same⟩ := List.mem_map.1 mem
  obtain ⟨rfl, rfl⟩ := Prod.mk.inj same
  unfold Node.onBeacon at offered
  split at offered
  · cases offered
  · split at offered
    · simp only at offered
      split at offered <;> simp at offered
    · cases offered

/-- A beacon leaves the line fitted. -/
theorem Fitted.beacon (h : net.Fitted size []) (present : net.nodes.get? address = some n)
    {beacon : Beacon} (heard : net.Heard address beacon) :
    (net.tell (fun n _ beacon ↦ n.onBeacon beacon) (address, beacon)).Fitted size [] := by
  have opened := (h.accounted.nodes address n present).opened
  have accounted := h.accounted.beacon (address, beacon)
  have lined := h.lined.heard present opened heard
  obtain ⟨gradient, cycles, board, isSink, after⟩ := tell_beacon present opened beacon
  rw [after] at lined accounted ⊢
  refine ⟨accounted, lined, ?_, (fun _ _ found ↦ nomatch found), ?_⟩
  · apply Table.forall_get?_insert
    · exact (h.nodes address n present).congr rfl rfl rfl
    · exact fun a m _ found ↦ h.nodes a m found
  · exact fun a frame found ↦ (h.flies a frame found).insert address _ board net.medium

/-- A round of discovery leaves the line fitted. -/
theorem Fitted.discover (h : net.Fitted size []) : Fits size net.discover := by
  obtain ⟨fitted, near⟩ := discover_induction (P := fun net ↦ net.Fitted size [])
    (T := fun _ _ outputs ↦ Near outputs) (fun h ↦ h.lined)
    (fun h present ↦ (h.accounted.nodes _ _ present).opened) (fun _ ↦ near_nil) .append
    (fun h present heard ↦ ⟨h.beacon present heard, near_onBeacon _ _ _⟩) h
  exact ⟨fitted, near⟩

end Network
end CollectionTree
