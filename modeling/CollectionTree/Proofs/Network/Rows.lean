import CollectionTree.Proofs.Network.Tracing

/-!
# Turns of the network and the account of a row

What a node holds, what frames bring and what the sink was given make up the account of a row:
`Follows`. A step of one node is a step of the account, and so is every turn of the network.
-/

namespace CollectionTree
namespace Network

/-- What the node at an address holds for the row of a key. -/
def heldAt (key : Collect.Key) (net : Network) (a : Address) : WithZero Collect.Tally :=
  ((net.nodes.get? a).map (Node.held key)).getD 0

/-- What the frame of an address among some brings to the row of a key. -/
def broughtBy (key : Collect.Key) (frames : List (Address × Outgoing)) (a : Address) :
    WithZero Collect.Tally :=
  brought key (Table.lookup a frames)

/-- What is under way from an address to the row of a key. -/
def flyingAt (key : Collect.Key) (net : Network) (a : Address) : WithZero Collect.Tally :=
  brought key (net.medium.inFlight.get? a)

/-- The account of the row of a key, with the frames that wait for their fate to be told, those of
them that have not arrived yet, and all that was wanted done so far. -/
def Traces (key : Collect.Key) (history : List (Address × Record)) (net : Network)
    (waiting owed : List (Address × Outgoing)) (past : List (Address × Output)) : Prop :=
  ∃ trail, Traced key history (net.heldAt key) (broughtBy key waiting) (broughtBy key owed)
    (net.flyingAt key) (delivered key (past.map Prod.snd)) trail

/-- A line of a deployment and the account of a row. -/
structure Follows (size : Nat) (key : Collect.Key) (history : List (Address × Record))
    (net : Network)
    (waiting : List (Address × Outgoing)) (past : List (Address × Output)) : Prop where
  fitted : net.Fitted size waiting
  traces : net.Traces key history waiting waiting past

variable {key : Collect.Key} {history : List (Address × Record)} {net : Network}
  {waiting owed : List (Address × Outgoing)} {past : List (Address × Output)}
  {address sender : Address} {n : Node} {frame : Outgoing} {size : Nat}

/-- What is held at an address is what the node there holds. -/
theorem heldAt_of_present (present : net.nodes.get? address = some n) :
    net.heldAt key address = n.held key := by
  rw [heldAt, present]
  rfl

private theorem heldAt_insert (key : Collect.Key) (net : Network) (address : Address) (n : Node)
    (board : Board) (medium : Medium) :
    heldAt key { net with nodes := net.nodes.insert address n, board, medium } =
      Function.update (net.heldAt key) address (n.held key) := by
  funext a
  by_cases own : a = address
  · subst own
    rw [Function.update_self]
    exact heldAt_of_present (Table.get?_insert_self ..)
  · rw [Function.update_of_ne own, heldAt, heldAt, Table.get?_insert_of_ne _ own]

/-- A node that changes nothing about what it holds. -/
theorem heldAt_insert_of_eq (present : net.nodes.get? address = some n) {n' : Node}
    (same : n'.held key = n.held key) (board : Board) (medium : Medium) :
    heldAt key { net with nodes := net.nodes.insert address n', board, medium } =
      net.heldAt key := by
  rw [heldAt_insert, same, ← heldAt_of_present present, Function.update_eq_self]

private theorem flyingAt_eq_zero (free : net.medium.inFlight.get? address = none) :
    net.flyingAt key address = 0 := by
  rw [flyingAt, free, brought_none]

private theorem broughtBy_self (key : Collect.Key) (sender : Address) (frame : Outgoing)
    (rest : List (Address × Outgoing)) :
    broughtBy key ((sender, frame) :: rest) sender = brought key (some frame) := by
  rw [broughtBy, Table.lookup_cons_self]

/-- Once the first frame is dealt with, its sender has none among the others. -/
theorem broughtBy_tail {rest : List (Address × Outgoing)}
    (ascending : Table.Ascending ((sender, frame) :: rest)) (key : Collect.Key) :
    broughtBy key rest = Function.update (broughtBy key ((sender, frame) :: rest)) sender 0 := by
  funext a
  by_cases own : a = sender
  · subst own
    rw [Function.update_self, broughtBy, ascending.lookup_tail, brought_none]
  · rw [Function.update_of_ne own, broughtBy, broughtBy, Table.lookup_cons_of_ne own]

private theorem delivered_past (key : Collect.Key) (past : List (Address × Output))
    (address : Address) (outputs : List Output) :
    delivered key ((past ++ outputs.map (address, ·)).map Prod.snd) =
      delivered key (past.map Prod.snd) + delivered key outputs := by
  simp [Function.comp_def]

/-! ## Steps of one node -/

/-- A node that took something in, or nothing, is flushed while no frame of it waits. -/
theorem Traces.flushed {m : Node} {urgent : Bool}
    (traces : ∃ trail, Traced key history (Function.update (net.heldAt key) address (m.held key))
      (broughtBy key waiting) (broughtBy key owed) (net.flyingAt key)
      (delivered key (past.map Prod.snd)) trail)
    (settled : Table.lookup address waiting = none) (paid : Table.lookup address owed = none)
    (near : m.gradient.parent ≠ none ∨ m.gradient.isSink = true → address.toNat < 255) :
    let flushed := m.flush (net.medium.radio address) urgent
    let net' : Network := { net with
      nodes := net.nodes.insert address flushed.state
      medium := net.medium.carrying address (Node.takenFrame? flushed.outputs) }
    Node.Hauls key m (net.medium.inFlight.get? address) flushed →
      net'.Traces key history waiting owed (past ++ flushed.outputs.map (address, ·)) := by
  intro flushed net' hauls
  obtain ⟨trail, traced⟩ := traces
  have settled : broughtBy key waiting address = 0 := by rw [broughtBy, settled, brought_none]
  have paid : broughtBy key owed address = 0 := by rw [broughtBy, paid, brought_none]
  have quiet (none : Node.takenFrame? flushed.outputs = none) :
      net'.flyingAt key = net.flyingAt key := by
    funext a
    simp only [flyingAt, net', none, Medium.carrying]
  unfold Traces
  rw [delivered_past, heldAt_insert]
  cases hauls with
  | stays held silent none =>
    rw [held, silent, add_zero, quiet none]
    exact ⟨trail, traced⟩
  | loads frame taken routed free held silent load =>
    have flying : net'.flyingAt key =
        Function.update (net.flyingAt key) address (brought key (some frame)) := by
      funext a
      by_cases own : a = address
      · subst own
        simp only [flyingAt, net', Medium.get?_carrying, taken, Option.some_or,
          Function.update_self]
      · rw [Function.update_of_ne own, flyingAt, flyingAt, Medium.get?_carrying_of_ne _ own]
    rw [held, silent, add_zero, flying]
    rcases load with nothing | all
    · rw [nothing, ← flyingAt_eq_zero free, Function.update_eq_self]
      exact ⟨trail, traced⟩
    · have loaded := traced.load (near (.inl routed)) settled paid (flyingAt_eq_zero free)
      rw [Function.update_self] at loaded
      rw [all]
      exact ⟨_, loaded⟩
  | consumes sink free none empty all =>
    have consumed := traced.consume (near (.inr sink)) settled (flyingAt_eq_zero free)
    rw [Function.update_self, Function.update_idem] at consumed
    rw [empty, all, quiet none]
    exact ⟨_, consumed⟩

/-- Only nodes that know their distance have a parent, or are the sink. -/
theorem Lined.near_of_standing (h : net.Lined) (present : net.nodes.get? address = some n)
    {m : Node} (gradient : m.gradient = n.gradient)
    (stands : m.gradient.parent ≠ none ∨ m.gradient.isSink = true) : address.toNat < 255 := by
  rw [gradient] at stands
  rcases stands with routed | sink
  · exact h.near present routed
  · rcases h.standing address n present with ⟨unrouted, -⟩ | ⟨-, near⟩
    · rw [unrouted] at sink
      cases sink
    · exact near

/-- A flush leaves the account of a row in order. -/
theorem Follows.flush (h : net.Follows size key history [] past)
    (present : net.nodes.get? address = some n) (urgent : Bool) :
    let r := net.settleReaction address (n.flush (net.medium.radio address) urgent)
    r.state.Follows size key history [] (past ++ r.outputs) := by
  intro r
  have here := h.fitted.accounted.nodes address n present
  have fitted := h.fitted.nodes address n present
  obtain ⟨trail, traced⟩ := h.traces
  refine ⟨(h.fitted.flush present urgent).fitted, ?_⟩
  have state : r.state = _ := settleReaction_of_flushed
    (Node.flushed_flush fitted.distinct (net.medium.radio address) urgent)
  rw [state]
  refine Traces.flushed (m := n) ⟨trail, ?_⟩ rfl rfl
    (h.fitted.lined.near_of_standing present rfl) (fitted.hauls here rfl urgent key)
  rwa [← heldAt_of_present present, Function.update_eq_self]

/-- A node changes by itself, but not in what it holds. -/
theorem Follows.nextFlushDelay (h : net.Follows size key history [] past)
    (present : net.nodes.get? address = some n) :
    Follows size key history
      { net with nodes := net.nodes.insert address n.nextFlushDelay.2 } [] past := by
  obtain ⟨trail, traced⟩ := h.traces
  have same : n.nextFlushDelay.2.held key = n.held key := rfl
  refine ⟨h.fitted.nextFlushDelay present, trail, ?_⟩
  rw [heldAt_insert_of_eq present same]
  exact traced

/-- The records that the collecting job of a node makes of a fact are added to what was sown. -/
theorem Follows.collect (h : net.Follows size key history [] past)
    (present : net.nodes.get? address = some n) (inner : n.gradient.isSink = false) (elapsed : Nat)
    (fact value : Bytes) :
    Follows size key (history ++ (n.collected elapsed fact value).map (address, ·))
      { net with
        nodes := net.nodes.insert address (n.sow Collect.jobId elapsed fact value).2 } [] past := by
  obtain ⟨trail, traced⟩ := h.traces
  refine ⟨h.fitted.sow present Collect.jobId elapsed fact value, ?_⟩
  have fitted := h.fitted.nodes address n present
  obtain ⟨readings, made, placed⟩ := fitted.collected_eq elapsed fact value
  unfold Traces
  rw [heldAt_insert]
  by_cases near : address.toNat < 255
  · have gets := n.gets_sow Collect.jobId elapsed fact value
    rw [show n.made Collect.jobId elapsed fact value = _ from made] at gets
    obtain ⟨taken, among, more⟩ := gets.held fitted (Collect.fits_map_record readings) key
    obtain ⟨some, sub, rfl⟩ := List.sublist_map_iff.1 among
    have behind := (h.fitted.lined.isSink_eq_false_iff present).1 inner
    have own : ∀ s ∈ some.map (Sowing.mk address), s.Own := by
      intro s hs
      obtain ⟨r, hr, rfl⟩ := List.mem_map.1 hs
      exact ⟨behind, near, placed r (sub.subset hr)⟩
    have entries : ((some.map (Sowing.mk address)).map Sowing.entry).Sublist
        ((n.collected elapsed fact value).map (address, ·)) := by
      rw [made, List.map_map, List.map_map]
      exact sub.map _
    have sown := traced.sow near entries own
    rw [heldAt_of_present present, List.map_map] at sown
    rw [more]
    exact ⟨_, sown⟩
  · refine ⟨trail, traced.unrelated _ fun a closer ↦ Function.update_of_ne ?_ _ _⟩
    rintro rfl
    exact near closer

/-- What another job makes of a fact is no reading. -/
theorem Follows.sow_of_ne (h : net.Follows size key history [] past)
    (present : net.nodes.get? address = some n) {id : UInt8} (other : Collect.jobId ≠ id)
    (elapsed : Nat) (fact value : Bytes) :
    Follows size key history { net with
      nodes := net.nodes.insert address (n.sow id elapsed fact value).2 } [] past := by
  obtain ⟨trail, traced⟩ := h.traces
  have same : (n.sow id elapsed fact value).2.held key = n.held key :=
    Node.held_congr (by rw [n.recordsFor_sow_of_ne other])
  refine ⟨h.fitted.sow present id elapsed fact value, trail, ?_⟩
  rw [heldAt_insert_of_eq present same]
  exact traced

/-! ## Settled frames -/

/-- What a waiting frame brought arrives or is refused, and is not owed any more. -/
theorem Follows.received (h : net.Follows size key history ((sender, frame) :: waiting) past)
    (ascending : Table.Ascending ((sender, frame) :: waiting)) :
    let event : Address × Signal := (frame.target, .received sender frame.payload)
    (net.tell Node.onSignal event).Traces key history ((sender, frame) :: waiting) waiting
      (past ++ net.toldOutputs Node.onSignal event) := by
  intro event
  obtain ⟨bears, free⟩ := h.fitted.waits sender frame (Table.lookup_cons_self ..)
  obtain ⟨n, present, settled⟩ := h.fitted.exists_receiver ascending
  have here := h.fitted.accounted.nodes frame.target n present
  have fitted := h.fitted.nodes frame.target n present
  have paid : Table.lookup frame.target waiting = none := by
    rwa [Table.lookup_cons_of_ne bears.apart] at settled
  have taken := here.takingIn frame.payload
  rw [settled] at taken
  have busy : (net.medium.radio frame.target).busy =
      (net.medium.inFlight.get? frame.target).isSome := rfl
  have hauls := (fitted.takingIn bears.fits).hauls taken busy true key
  rw [tell_received present here.opened fitted.distinct, toldOutputs_of_present present,
    Node.onSignal_received here.opened]
  obtain ⟨trail, traced⟩ := h.traces
  have idle : net.flyingAt key sender = 0 := flyingAt_eq_zero free
  have near := h.fitted.lined.near_of_standing present (n.gradient_takingIn frame.payload)
  refine Traces.flushed ?_ settled paid near hauls
  rw [broughtBy_tail ascending]
  rcases fitted.held_takingIn bears.fits (bears.nodup Collect.jobId) key with refused | arrived
  · rw [refused, ← heldAt_of_present present, Function.update_eq_self]
    exact ⟨_, traced.refuse idle⟩
  · rw [arrived, ← heldAt_of_present present, ← broughtBy_self key sender frame waiting]
    exact ⟨_, traced.arrive idle⟩

/-- A confirmation of what has arrived. -/
theorem Traces.sent
    (traces : net.Traces key history ((sender, frame) :: waiting) waiting past)
    (fitted : net.Fitted size ((sender, frame) :: waiting))
    (ascending : Table.Ascending ((sender, frame) :: waiting)) (retries : Nat) :
    let event : Address × Signal := (sender, .sent frame.target retries)
    (net.tell Node.onSignal event).Traces key history waiting waiting past := by
  intro event
  obtain ⟨-, free⟩ := fitted.waits sender frame (Table.lookup_cons_self ..)
  obtain ⟨n, present, opened, here⟩ := fitted.exists_sender
  obtain ⟨trail, traced⟩ := traces
  have idle : net.flyingAt key sender = 0 := flyingAt_eq_zero free
  rw [tell_sent present opened]
  unfold Traces
  rcases here.held_confirmed key with gone | ⟨same, nothing⟩
  · have confirmed := traced.confirm idle
    rw [← broughtBy_tail ascending] at confirmed
    rw [heldAt_insert, gone]
    exact ⟨_, confirmed⟩
  · have confirmed := traced.confirm_of_zero ((broughtBy_self ..).trans nothing)
    rw [← broughtBy_tail ascending] at confirmed
    rw [heldAt_insert_of_eq present same]
    exact ⟨_, confirmed⟩

private theorem Follows.timedOut
    (h : net.Follows size key history ((sender, frame) :: waiting) past)
    (ascending : Table.Ascending ((sender, frame) :: waiting)) (retries : Nat) :
    let event : Address × Signal := (sender, .timedOut frame.target retries)
    (net.tell Node.onSignal event).Follows size key history waiting
      (past ++ net.toldOutputs Node.onSignal event) := by
  intro event
  obtain ⟨fitted, silent⟩ := h.fitted.timedOut ascending retries
  obtain ⟨-, free⟩ := h.fitted.waits sender frame (Table.lookup_cons_self ..)
  obtain ⟨n, present, opened, -⟩ := h.fitted.exists_sender
  obtain ⟨trail, traced⟩ := h.traces
  have idle : net.flyingAt key sender = 0 := flyingAt_eq_zero free
  have kept := traced.giveUp idle rfl
  rw [← broughtBy_tail ascending] at kept
  refine ⟨fitted, ?_⟩
  rw [silent, List.append_nil, tell_timedOut present opened, Traces,
    heldAt_insert_of_eq present (n.held_givenUp key)]
  exact ⟨_, kept⟩

/-! ## Whole turns -/

/-- What was under way is waiting once the medium has settled it. -/
theorem Follows.settledMedium (h : net.Follows size key history [] past) :
    net.settledMedium.Follows size key history net.medium.inFlight.entries past := by
  obtain ⟨trail, traced⟩ := h.traces
  refine ⟨h.fitted.settledMedium, trail, ?_⟩
  have none : net.settledMedium.flyingAt key = fun _ ↦ 0 := by
    funext a
    exact flyingAt_eq_zero (net.get?_settledMedium a)
  rw [none]
  exact traced.settle

private theorem Follows.pump (h : net.Follows size key history [] past) :
    net.pump.state.Follows size key history [] (past ++ net.pump.outputs) :=
  settles_induction (P := Follows size key history)
    (fun h ascending retries ↦ by
      obtain ⟨arrived, -⟩ := h.fitted.received ascending
      obtain ⟨settled, silent⟩ := arrived.sent ascending retries
      have traces := (h.received ascending).sent arrived ascending retries
      refine ⟨settled, ?_⟩
      rw [silent, List.append_nil]
      exact traces)
    (fun h ascending retries ↦ h.timedOut ascending retries)
    net.medium.settles_pump h.settledMedium net.medium.inFlight.ascending

/-- Settling leaves the account of a row in order. -/
theorem Follows.settle (h : net.Follows size key history [] past) (rounds : Nat) :
    (net.settle rounds).state.Follows size key history []
      (past ++ (net.settle rounds).outputs) := by
  induction rounds generalizing net past with
  | zero =>
    rw [show (net.settle 0).outputs = [] from rfl, List.append_nil]
    exact h
  | succ rounds ih =>
    have first := h.pump
    rw [Network.settle]
    split
    · exact first
    · have later := ih first
      rwa [List.append_assoc] at later

/-- Beacons have nothing to do with readings. -/
theorem delivered_onBeacon (key : Collect.Key) (n : Node) (beacon : Beacon) :
    delivered key (n.onBeacon beacon).outputs = 0 := by
  unfold Node.onBeacon
  split
  · rfl
  · split
    · simp only
      split <;> rfl
    · rfl

/-- A round of discovery leaves the account of a row in order. -/
theorem Follows.discover (h : net.Follows size key history [] past) :
    net.discover.state.Follows size key history [] (past ++ net.discover.outputs) := by
  obtain ⟨trail, traced⟩ := h.traces
  obtain ⟨⟨fitted, held, flying⟩, silent⟩ := discover_induction
    (P := fun mid ↦ mid.Fitted size [] ∧ mid.heldAt key = net.heldAt key ∧
      mid.flyingAt key = net.flyingAt key)
    (T := fun _ _ outputs ↦ delivered key (outputs.map Prod.snd) = 0) (fun h ↦ h.1.lined)
    (fun h present ↦ (h.1.accounted.nodes _ _ present).opened) (fun _ ↦ rfl)
    (fun first second ↦ by rw [List.map_append, delivered_append, first, second, add_zero])
    (fun {mid address n beacon} h present heard ↦ by
      obtain ⟨fitted, held, flying⟩ := h
      have after := fitted.beacon present heard
      obtain ⟨gradient, cycles, board, -, told⟩ :=
        tell_beacon present (fitted.accounted.nodes address n present).opened beacon
      rw [told] at after ⊢
      refine ⟨⟨after, ?_, flying⟩, ?_⟩
      · rw [heldAt_insert_of_eq present (by rfl)]
        exact held
      · simpa [Function.comp_def] using delivered_onBeacon key n beacon)
    ⟨h.fitted, rfl, rfl⟩
  refine ⟨fitted, trail, ?_⟩
  rw [held, flying, List.map_append, delivered_append, silent, add_zero]
  exact traced

end Network
end CollectionTree
