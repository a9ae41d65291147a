import CollectionTree.Proofs.Network.Gathering
import CollectionTree.Proofs.Network.Locality
import CollectionTree.Proofs.Node.Forwarding
import CollectionTree.Proofs.Radio.Lossless

/-!
# Forwarding along a line without losses

Where nothing is lost, every frame of a pump arrives and is confirmed, in the order of the senders.
By the time a node hears from the node behind it, its own frame was confirmed already, so that it
has nothing on its way: `Forwards.exists_passing`. What every such passing keeps, a pump keeps:
`Forwards.pump_induction`.
-/

namespace CollectionTree
namespace Network

/-- Not an empty frame, on its way to the next node toward the sink. -/
structure Hops (net : Network) (origin : Address) (frame : Outgoing) : Prop
    extends Travels net origin frame where
  next : frame.target.toNat + 1 = origin.toNat
  loaded : ∃ id, carriedKeys (some frame) id ≠ []

/-- A line without losses, whose frames have at most `size` bytes, and of which the frames in
`waiting` left the medium but are not settled yet. Whoever has a frame under way is nearer to the
sink than the receivers of all these. -/
structure Forwards (size : Nat) (net : Network) (waiting : List (Address × Outgoing)) : Prop where
  nodes : ∀ a n, net.nodes.get? a = some n →
    n.Forwards size ((Table.lookup a waiting).or (net.medium.inFlight.get? a))
  lined : net.Lined
  lossless : net.medium.loss = .never
  attached : ∀ a n, net.nodes.get? a = some n → net.medium.opened.contains a = true
  emptied : ∀ a n, net.nodes.get? a = some n → n.gradient.isSink = true → n.contents = []
  waits : ∀ e ∈ waiting, net.Hops e.1 e.2
  flies : ∀ a frame, net.medium.inFlight.get? a = some frame → net.Hops a frame
  behind : ∀ a frame, net.medium.inFlight.get? a = some frame →
    ∀ e ∈ waiting, a.toNat + 1 < e.1.toNat

variable {net : Network} {address sender : Address} {n m : Node} {frame : Outgoing}
  {waiting : List (Address × Outgoing)} {size : Nat}

/-- On a line the parent is the node right before. -/
theorem Lined.parent_next (h : net.Lined) (present : net.nodes.get? address = some n)
    {parent : Address} (route : n.gradient.parent = some parent) :
    parent.toNat + 1 = address.toNat := by
  have before := (h.parent present route).1
  rcases h.standing address n present with ⟨unrouted, -⟩ | ⟨standing, -⟩
  · rw [unrouted] at route
    cases route
  · rw [standing, lineGradient] at route
    split at route
    · cases route
    · obtain rfl := Option.some.inj route
      have own := address.toNat_lt
      rw [Address.toNat_ofNat (by omega)]
      omega

private theorem Hops.insert (h : net.Hops sender frame) (address : Address) (n : Node)
    (board : Board) (medium : Medium) :
    Hops { net with nodes := net.nodes.insert address n, board, medium } sender frame where
  toTravels := h.toTravels.insert address n board medium
  next := h.next
  loaded := h.loaded

/-- Whoever waits behind a sender is no neighbour of the receiver. -/
theorem Hops.nearer (h : net.Hops sender frame)
    (ascending : Table.Ascending ((sender, frame) :: waiting)) :
    ∀ e ∈ waiting, frame.target.toNat + 1 < e.1.toNat := by
  have next := h.next
  intro e he
  have behind : sender.toNat < e.1.toNat := (List.pairwise_cons.1 ascending).1 e he
  omega

/-- No frame of the receiver waits any more. -/
theorem Hops.settled (h : net.Hops sender frame)
    (ascending : Table.Ascending ((sender, frame) :: waiting)) :
    Table.lookup frame.target waiting = none :=
  (Table.lookup_cons_of_ne h.apart frame waiting).symm.trans (ascending.lookup_of_lt h.toward)

/-! ## One node -/

/-- A change at one node that leaves it where it stands; at most a frame of it is settled, and at
most one comes under way. -/
theorem Forwards.update {waiting' : List (Address × Outgoing)} (h : net.Forwards size waiting)
    (present : net.nodes.get? address = some n) {n' : Node} {sent : Option Outgoing}
    (gradient : n'.gradient = n.gradient)
    (forwards : n'.Forwards size
      ((Table.lookup address waiting').or (sent.or (net.medium.inFlight.get? address))))
    (emptied : n.gradient.isSink = true → n'.contents = [])
    (lookup : ∀ a, a ≠ address → Table.lookup a waiting' = Table.lookup a waiting)
    (waits : ∀ e ∈ waiting', e ∈ waiting)
    (sends : ∀ f, sent = some f → net.Hops address f ∧
      ∀ e ∈ waiting', address.toNat + 1 < e.1.toNat) :
    Forwards size { net with
      nodes := net.nodes.insert address n'
      medium := net.medium.carrying address sent } waiting' where
  nodes := by
    apply Table.forall_get?_insert
    · rw [Medium.get?_carrying]
      exact forwards
    · intro a m own found
      rw [lookup a own, Medium.get?_carrying_of_ne _ own]
      exact h.nodes a m found
  lined := h.lined.insert present n' gradient _
  lossless := by rw [Medium.loss_carrying, h.lossless]
  attached := by
    rw [Medium.opened_carrying]
    apply Table.forall_get?_insert
    · exact h.attached address n present
    · exact fun a m _ found ↦ h.attached a m found
  emptied := by
    apply Table.forall_get?_insert
    · rwa [gradient]
    · exact fun a m _ found ↦ h.emptied a m found
  waits e he := (h.waits e (waits e he)).insert address n' net.board _
  flies a f found := by
    by_cases own : a = address
    · subst own
      rw [Medium.get?_carrying] at found
      cases sent with
      | none => exact (h.flies a f found).insert a n' net.board _
      | some frame =>
        obtain rfl := Option.some.inj found
        exact (sends frame rfl).1.insert a n' net.board _
    · rw [Medium.get?_carrying_of_ne _ own] at found
      exact (h.flies a f found).insert address n' net.board _
  behind a f found e he := by
    by_cases own : a = address
    · subst own
      rw [Medium.get?_carrying] at found
      cases sent with
      | none => exact h.behind a f found e (waits e he)
      | some frame => exact (sends frame rfl).2 e he
    · rw [Medium.get?_carrying_of_ne _ own] at found
      exact h.behind a f found e (waits e he)

/-- A node changes by itself, and no frame of it comes or goes. -/
theorem Forwards.insert (h : net.Forwards size []) (present : net.nodes.get? address = some n)
    {n' : Node} (gradient : n'.gradient = n.gradient)
    (forwards : n'.Forwards size (net.medium.inFlight.get? address))
    (emptied : n.gradient.isSink = true → n'.contents = []) :
    Forwards size { net with nodes := net.nodes.insert address n' } [] := by
  have nothing (f : Outgoing) (sent : none = some f) : net.Hops address f ∧
      ∀ e ∈ ([] : List (Address × Outgoing)), address.toNat + 1 < e.1.toNat := nomatch sent
  have here : n'.Forwards size ((Table.lookup address ([] : List (Address × Outgoing))).or
      ((none : Option Outgoing).or (net.medium.inFlight.get? address))) := forwards
  exact h.update present gradient here emptied (fun _ _ ↦ rfl) (fun _ he ↦ he) nothing

/-- What a node sees of its radio. -/
theorem Forwards.willing (h : net.Forwards size waiting)
    (present : net.nodes.get? address = some n) (f : Outgoing) (filled : f.payload ≠ [])
    (free : (net.medium.radio address).busy = false) :
    (net.medium.radio address).accepts f = true :=
  Medium.accepts_of_opened (h.attached address n present) f filled free

/-- A node that took something in, or nothing, is flushed while no frame of it waits. -/
theorem Forwards.flushed (h : net.Forwards size waiting)
    (present : net.nodes.get? address = some n) (settled : Table.lookup address waiting = none)
    (nearer : ∀ e ∈ waiting, address.toNat + 1 < e.1.toNat) (gradient : m.gradient = n.gradient)
    (forwards : m.Forwards size (net.medium.inFlight.get? address)) (urgent : Bool) :
    let flushed := m.flush (net.medium.radio address) urgent
    Forwards size { net with
      nodes := net.nodes.insert address flushed.state
      medium := net.medium.carrying address (Node.takenFrame? flushed.outputs) } waiting := by
  intro flushed
  obtain ⟨after, sends⟩ := forwards.flush rfl (h.willing present) urgent
  have stands := (Node.flush_keeps forwards.distinct (net.medium.radio address) urgent).1
  refine h.update present (stands.trans gradient) ?_ (fun sink ↦ ?_) (fun _ _ ↦ rfl)
    (fun _ he ↦ he) ?_
  · rw [settled]
    exact after
  · exact (forwards.contents_flush (net.medium.radio address) urgent after).1 (gradient ▸ sink)
  · intro f taken
    have sent := sends f taken
    have route := gradient ▸ sent.route
    obtain ⟨toward, receiver⟩ := h.lined.parent present route
    refine ⟨⟨⟨⟨toward, by rw [present]; rfl, receiver, sent.fits⟩, fun flagged ↦ ?_⟩,
      h.lined.parent_next present route, sent.loaded⟩, nearer⟩
    exact sent.calm (sent.flagged.symm.trans flagged)

/-- A flush leaves the line one that forwards. -/
theorem Forwards.flush (h : net.Forwards size []) (present : net.nodes.get? address = some n)
    (urgent : Bool) :
    (net.settleReaction address (n.flush (net.medium.radio address) urgent)).state.Forwards
      size [] := by
  have here := h.nodes address n present
  rw [settleReaction_of_flushed (Node.flushed_flush here.distinct _ urgent)]
  exact h.flushed present rfl (fun _ he ↦ nomatch he) rfl here urgent

/-- A fact leaves the line one that forwards. -/
theorem Forwards.sow (h : net.Forwards size []) (present : net.nodes.get? address = some n)
    (inner : n.gradient.isSink = false) (id : UInt8) (elapsed : Nat) (fact value : Bytes) :
    Forwards size { net with
      nodes := net.nodes.insert address (n.sow id elapsed fact value).2 } [] := by
  have here := h.nodes address n present
  refine h.insert present (n.sow_keeps id elapsed fact value).1
    (here.sow id elapsed fact value) fun sink ↦ ?_
  rw [inner] at sink
  cases sink

/-- Drawing the next delay leaves the line one that forwards. -/
theorem Forwards.nextFlushDelay (h : net.Forwards size [])
    (present : net.nodes.get? address = some n) :
    Forwards size { net with nodes := net.nodes.insert address n.nextFlushDelay.2 } [] :=
  h.insert present rfl ((h.nodes address n present).congr rfl rfl rfl rfl rfl rfl)
    (h.emptied address n present)

private theorem Forwards.beacon (h : net.Forwards size [])
    (present : net.nodes.get? address = some n)
    {beacon : Beacon} (heard : net.Heard address beacon) :
    (net.tell (fun n _ beacon ↦ n.onBeacon beacon) (address, beacon)).Forwards size [] := by
  have here := h.nodes address n present
  have lined := h.lined.heard present here.opened heard
  obtain ⟨gradient, cycles, board, isSink, told⟩ := tell_beacon present here.opened beacon
  rw [told] at lined ⊢
  refine ⟨?_, lined, h.lossless, ?_, ?_, by simp, ?_, by simp⟩
  · apply Table.forall_get?_insert
    · exact here.congr rfl rfl rfl rfl rfl isSink
    · exact fun a m _ found ↦ h.nodes a m found
  · apply Table.forall_get?_insert
    · exact h.attached address n present
    · exact fun a m _ found ↦ h.attached a m found
  · apply Table.forall_get?_insert
    · exact fun sink ↦ h.emptied address n present (isSink.symm.trans sink)
    · exact fun a m _ found ↦ h.emptied a m found
  · exact fun a frame found ↦ (h.flies a frame found).insert address _ board net.medium

/-! ## A frame arrives -/

/-- The network after a frame arrived and its sender was told. -/
def passed (net : Network) (e : Address × Outgoing) : Network :=
  (net.tell Node.onSignal (e.2.target, .received e.1 e.2.payload)).tell Node.onSignal
    (e.1, .sent e.2.target 0)

/-- What is wanted done when a frame arrives. -/
def passedOutputs (net : Network) (e : Address × Outgoing) : List (Address × Output) :=
  net.toldOutputs Node.onSignal (e.2.target, .received e.1 e.2.payload)

/-- The arrival and the confirmation concern different nodes, so that the confirmation may come
first. -/
theorem passed_eq (far : net.nodes.get? sender = some m)
    (near : net.nodes.get? frame.target = some n) (apart : frame.target ≠ sender)
    (opened : m.closed = false) (opened' : n.closed = false) (distinct : n.DistinctIds) :
    let flushed := (n.takingIn frame.payload).flush (net.medium.radio frame.target) true
    net.passed (sender, frame) = { net with
      nodes := (net.nodes.insert sender m.confirmed).insert frame.target flushed.state
      medium := net.medium.carrying frame.target (Node.takenFrame? flushed.outputs) } := by
  intro flushed
  let told : Network := { net with nodes := net.nodes.insert sender m.confirmed }
  have near' : told.nodes.get? frame.target = some n :=
    (net.nodes.get?_insert_of_ne apart m.confirmed).trans near
  have swap : net.passed (sender, frame) =
      (net.tell Node.onSignal (sender, .sent frame.target 0)).tell Node.onSignal
        (frame.target, .received sender frame.payload) :=
    (local_acted sender _).comm (local_acted frame.target _) apart.symm net
  rw [swap, tell_sent far opened]
  exact tell_received near' opened' distinct sender frame.payload

/-- The sender of the first waiting frame is told that it arrived. -/
theorem Forwards.confirmed (h : net.Forwards size ((sender, frame) :: waiting))
    (ascending : Table.Ascending ((sender, frame) :: waiting))
    (far : net.nodes.get? sender = some m) (sent : m.Forwards size (some frame)) :
    Forwards size { net with nodes := net.nodes.insert sender m.confirmed } waiting := by
  have resting : net.medium.inFlight.get? sender = none := by
    cases flying : net.medium.inFlight.get? sender with
    | none => rfl
    | some other =>
      have nearer := h.behind sender other flying (sender, frame) List.mem_cons_self
      simp only at nearer
      omega
  have here : m.confirmed.Forwards size ((Table.lookup sender waiting).or
      ((none : Option Outgoing).or (net.medium.inFlight.get? sender))) := by
    rw [ascending.lookup_tail, resting]
    exact sent.confirmed
  have nothing (f : Outgoing) (same : none = some f) : net.Hops sender f ∧
      ∀ e ∈ waiting, sender.toNat + 1 < e.1.toNat := nomatch same
  have inner (sink : m.gradient.isSink = true) : m.confirmed.contents = [] := by
    cases sent.sink sink
  have stands : m.confirmed.gradient = m.gradient := rfl
  refine h.update far stands here inner (fun a own ↦ ?_)
    (fun e he ↦ List.mem_cons_of_mem _ he) nothing
  exact (Table.lookup_cons_of_ne own frame waiting).symm

/-- The first waiting frame arrives from one node at another. Neither has a second frame. -/
structure Passing (size : Nat) (net : Network) (sender : Address) (frame : Outgoing) (m n : Node) :
    Prop where
  hops : net.Hops sender frame
  far : net.nodes.get? sender = some m
  near : net.nodes.get? frame.target = some n
  sent : m.Forwards size (some frame)
  idle : n.Forwards size none
  free : net.medium.inFlight.get? frame.target = none
  taken : (n.takingIn frame.payload).Forwards size none
  relayed :
    let flushed := (n.takingIn frame.payload).flush (net.medium.radio frame.target) true
    flushed.state.Forwards size (Node.takenFrame? flushed.outputs)
  state :
    let flushed := (n.takingIn frame.payload).flush (net.medium.radio frame.target) true
    net.passed (sender, frame) = { net with
      nodes := (net.nodes.insert sender m.confirmed).insert frame.target flushed.state
      medium := net.medium.carrying frame.target (Node.takenFrame? flushed.outputs) }
  outputs : net.passedOutputs (sender, frame) =
    ((n.takingIn frame.payload).flush (net.medium.radio frame.target) true).outputs.map
      (frame.target, ·)

/-- The receiver is still there once the sender was told. -/
theorem Passing.near_confirmed (h : net.Passing size sender frame m n) :
    (net.nodes.insert sender m.confirmed).get? frame.target = some n :=
  (net.nodes.get?_insert_of_ne h.hops.apart m.confirmed).trans h.near

/-- The node that a waiting frame is for was told of its own frame before. -/
theorem Forwards.exists_passing (h : net.Forwards size ((sender, frame) :: waiting))
    (ascending : Table.Ascending ((sender, frame) :: waiting)) :
    (∃ m n, net.Passing size sender frame m n) ∧
      (net.passed (sender, frame)).Forwards size waiting := by
  have hops : net.Hops sender frame := h.waits (sender, frame) List.mem_cons_self
  have next := hops.next
  obtain ⟨m, far⟩ := Option.isSome_iff_exists.1 hops.sender
  obtain ⟨n, near⟩ := Option.isSome_iff_exists.1 hops.receiver
  have free : net.medium.inFlight.get? frame.target = none := by
    cases flying : net.medium.inFlight.get? frame.target with
    | none => rfl
    | some other =>
      have nearer := h.behind frame.target other flying (sender, frame) List.mem_cons_self
      simp only at nearer
      omega
  have sent := h.nodes sender m far
  rw [Table.lookup_cons_self] at sent
  have idle := h.nodes frame.target n near
  rw [ascending.lookup_of_lt hops.toward, free] at idle
  have taken : (n.takingIn frame.payload).Forwards size none := idle.takingIn hops.fits hops.calm
  have state := passed_eq far near hops.apart sent.opened idle.opened idle.distinct
  have outputs : net.passedOutputs (sender, frame) =
      ((n.takingIn frame.payload).flush (net.medium.radio frame.target) true).outputs.map
        (frame.target, ·) := by
    rw [passedOutputs, toldOutputs_of_present near, Node.onSignal_received idle.opened]
  have busy : (net.medium.radio frame.target).busy = (none : Option Outgoing).isSome :=
    Medium.busy_radio_of_free free
  have relayed := (taken.flush busy (h.willing near) true).1
  rw [Option.or_none] at relayed
  have passing : net.Passing size sender frame m n :=
    ⟨hops, far, near, sent, idle, free, taken, relayed, state, outputs⟩
  refine ⟨⟨m, n, passing⟩, ?_⟩
  rw [state]
  refine (h.confirmed ascending far sent).flushed passing.near_confirmed (hops.settled ascending)
    (hops.nearer ascending) (n.gradient_takingIn frame.payload) ?_ true
  rw [free]
  exact taken

/-! ## Whole turns -/

/-- What a sender is told of its frame makes it send nothing. -/
theorem toldOutputs_sent (far : net.nodes.get? sender = some m) (opened : m.closed = false)
    (apart : address ≠ sender) (signal : Signal) (target : Address) :
    (net.tell Node.onSignal (address, signal)).toldOutputs Node.onSignal
      (sender, .sent target 0) = [] := by
  have silent : net.toldOutputs Node.onSignal (sender, .sent target 0) = [] := by
    rw [toldOutputs_of_present far, Node.onSignal_sent opened]
    rfl
  have same := act?_acted_of_ne apart.symm net (fun radio n ↦ n.onSignal radio (.sent target 0))
    fun radio n ↦ n.onSignal radio signal
  have outputs := congrArg (Option.map Prod.snd) same
  rw [Option.map_map, Option.map_map] at outputs
  exact (congrArg (Option.getD · []) outputs).trans silent

/-- All waiting frames arrive, in the order of their senders. -/
theorem Forwards.deliver_induction
    {P : Network → List (Address × Outgoing) → List (Address × Output) → Prop}
    (step : ∀ {net sender frame waiting past m n}, net.Passing size sender frame m n →
      Table.Ascending ((sender, frame) :: waiting) → P net ((sender, frame) :: waiting) past →
      P (net.passed (sender, frame)) waiting (past ++ net.passedOutputs (sender, frame)))
    (h : net.Forwards size waiting) (ascending : Table.Ascending waiting)
    {past : List (Address × Output)} (start : P net waiting past) :
    let told := net.deliver Node.onSignal (deliveries waiting)
    told.state.Forwards size [] ∧ P told.state [] (past ++ told.outputs) := by
  induction waiting generalizing net past with
  | nil =>
    refine ⟨h, ?_⟩
    rwa [deliveries, List.flatMap_nil, deliver, List.append_nil]
  | cons e rest ih =>
    obtain ⟨sender, frame⟩ := e
    obtain ⟨⟨m, n, passing⟩, after⟩ := h.exists_passing ascending
    obtain ⟨forwards, holds⟩ := ih after ascending.tail (step passing ascending start)
    have signals : deliveries ((sender, frame) :: rest) =
        (frame.target, .received sender frame.payload) :: (sender, .sent frame.target 0) ::
          deliveries rest := rfl
    have silent := toldOutputs_sent passing.far passing.sent.opened passing.hops.apart
      (.received sender frame.payload) frame.target
    rw [signals, deliver_cons, deliver_cons, silent]
    rw [List.append_assoc] at holds
    exact ⟨forwards, holds⟩

/-- What was under way is waiting once the medium has settled it. -/
theorem Forwards.settledMedium (h : net.Forwards size []) :
    net.settledMedium.Forwards size net.medium.inFlight.entries where
  nodes a n present := by
    have here := h.nodes a n present
    rw [get?_settledMedium, Option.or_none]
    exact here
  lined := h.lined.congr (fun _ ↦ rfl) rfl
  lossless := by
    show net.medium.pump.2.loss = .never
    rw [Medium.loss_pump, h.lossless]
  attached a n present := by
    show net.medium.pump.2.opened.contains a = true
    rw [Medium.opened_pump]
    exact h.attached a n present
  emptied := h.emptied
  waits e he := by
    have hops := h.flies e.1 e.2 (net.medium.inFlight.get?_of_mem he)
    exact ⟨⟨⟨hops.toward, hops.sender, hops.receiver, hops.fits⟩, hops.calm⟩, hops.next,
      hops.loaded⟩
  flies a frame found := by
    rw [get?_settledMedium] at found
    cases found
  behind a frame found := by
    rw [get?_settledMedium] at found
    cases found

/-- What every arrival keeps of a network, of the frames that still wait and of what was wanted
done, a pump keeps. -/
theorem Forwards.pump_induction
    {P : Network → List (Address × Outgoing) → List (Address × Output) → Prop}
    (step : ∀ {net sender frame waiting past m n}, net.Passing size sender frame m n →
      Table.Ascending ((sender, frame) :: waiting) → P net ((sender, frame) :: waiting) past →
      P (net.passed (sender, frame)) waiting (past ++ net.passedOutputs (sender, frame)))
    (h : net.Forwards size []) (past : List (Address × Output))
    (start : P net.settledMedium net.medium.inFlight.entries past) :
    net.pump.state.Forwards size [] ∧ P net.pump.state [] (past ++ net.pump.outputs) := by
  have signals : net.medium.pump.1 = deliveries net.medium.inFlight.entries := by
    apply Medium.pump_of_lossless h.lossless
    intro e he
    have hops := h.flies e.1 e.2 (net.medium.inFlight.get?_of_mem he)
    obtain ⟨n, present⟩ := Option.isSome_iff_exists.1 hops.receiver
    exact h.attached e.2.target n present
  have told := h.settledMedium.deliver_induction step net.medium.inFlight.ascending start
  rwa [← signals] at told

/-- Pumping leaves the line one that forwards. -/
theorem Forwards.pump (h : net.Forwards size []) : net.pump.state.Forwards size [] :=
  (h.pump_induction (P := fun _ _ _ ↦ True) (fun _ _ _ ↦ trivial) [] trivial).1

/-- Settling leaves the line one that forwards. -/
theorem Forwards.settle (h : net.Forwards size []) (rounds : Nat) :
    (net.settle rounds).state.Forwards size [] := by
  induction rounds generalizing net with
  | zero => exact h
  | succ rounds ih =>
    rw [Network.settle]
    split
    · exact h.pump
    · exact ih h.pump

/-- A round of discovery leaves the line one that forwards. -/
theorem Forwards.discover (h : net.Forwards size []) : net.discover.state.Forwards size [] := by
  have told := discover_induction (P := fun net ↦ net.Forwards size []) (T := fun _ _ _ ↦ True)
    (fun h ↦ h.lined) (fun h present ↦ (h.nodes _ _ present).opened) (fun _ ↦ trivial)
    (fun _ _ ↦ trivial) (fun h present heard ↦ ⟨h.beacon present heard, trivial⟩) h
  exact told.1

end Network
end CollectionTree
