import CollectionTree.Network
import CollectionTree.Proofs.Node.Sending
import CollectionTree.Proofs.Radio.Settling

/-!
# Steps of a network

What one node does to the network around it: its own state changes, at most its own frame comes
under way, and events are told one after another.
-/

namespace CollectionTree

/-! ## The board -/

/-- A node hears something in a round exactly if it is started itself, and then every neighbour of
its that is started. -/
theorem Board.mem_heardBy_iff {board : Board} {node : Address} {neighbors : OrderedSet Address}
    {event : Address × Beacon} :
    event ∈ board.heardBy node neighbors ↔ board.announced.contains node = true ∧
      ∃ neighbor ∈ neighbors.keys, ∃ hop, board.announcedBy neighbor = some hop ∧
        event = (node, .heard neighbor hop) := by
  unfold heardBy
  split
  · next started => simp [started, eq_comm (a := event)]
  · next stopped => simp [stopped]

/-- A round tells a node of a neighbour exactly if it hears the neighbour and both are started. -/
theorem Board.heard_mem_round_iff (board : Board) (a b : Address) (hop : UInt8) :
    (a, .heard b hop) ∈ board.round ↔ ∃ neighbors, board.links.get? a = some neighbors ∧
      board.announced.contains a = true ∧ b ∈ neighbors.keys ∧ board.announcedBy b = some hop := by
  constructor
  · intro mem
    rcases List.mem_append.1 mem with mem | mem
    · obtain ⟨⟨node, neighbors⟩, linked, mem⟩ := List.mem_flatMap.1 mem
      obtain ⟨started, neighbor, near, hop', announced, same⟩ := mem_heardBy_iff.1 mem
      cases same
      exact ⟨neighbors, board.links.get?_of_mem linked, started, near, announced⟩
    · obtain ⟨node, -, same⟩ := List.mem_map.1 mem
      cases (Prod.mk.inj same).2
  · rintro ⟨neighbors, linked, started, near, announced⟩
    apply List.mem_append_left
    apply List.mem_flatMap.2
    exact ⟨(a, neighbors), Table.mem_of_lookup linked,
      mem_heardBy_iff.2 ⟨started, b, near, hop, announced, rfl⟩⟩

namespace Network

/-! ## One node -/

variable {net : Network} {address : Address} {n : Node} {urgent : Bool}

private theorem foldl_perform_consumption (net : Network) (address : Address)
    (accs : List Accumulator) : (Node.consumption accs).foldl (·.perform address) net = net := by
  have consumed (outputs : List Output) (h : ∀ o ∈ outputs, ∃ job key value,
      o = .consume job key value) : outputs.foldl (·.perform address) net = net := by
    induction outputs with
    | nil => rfl
    | cons o rest ih =>
      obtain ⟨job, key, value, rfl⟩ := h o (by simp)
      exact ih fun o ho ↦ h o (by simp [ho])
  refine consumed _ fun o ho ↦ ?_
  obtain ⟨acc, -, ho⟩ := List.mem_flatMap.1 ho
  obtain ⟨r, -, rfl⟩ := List.mem_map.1 ho
  exact ⟨_, _, _, rfl⟩

/-- What a flush wants done changes nothing but the frame under way from the node. -/
theorem settleReaction_of_flushed {reaction : Reaction Bool Node Output}
    (step : Node.Flushed n (net.medium.radio address) urgent reaction) :
    (net.settleReaction address reaction).state =
      { net with
        nodes := net.nodes.insert address reaction.state
        medium := net.medium.carrying address (Node.takenFrame? reaction.outputs) } := by
  cases step with
  | idle gate source => rfl
  | consumed sink =>
    rw [Node.takenFrame?_consumption]
    exact foldl_perform_consumption ..
  | taken gate source inner route free accepted carries loaded =>
    simp only [settleReaction, List.foldl_cons, List.foldl_nil, perform,
      Medium.submit_of_accepts accepted]
    rfl
  | @refused gate source parent payload inner free filled rejected =>
    have refused : (net.medium.submit address
        ⟨parent, payload, n.config.maxRetries⟩).isOk = false := rejected
    simp only [settleReaction, List.foldl_cons, List.foldl_nil, perform]
    cases submitted : net.medium.submit address ⟨parent, payload, n.config.maxRetries⟩ with
    | ok medium => simp [submitted, Except.isOk, Except.toBool] at refused
    | error cause => rfl

/-- Where no node is, none changes. -/
theorem modifyNode_of_absent (absent : net.nodes.get? address = none) (change : Node → Node) :
    net.modifyNode address change = net := by
  rw [modifyNode, Table.modify_of_absent absent]

/-- The network after a node's step; without a node at the address nothing happens. -/
def acted {α : Type} (net : Network) (address : Address)
    (step : Radio → Node → Reaction α Node Output) : Network :=
  ((net.act? address step).map (·.state)).getD net

/-- Where no node is, none acts. -/
theorem acted_of_absent {α : Type} {step : Radio → Node → Reaction α Node Output}
    (absent : net.nodes.get? address = none) : net.acted address step = net := by
  simp [acted, act?, absent]

/-- A node's step comes to what it makes of the node and what it wants done. -/
theorem acted_of_present {α : Type} {step : Radio → Node → Reaction α Node Output}
    (present : net.nodes.get? address = some n) :
    net.acted address step =
      (net.settleReaction address (step (net.medium.radio address) n)).state := by
  simp [acted, act?, present]

/-! ## Telling events -/

/-- The network after one event was told. -/
def tell {ε : Type} (react : Node → Radio → ε → Reaction Unit Node Output) (net : Network)
    (event : Address × ε) : Network :=
  net.acted event.1 fun radio n ↦ react n radio event.2

/-- What nodes want done when one event is told. -/
def toldOutputs {ε : Type} (react : Node → Radio → ε → Reaction Unit Node Output) (net : Network)
    (event : Address × ε) : List (Address × Output) :=
  ((net.act? event.1 fun radio n ↦ react n radio event.2).map (·.outputs)).getD []

/-- A node at the address answers for itself. -/
theorem toldOutputs_of_present {ε : Type}
    {react : Node → Radio → ε → Reaction Unit Node Output}
    (present : net.nodes.get? address = some n) (event : ε) :
    net.toldOutputs react (address, event) =
      (react n (net.medium.radio address) event).outputs.map (address, ·) := by
  simp [toldOutputs, act?, present, settleReaction]

/-- Where no node is, nothing is wanted done. -/
theorem toldOutputs_of_absent {ε : Type}
    {react : Node → Radio → ε → Reaction Unit Node Output}
    (absent : net.nodes.get? address = none) (event : ε) :
    net.toldOutputs react (address, event) = [] := by
  simp [toldOutputs, act?, absent]

/-- The first event is told before the others. -/
theorem deliver_cons {ε : Type} (react : Node → Radio → ε → Reaction Unit Node Output)
    (net : Network) (event : Address × ε) (rest : List (Address × ε)) :
    net.deliver react (event :: rest) =
      ⟨(), ((net.tell react event).deliver react rest).state,
        net.toldOutputs react event ++ ((net.tell react event).deliver react rest).outputs⟩ := by
  rw [deliver, tell, acted, toldOutputs]
  split
  · next absent => rw [absent]; rfl
  · next first present => rw [present]; rfl

/-- Events are told one after another. -/
theorem state_deliver {ε : Type} (react : Node → Radio → ε → Reaction Unit Node Output)
    (net : Network) (events : List (Address × ε)) :
    (net.deliver react events).state = events.foldl (tell react) net := by
  induction events generalizing net with
  | nil => rfl
  | cons head rest ih =>
    rw [deliver_cons, List.foldl_cons]
    exact ih _

/-- The network right before the signals of a pump are told. -/
def settledMedium (net : Network) : Network := { net with medium := net.medium.pump.2 }

/-- Before the signals of a pump are told nothing is under way. -/
@[simp] theorem get?_settledMedium (net : Network) (address : Address) :
    net.settledMedium.medium.inFlight.get? address = none := by
  rw [settledMedium, Medium.inFlight_pump]
  rfl

/-- A pump settles the medium and tells the nodes what became of their frames. -/
theorem state_pump (net : Network) :
    net.pump.state = net.medium.pump.1.foldl (tell Node.onSignal) net.settledMedium :=
  state_deliver ..

/-- A round of discovery tells the nodes what they hear in it. -/
theorem state_discover (net : Network) :
    net.discover.state = net.board.round.foldl (tell fun n _ beacon ↦ n.onBeacon beacon) net :=
  state_deliver ..

/-- An open node that is told of an arrival confirms its frame. -/
theorem tell_sent (present : net.nodes.get? address = some n) (opened : n.closed = false)
    (target : Address) (retries : Nat) :
    net.tell Node.onSignal (address, .sent target retries) =
      { net with nodes := net.nodes.insert address n.confirmed } := by
  rw [tell, acted_of_present present, Node.onSignal_sent opened]
  rfl

/-- An open node that is told of a loss gives its frame up. -/
theorem tell_timedOut (present : net.nodes.get? address = some n) (opened : n.closed = false)
    (target : Address) (retries : Nat) :
    net.tell Node.onSignal (address, .timedOut target retries) =
      { net with nodes := net.nodes.insert address n.givenUp } := by
  rw [tell, acted_of_present present, Node.onSignal_timedOut opened]
  rfl

/-- A beacon changes where a node stands, but not whether it is the sink, how many rounds it counted
and what is announced. -/
theorem tell_beacon (present : net.nodes.get? address = some n) (opened : n.closed = false)
    (beacon : Beacon) :
    ∃ gradient cycles board, gradient.isSink = n.gradient.isSink ∧
      net.tell (fun n _ beacon ↦ n.onBeacon beacon) (address, beacon) =
        { net with
          nodes := net.nodes.insert address { n with
            gradient, counters := { n.counters with cycles } }
          board } := by
  rw [tell, acted_of_present present]
  cases beacon with
  | heard neighbor hop =>
    simp only [Node.onBeacon_heard opened]
    split
    · exact ⟨_, n.counters.cycles, net.board.announce address _,
        n.gradient.isSink_consider neighbor hop, rfl⟩
    · exact ⟨_, n.counters.cycles, net.board, n.gradient.isSink_consider neighbor hop, rfl⟩
  | tick =>
    simp only [Node.onBeacon_tick opened]
    exact ⟨n.gradient, n.counters.cycles + 1, net.board, rfl, rfl⟩

/-- A payload is taken in before what is urgent is passed on. -/
theorem tell_received (present : net.nodes.get? address = some n) (opened : n.closed = false)
    (distinct : n.DistinctIds) (sender : Address) (payload : Bytes) :
    let flushed := (n.takingIn payload).flush (net.medium.radio address) true
    net.tell Node.onSignal (address, .received sender payload) =
      { net with
        nodes := net.nodes.insert address flushed.state
        medium := net.medium.carrying address (Node.takenFrame? flushed.outputs) } := by
  intro flushed
  have distinct : (n.takingIn payload).DistinctIds :=
    (Node.distinctIds_of_bindings_eq (n.bindings_takingIn payload)).2 distinct
  have step : (net.settleReaction address flushed).state = _ :=
    settleReaction_of_flushed (Node.flushed_flush distinct (net.medium.radio address) true)
  rw [tell, acted_of_present present, Node.onSignal_received opened]
  exact step

/-- A flush puts a frame under way if it has one taken, and changes the node alone otherwise. -/
theorem acted_flush (present : net.nodes.get? address = some n) (distinct : n.DistinctIds)
    (urgent : Bool) :
    let flushed := n.flush (net.medium.radio address) urgent
    net.acted address (fun radio n ↦ n.flush radio urgent) =
      { net with
        nodes := net.nodes.insert address flushed.state
        medium := net.medium.carrying address (Node.takenFrame? flushed.outputs) } := by
  intro flushed
  rw [acted_of_present present]
  exact settleReaction_of_flushed (Node.flushed_flush distinct _ urgent)

end Network
end CollectionTree
