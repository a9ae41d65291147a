import CollectionTree.Proofs.Network.Completion
import CollectionTree.Proofs.Network.Gathering
import CollectionTree.Proofs.Network.Rounds
import CollectionTree.Simulation.Basic

/-!
# Deployments that were just built

Every node of the line is opened with nothing stored, nothing is under way, and only the sink knows
its distance. `Laid` holds after every node that is opened. To flush a node is one turn of its
network, in a deployment that was just built as in any other.
-/

namespace CollectionTree

namespace Board

private theorem straight_line {n : Nat} (small : n ≤ 65536) : (line n).Straight :=
  straight_iff.2 fun a b hears ↦ ((hears_line_iff small a b).1 hears).2.2

private theorem Straight.register {board : Board} (h : board.Straight) (node : Address) :
    (board.register node).Straight :=
  straight_iff.2 fun a b hears ↦ straight_iff.1 h a b ((board.hears_register node a b).1 hears)

end Board

namespace Network

/-- A network in which every node was just opened. -/
structure Started (net : Network) : Prop where
  standing : ∀ a n, net.nodes.get? a = some n → n.gradient = .initial (a.toNat == 0)
  announced : ∀ a hop, net.board.announcedBy a = some hop →
    (net.nodes.get? a).isSome ∧ hop = (Gradient.initial (a.toNat == 0)).advertised
  straight : net.board.Straight
  quiet : net.medium.inFlight = .empty

/-- A network in which every node was just opened, and may store what it reads. -/
structure Laid (net : Network) : Prop extends Started net where
  collects : ∀ a n, net.nodes.get? a = some n → n.Collects none none
  empty : ∀ a n, net.nodes.get? a = some n → n.recordsFor Collect.jobId = []

variable {net : Network}

/-- Nodes that were just opened are lined up. -/
theorem Started.lined (h : net.Started) : net.Lined where
  standing a n present := by
    have standing := h.standing a n present
    by_cases first : a.toNat = 0
    · refine .inr ⟨?_, by omega⟩
      simpa [Gradient.initial, first, lineGradient] using standing
    · refine .inl ⟨?_, by omega⟩
      simpa [Gradient.initial, first] using standing
  upward a routed behind := by
    obtain ⟨n, present, known⟩ := routed
    have unrouted : n.gradient = .unrouted := by
      simpa [Gradient.initial, Nat.ne_of_gt behind] using h.standing a n present
    rw [unrouted] at known
    exact absurd rfl known
  announced a hop announced := by
    obtain ⟨there, rfl⟩ := h.announced a hop announced
    obtain ⟨n, present⟩ := Option.isSome_iff_exists.1 there
    have standing := h.standing a n present
    by_cases first : a.toNat = 0
    · refine .inr ⟨⟨n, present, ?_⟩, ?_⟩
      · rw [standing, first]
        decide
      · rw [first]
        decide
    · refine .inl ?_
      rw [beq_false_of_ne first]
      decide
  straight := h.straight

namespace Laid

variable (h : net.Laid)

include h

/-- Before anything was sent all readings are gathered. -/
theorem gathers : net.Gathers [] where
  nodes a n present := by
    rw [h.quiet]
    exact h.collects a n present
  lined := h.lined
  waits e he := by cases he
  flies a frame found := by
    rw [h.quiet] at found
    cases found

/-- No reading is under way before anything was sent. -/
theorem calm : net.Calm := by
  intro a
  rw [h.quiet]
  rfl

/-- Nothing is stored before anything was read. -/
theorem stored (key : Collect.Key) : net.stored key = 0 := stored_eq_zero h.empty

end Laid
end Network

namespace Simulation

/-! ## Flushing a node -/

variable {sim : Simulation} {address : Address}

/-- Without a node at the address no flush takes place. -/
theorem flushNode_of_absent (absent : sim.network.nodes.get? address = none) (urgent : Bool) :
    sim.flushNode address urgent = (false, sim) := by
  simp [flushNode, act?, Network.act?, absent]

/-- To flush a node is a turn of the network. -/
theorem flushNode_of_present {n : Node} (present : sim.network.nodes.get? address = some n)
    (urgent : Bool) :
    (sim.flushNode address urgent).2 = sim.continueWith
      (sim.network.settleReaction address (n.flush (sim.network.medium.radio address) urgent)) := by
  simp [flushNode, act?, Network.act?, present]

/-! ## Scheduling a node -/

/-- Without a node at the address no deadline is set. -/
theorem schedule_of_absent (absent : sim.network.nodes.get? address = none) (now : Nat) :
    sim.schedule now address = sim := by
  simp [schedule, absent]

/-- A node that draws its next delay is all that changes in the network. -/
theorem network_schedule {n : Node} (present : sim.network.nodes.get? address = some n)
    (now : Nat) : (sim.schedule now address).network =
      { sim.network with nodes := sim.network.nodes.insert address n.nextFlushDelay.2 } := by
  simp only [schedule, present, Network.modifyNode, Table.modify_of_present present]

/-! ## Laying the line -/

variable {settings : Settings} {sources : Sources}

/-- A node of the line before anything happened to it. -/
def freshNode (settings : Settings) (i : Nat) (address : Address) (config : NodeConfig)
    (source : Source) : Node :=
  { (Node.opened address (i == 0) config source).state with
    accumulators := accumulators settings i }

/-- The accumulators are bound one by one. -/
theorem bindAll_opened (i : Nat) (address : Address) (config : NodeConfig) (source : Source) :
    bindAll (Node.opened address (i == 0) config source).state (accumulators settings i) =
      freshNode settings i address config source := by
  unfold freshNode accumulators
  cases settings.detect with
  | false => rfl
  | true => rfl

/-- Nothing is stored at first. -/
theorem records_accumulators (i : Nat) : ∀ acc ∈ accumulators settings i, acc.records = [] := by
  unfold accumulators
  cases settings.detect with
  | false => simp
  | true => simp

/-- A fresh node holds no records. -/
theorem recordsFor_freshNode (i : Nat) (address : Address) (config : NodeConfig)
    (source : Source) (id : UInt8) :
    (freshNode settings i address config source).recordsFor id = [] := by
  apply List.eq_nil_iff_forall_not_mem.2
  intro r hr
  obtain ⟨acc, hacc, -, hr⟩ := Node.exists_of_mem_recordsFor hr
  rw [records_accumulators i acc hacc] at hr
  cases hr

/-- To a fresh node the two jobs may be bound, and nothing else. -/
theorem jobs_freshNode (i : Nat) (address : Address) (config : NodeConfig) (source : Source) :
    Jobs (freshNode settings i address config source).bindings := by
  unfold freshNode accumulators
  cases settings.detect with
  | false => exact .collecting _ _ _
  | true => exact .detecting _ _ _

private theorem unsent_freshNode (i : Nat) (address : Address) (config : NodeConfig)
    (source : Source) : (freshNode settings i address config source).Unsent := by
  have jobs : Jobs (freshNode settings i address config source).bindings :=
    jobs_freshNode i address config source
  refine ⟨rfl, jobs.distinctIds, fun acc hacc ↦ (jobs.shaped_of_mem acc hacc).keeps, ?_, ?_⟩
  · intro acc hacc
    rw [records_accumulators i acc hacc]
    exact List.nodup_nil
  · intro acc hacc
    rw [records_accumulators i acc hacc]
    rfl

/-- A fresh node collects, and has nothing on its way. -/
theorem collects_freshNode (i : Nat) (address : Address) {config : NodeConfig}
    (unlimited : config.ramLimit = none) (source : Source) :
    (freshNode settings i address config source).Collects none none := by
  have empty : (freshNode settings i address config source).recordsFor Collect.jobId = [] :=
    recordsFor_freshNode i address config source Collect.jobId
  refine ⟨rfl, jobs_freshNode i address config source, ⟨?_, ?_, unlimited⟩, ?_, ?_, fun _ ↦ rfl⟩
  · unfold freshNode accumulators
    cases settings.detect with
    | false => simp [Tidy.nil]
    | true => simp [Tidy.nil]
  · unfold freshNode accumulators
    cases settings.detect with
    | false => rfl
    | true => rfl
  · rw [empty]
    simp
  · rw [empty]
    rfl

/-- The settings of node `i` of the line. -/
def nodeConfig (settings : Settings) (i : Nat) : NodeConfig :=
  { settings.tree with seed := settings.seed.map (· + (i + 1).toUInt64) }

/-- What was opened at an address is there. -/
theorem get?_openNode_self (net : Network) (i : Nat) :
    (openNode settings sources net i).nodes.get? (.ofNat i) =
      some (freshNode settings i (.ofNat i) (nodeConfig settings i) (sources.node i)) := by
  rw [← bindAll_opened]
  exact (Table.get?_modify_self ..).trans (congrArg (Option.map _) (Table.get?_insert_self ..))

/-- Opening a node keeps those at other addresses. -/
theorem get?_openNode_of_ne (net : Network) {i : Nat} {a : Address} (other : a ≠ .ofNat i) :
    (openNode settings sources net i).nodes.get? a = net.nodes.get? a :=
  (Table.get?_modify_of_ne _ other _).trans (Table.get?_insert_of_ne _ other _)

/-- What holds of all nodes and of the new one holds of all nodes afterwards. -/
theorem forall_get?_openNode {net : Network} {i : Nat} {P : Address → Node → Prop}
    (first : P (.ofNat i)
      (freshNode settings i (.ofNat i) (nodeConfig settings i) (sources.node i)))
    (others : ∀ a n, net.nodes.get? a = some n → P a n) :
    ∀ a n, (openNode settings sources net i).nodes.get? a = some n → P a n := by
  intro a n found
  by_cases same : a = .ofNat i
  · subst same
    rw [get?_openNode_self] at found
    exact Option.some.inj found ▸ first
  · rw [get?_openNode_of_ne net same] at found
    exact others a n found

private theorem started_openNode {net : Network} (h : net.Started) {i : Nat} (small : i < 65536) :
    (openNode settings sources net i).Started := by
  have own : (Address.ofNat i).toNat = i := Address.toNat_ofNat small
  have announced (a : Address) : (openNode settings sources net i).board.announcedBy a =
      (net.board.announced.insert (.ofNat i) (Gradient.initial (i == 0)).advertised).get? a := rfl
  constructor
  · refine forall_get?_openNode ?_ h.standing
    rw [own]
    rfl
  · intro a hop told
    rw [announced] at told
    by_cases same : a = .ofNat i
    · subst same
      rw [Table.get?_insert_self] at told
      rw [get?_openNode_self, own, ← Option.some.inj told]
      exact ⟨rfl, rfl⟩
    · rw [Table.get?_insert_of_ne _ same] at told
      rw [get?_openNode_of_ne net same]
      exact h.announced a hop told
  · exact h.straight.register (.ofNat i)
  · exact h.quiet

/-- Opening a node sends nothing. -/
theorem fresh_openNode {net : Network} (h : net.Fresh) (i : Nat) :
    (openNode settings sources net i).Fresh := by
  have opened : (openNode settings sources net i).medium.opened =
      net.medium.opened.insert (.ofNat i) () := rfl
  refine ⟨h.quiet, ?_, forall_get?_openNode (unsent_freshNode i _ _ _) h.unsent⟩
  rw [opened]
  refine forall_get?_openNode (by simp [Table.contains]) fun a n present ↦ ?_
  exact Table.isSome_get?_insert (h.attached a n present) (.ofNat i) ()

private theorem laid_openNode {net : Network} (h : net.Laid)
    (unlimited : settings.tree.ramLimit = none)
    {i : Nat} (small : i < 65536) : (openNode settings sources net i).Laid where
  toStarted := started_openNode h.toStarted small
  collects :=
    have limit : (nodeConfig settings i).ramLimit = none := unlimited
    forall_get?_openNode (collects_freshNode i _ limit _) h.collects
  empty := forall_get?_openNode (recordsFor_freshNode i _ _ _ Collect.jobId) h.empty

/-- A line without nodes. -/
def bareLine (settings : Settings) (sources : Sources) : Network where
  medium := { source := sources.medium, loss := .ofNumber settings.loss }
  board := .line settings.nodes

private theorem started_bareLine (small : settings.nodes ≤ 65536) (sources : Sources) :
    (bareLine settings sources).Started where
  standing _ _ present := nomatch present
  announced _ _ told := nomatch told
  straight := Board.straight_line small
  quiet := rfl

/-- A deployment before the nodes draw their first delays. -/
def laidOut (settings : Settings) (sources : Sources) : Simulation where
  network := (List.range settings.nodes).foldl (openNode settings sources)
    (bareLine settings sources)
  source := sources.sensing
  detect := settings.detect
  detectRate := .ofNumber settings.detectRate

/-- A deployment is built by laying it out and drawing the first delay of every node. -/
theorem build_eq (settings : Settings) (sources : Sources) :
    build settings sources = (laidOut settings sources).network.nodes.keys.foldl
      (·.schedule 0) (laidOut settings sources) := rfl

/-- The line is laid node by node. -/
theorem laidOut_induction {P : Network → Prop} (bare : P (bareLine settings sources))
    (opens : ∀ net, P net → ∀ i < settings.nodes, P (openNode settings sources net i)) :
    P (laidOut settings sources).network :=
  List.foldlRecOn _ _ bare fun net h i hi ↦ opens net h i (List.mem_range.1 hi)

/-- In a network that was laid out every node was just opened. -/
theorem started_laidOut (small : settings.nodes ≤ 65536) (sources : Sources) :
    (laidOut settings sources).network.Started :=
  laidOut_induction (started_bareLine small sources) fun _ h _ hi ↦
    started_openNode h (Nat.lt_of_lt_of_le hi small)

/-- In a network that was laid out nothing was sent. -/
theorem fresh_laidOut (settings : Settings) (sources : Sources) :
    (laidOut settings sources).network.Fresh :=
  laidOut_induction (Network.fresh_of_empty rfl rfl) fun _ h i _ ↦ fresh_openNode h i

/-- In a network that was laid out without a cap nodes may store what they read. -/
theorem laid_laidOut (unlimited : settings.tree.ramLimit = none) (small : settings.nodes ≤ 65536)
    (sources : Sources) : (laidOut settings sources).network.Laid := by
  refine laidOut_induction ⟨started_bareLine small sources, ?_, ?_⟩ fun _ h _ hi ↦
    laid_openNode h unlimited (Nat.lt_of_lt_of_le hi small)
  · exact fun _ _ present ↦ nomatch present
  · exact fun _ _ present ↦ nomatch present

end Simulation
end CollectionTree
