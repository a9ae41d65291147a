import CollectionTree.Proofs.Simulation.Conservation

/-!
# Calls

Whoever runs a deployment has it discover, sense, flush what is due and settle the radio, in any
order and at any time. What no turn of the network breaks holds between any two calls, whatever the
radio, the nodes and the sensing draw: `Annals.run`, of the network together with everything that
was wanted done and all that was sown so far, `Chronicle.run`, which does not ask what was sown, and
`Invariant.run`, of the network alone.
-/

namespace CollectionTree
namespace Simulation

/-- What whoever runs a deployment may have it do. -/
inductive Call where
  /-- One round of discovery. -/
  | discover
  /-- Every node but the sink senses, while a clock runs. -/
  | sense (clock : Address → UInt8 → Nat)
  /-- Flush every node that is due. -/
  | flushDue (now : Nat)
  /-- Settle the radio until it is quiet. -/
  | pump

/-- The deployment after a call. -/
def call (sim : Simulation) : Call → Simulation
  | .discover => sim.discover
  | .sense clock => sim.senseBy clock
  | .flushDue now => (sim.flushDue now).2
  | .pump => sim.pump.2

/-! ## What is wanted done -/

/-- What is wanted done when a node is flushed. -/
def flushOutputs (sim : Simulation) (address : Address) (urgent : Bool) : List (Address × Output) :=
  ((sim.network.act? address fun radio n ↦ n.flush radio urgent).map (·.outputs)).getD []

/-- The deployment after a node took its reading and before it watches out. -/
def readAt (clock : Address → UInt8 → Nat) (sim : Simulation) (address : Address) : Simulation :=
  let (reading, source) := sim.source.between .word32 15 25
  { sim with source }.sowNode address Collect.jobId (clock address Collect.jobId)
    [Collect.temperature] [reading.toUInt8]

/-- What is wanted done when the node at an address watches out. -/
def watchOutputs (clock : Address → UInt8 → Nat) (sim : Simulation) (address : Address) :
    List (Address × Output) :=
  if sim.detect then
    let (seen, source) := sim.detectRate.draw sim.source
    if seen then
      let (animal, source) := source.between .word32 1 5
      ({ sim with source }.sowNode address Detect.jobId (clock address Detect.jobId) []
        [animal.toUInt8]).flushOutputs address true
    else []
  else []

/-- What is wanted done when some nodes sense in order. -/
def senseOutputs (clock : Address → UInt8 → Nat) (sim : Simulation) :
    List Address → List (Address × Output)
  | [] => []
  | address :: rest =>
    watchOutputs clock (readAt clock sim address) address ++
      (senseAt clock sim address).senseOutputs clock rest

/-- What is wanted done when those of some nodes that are due are flushed. -/
def dueOutputs (now : Nat) (sim : Simulation) : List Address → List (Address × Output)
  | [] => []
  | address :: rest =>
    match sim.deadlines.get? address with
    | none => dueOutputs now sim rest
    | some deadline =>
      if deadline ≤ now then
        sim.flushOutputs address false ++
          dueOutputs now ((sim.flushNode address false).2.schedule now address) rest
      else dueOutputs now sim rest

/-- What is wanted done in a call. -/
def wantedIn (sim : Simulation) : Call → List (Address × Output)
  | .discover => sim.network.discover.outputs
  | .sense clock => sim.senseOutputs clock sim.sensors
  | .flushDue now => sim.dueOutputs now sim.network.nodes.keys
  | .pump => (sim.network.settle pumpRounds).outputs

/-- What is wanted done in some calls, in order. -/
def wantedAlong (sim : Simulation) : List Call → List (Address × Output)
  | [] => []
  | c :: rest => sim.wantedIn c ++ (sim.call c).wantedAlong rest

/-! ## What is sown -/

/-- What the collecting job of the node at an address makes when it senses. -/
def sownAt (clock : Address → UInt8 → Nat) (sim : Simulation) (address : Address) :
    List (Address × Record) :=
  (sim.collectedAt clock address).map (address, ·)

/-- What the collecting jobs make when some nodes sense in order. -/
def sownAmong (clock : Address → UInt8 → Nat) (sim : Simulation) :
    List Address → List (Address × Record)
  | [] => []
  | address :: rest => sim.sownAt clock address ++ (senseAt clock sim address).sownAmong clock rest

/-- What the collecting jobs make in a call. -/
def sownIn (sim : Simulation) : Call → List (Address × Record)
  | .sense clock => sim.sownAmong clock sim.sensors
  | .discover | .flushDue _ | .pump => []

/-- The records that the collecting jobs make in some calls, each with the address of its node, in
order. -/
def sownAlong (sim : Simulation) : List Call → List (Address × Record)
  | [] => []
  | c :: rest => sim.sownIn c ++ (sim.call c).sownAlong rest

variable {sim : Simulation} {address : Address}

private theorem flushOutputs_of_absent (absent : sim.network.nodes.get? address = none)
    (urgent : Bool) :
    sim.flushOutputs address urgent = [] := by
  simp [flushOutputs, Network.act?, absent]

private theorem flushOutputs_of_present {n : Node}
    (present : sim.network.nodes.get? address = some n)
    (urgent : Bool) : sim.flushOutputs address urgent = (sim.network.settleReaction address
      (n.flush (sim.network.medium.radio address) urgent)).outputs := by
  simp [flushOutputs, Network.act?, present]

/-! ## What reaches the sink -/

private theorem absorb_append (results : Results) (outputs more : List (Address × Output)) :
    absorb results (outputs ++ more) = absorb (absorb results outputs) more :=
  List.foldl_append

private theorem results_flushNode (sim : Simulation) (address : Address) (urgent : Bool) :
    (sim.flushNode address urgent).2.results =
      absorb sim.results (sim.flushOutputs address urgent) := by
  cases present : sim.network.nodes.get? address with
  | none =>
    rw [flushNode_of_absent present, flushOutputs_of_absent present]
    rfl
  | some n =>
    rw [flushNode_of_present present, flushOutputs_of_present present]
    rfl

/-- Setting a deadline keeps the results. -/
theorem results_schedule (sim : Simulation) (now : Nat) (address : Address) :
    (sim.schedule now address).results = sim.results := by
  unfold schedule
  split <;> rfl

private theorem results_watchAt (clock : Address → UInt8 → Nat) (sim : Simulation)
    (address : Address) : (sim.watchAt clock address).results =
      absorb sim.results (sim.watchOutputs clock address) := by
  unfold watchAt watchOutputs
  split
  · simp only
    split
    · exact results_flushNode _ address true
    · rfl
  · rfl

private theorem results_senseAmong (clock : Address → UInt8 → Nat) (sim : Simulation)
    (addresses : List Address) : (addresses.foldl (senseAt clock) sim).results =
      absorb sim.results (sim.senseOutputs clock addresses) := by
  induction addresses generalizing sim with
  | nil => rfl
  | cons address rest ih =>
    rw [List.foldl_cons, ih, senseOutputs, absorb_append]
    exact congrArg (absorb · _) (results_watchAt clock (readAt clock sim address) address)

private theorem results_flushDueAmong (now : Nat) (sim : Simulation) (addresses : List Address) :
    (flushDueAmong now sim addresses).2.results =
      absorb sim.results (sim.dueOutputs now addresses) := by
  induction addresses generalizing sim with
  | nil => rfl
  | cons address rest ih =>
    rw [flushDueAmong, dueOutputs]
    cases sim.deadlines.get? address with
    | none => exact ih sim
    | some deadline =>
      by_cases due : deadline ≤ now
      · simp only [if_pos due]
        rw [ih, results_schedule, results_flushNode, absorb_append]
      · simp only [if_neg due]
        exact ih sim

/-- Whatever the sink gets in a call is among what is wanted done in it. -/
theorem results_call (sim : Simulation) (c : Call) :
    (sim.call c).results = absorb sim.results (sim.wantedIn c) := by
  cases c with
  | discover => rfl
  | sense clock => exact results_senseAmong clock sim sim.sensors
  | flushDue now => exact results_flushDueAmong now sim sim.network.nodes.keys
  | pump => rfl

/-- The results take in everything that was wanted done, in order. -/
theorem results_run (sim : Simulation) (calls : List Call) :
    (calls.foldl call sim).results = absorb sim.results (sim.wantedAlong calls) := by
  induction calls generalizing sim with
  | nil => rfl
  | cons c rest ih => rw [List.foldl_cons, ih, results_call, wantedAlong, absorb_append]

/-! ## What no turn breaks -/

/-- The nodes that sense come behind the sink. -/
theorem behind_of_mem_sensors (lined : sim.network.Lined) : ∀ a ∈ sim.sensors, 0 < a.toNat := by
  intro a mem
  obtain ⟨e, he, rfl⟩ := List.mem_map.1 mem
  obtain ⟨he, inner⟩ := List.mem_filter.1 he
  exact (lined.isSink_eq_false_iff (sim.network.nodes.get?_of_mem he)).1 (by simpa using inner)

/-- A property of lines, of everything that was wanted done and of all that the collecting jobs made
so far, which no turn breaks. The sink is given no facts. -/
structure Annals (P : Network → List (Address × Output) → List (Address × Record) → Prop) :
    Prop where
  lined : ∀ {net past sown}, P net past sown → net.Lined
  discover : ∀ {net past sown}, P net past sown →
    P net.discover.state (past ++ net.discover.outputs) sown
  settle : ∀ {net past sown}, P net past sown →
    P (net.settle pumpRounds).state (past ++ (net.settle pumpRounds).outputs) sown
  flush : ∀ {net past sown address n}, P net past sown → net.nodes.get? address = some n → ∀ urgent,
    let r := net.settleReaction address (n.flush (net.medium.radio address) urgent)
    P r.state (past ++ r.outputs) sown
  collect : ∀ {net past sown address n}, P net past sown → net.nodes.get? address = some n →
    n.gradient.isSink = false → ∀ elapsed fact value,
      P { net with
          nodes := net.nodes.insert address (n.sow Collect.jobId elapsed fact value).2 } past
        (sown ++ (n.collected elapsed fact value).map (address, ·))
  detect : ∀ {net past sown address n}, P net past sown → net.nodes.get? address = some n →
    n.gradient.isSink = false → ∀ elapsed fact value,
      P { net with
          nodes := net.nodes.insert address (n.sow Detect.jobId elapsed fact value).2 } past sown
  nextFlushDelay : ∀ {net past sown address n}, P net past sown → net.nodes.get? address = some n →
    P { net with nodes := net.nodes.insert address n.nextFlushDelay.2 } past sown

namespace Annals

variable {P : Network → List (Address × Output) → List (Address × Record) → Prop} (kept : Annals P)
  {past : List (Address × Output)} {sown : List (Address × Record)}

include kept

private theorem flushNode (h : P sim.network past sown) (address : Address) (urgent : Bool) :
    P (sim.flushNode address urgent).2.network (past ++ sim.flushOutputs address urgent) sown := by
  cases present : sim.network.nodes.get? address with
  | none =>
    rw [flushNode_of_absent present, flushOutputs_of_absent present, List.append_nil]
    exact h
  | some n =>
    rw [flushNode_of_present present, flushOutputs_of_present present]
    exact kept.flush h present urgent

private theorem schedule (h : P sim.network past sown) (now : Nat) (address : Address) :
    P (sim.schedule now address).network past sown := by
  cases present : sim.network.nodes.get? address with
  | none =>
    rw [schedule_of_absent present]
    exact h
  | some n =>
    rw [network_schedule present]
    exact kept.nextFlushDelay h present

private theorem readAt (h : P sim.network past sown) (clock : Address → UInt8 → Nat)
    (behind : 0 < address.toNat) :
    P (readAt clock sim address).network past (sown ++ sim.sownAt clock address) := by
  show P (sim.network.modifyNode _ _) past _
  cases present : sim.network.nodes.get? address with
  | none =>
    rw [Network.modifyNode_of_absent present, sownAt, collectedAt, present]
    simpa using h
  | some n =>
    have inner := ((kept.lined h).isSink_eq_false_iff present).2 behind
    rw [Network.modifyNode, Table.modify_of_present present, sownAt, collectedAt, present]
    exact kept.collect h present inner _ _ _

private theorem watchAt (h : P sim.network past sown) (clock : Address → UInt8 → Nat)
    (behind : 0 < address.toNat) :
    P (sim.watchAt clock address).network (past ++ sim.watchOutputs clock address) sown := by
  have sighted (elapsed : Nat) (fact value : Bytes) (source : Source) :
      P ({ sim with source }.sowNode address Detect.jobId elapsed fact value).network past
        sown := by
    show P (sim.network.modifyNode _ _) past sown
    cases present : sim.network.nodes.get? address with
    | none => rwa [Network.modifyNode_of_absent present]
    | some n =>
      have inner := ((kept.lined h).isSink_eq_false_iff present).2 behind
      rw [Network.modifyNode, Table.modify_of_present present]
      exact kept.detect h present inner elapsed fact value
  unfold Simulation.watchAt watchOutputs
  split
  · simp only
    split
    · exact kept.flushNode (sighted _ _ _ _) address true
    · rwa [List.append_nil]
  · rwa [List.append_nil]

private theorem senseAmong (h : P sim.network past sown) (clock : Address → UInt8 → Nat)
    {addresses : List Address} (behind : ∀ a ∈ addresses, 0 < a.toNat) :
    P (addresses.foldl (senseAt clock) sim).network (past ++ sim.senseOutputs clock addresses)
      (sown ++ sim.sownAmong clock addresses) := by
  induction addresses generalizing sim past sown with
  | nil => rwa [senseOutputs, sownAmong, List.append_nil, List.append_nil]
  | cons address rest ih =>
    have first : 0 < address.toNat := behind address List.mem_cons_self
    have later := ih (kept.watchAt (kept.readAt h clock first) clock first)
      fun a ha ↦ behind a (List.mem_cons_of_mem _ ha)
    rwa [List.append_assoc, List.append_assoc] at later

private theorem flushDueAmong (now : Nat) (h : P sim.network past sown) (addresses : List Address) :
    P (Simulation.flushDueAmong now sim addresses).2.network
      (past ++ sim.dueOutputs now addresses) sown := by
  induction addresses generalizing sim past with
  | nil => rwa [dueOutputs, List.append_nil]
  | cons address rest ih =>
    rw [Simulation.flushDueAmong, dueOutputs]
    cases sim.deadlines.get? address with
    | none => exact ih h
    | some deadline =>
      by_cases due : deadline ≤ now
      · have later := ih (kept.schedule (kept.flushNode h address false) now address)
        rw [List.append_assoc] at later
        simpa only [if_pos due] using later
      · simpa only [if_neg due] using ih h

private theorem call (h : P sim.network past sown) (c : Call) :
    P (sim.call c).network (past ++ sim.wantedIn c) (sown ++ sim.sownIn c) := by
  cases c with
  | discover =>
    rw [sownIn, List.append_nil]
    exact kept.discover h
  | sense clock => exact kept.senseAmong h clock (behind_of_mem_sensors (kept.lined h))
  | flushDue now =>
    rw [sownIn, List.append_nil]
    exact kept.flushDueAmong now h sim.network.nodes.keys
  | pump =>
    rw [sownIn, List.append_nil]
    exact kept.settle h

private theorem calls (h : P sim.network past sown) (calls : List Call) :
    P (calls.foldl Simulation.call sim).network (past ++ sim.wantedAlong calls)
      (sown ++ sim.sownAlong calls) := by
  induction calls generalizing sim past sown with
  | nil => rwa [wantedAlong, sownAlong, List.append_nil, List.append_nil]
  | cons c rest ih =>
    have later := ih (kept.call h c)
    rwa [List.append_assoc, List.append_assoc] at later

/-- What holds before the nodes draw their first delays holds between any two calls. -/
theorem run {settings : Settings} {sources : Sources}
    (h : P (laidOut settings sources).network [] []) (calls : List Call) :
    P (calls.foldl Simulation.call (build settings sources)).network
      ((build settings sources).wantedAlong calls) ((build settings sources).sownAlong calls) := by
  have built : P (build settings sources).network [] [] := by
    rw [build_eq]
    exact List.foldlRecOn (motive := fun sim : Simulation ↦ P sim.network [] []) _ _ h
      fun _ h address _ ↦ kept.schedule h 0 address
  exact kept.calls built calls

end Annals

/-- A property of lines and of everything that was wanted done so far, which no turn breaks. The
sink is given no facts. -/
structure Chronicle (P : Network → List (Address × Output) → Prop) : Prop where
  lined : ∀ {net past}, P net past → net.Lined
  discover : ∀ {net past}, P net past → P net.discover.state (past ++ net.discover.outputs)
  settle : ∀ {net past}, P net past →
    P (net.settle pumpRounds).state (past ++ (net.settle pumpRounds).outputs)
  flush : ∀ {net past address n}, P net past → net.nodes.get? address = some n → ∀ urgent,
    let r := net.settleReaction address (n.flush (net.medium.radio address) urgent)
    P r.state (past ++ r.outputs)
  sow : ∀ {net past address n}, P net past → net.nodes.get? address = some n →
    n.gradient.isSink = false → ∀ id elapsed fact value,
      P { net with nodes := net.nodes.insert address (n.sow id elapsed fact value).2 } past
  nextFlushDelay : ∀ {net past address n}, P net past → net.nodes.get? address = some n →
    P { net with nodes := net.nodes.insert address n.nextFlushDelay.2 } past

namespace Chronicle

variable {P : Network → List (Address × Output) → Prop} (kept : Chronicle P)
  {past : List (Address × Output)}

include kept

/-- Such a property does not ask what was sown. -/
theorem annals : Annals fun net past _ ↦ P net past where
  lined := kept.lined
  discover := kept.discover
  settle := kept.settle
  flush := kept.flush
  collect h present inner := kept.sow h present inner Collect.jobId
  detect h present inner := kept.sow h present inner Detect.jobId
  nextFlushDelay := kept.nextFlushDelay

private theorem flushNode (h : P sim.network past) (address : Address) (urgent : Bool) :
    P (sim.flushNode address urgent).2.network (past ++ sim.flushOutputs address urgent) :=
  @Annals.flushNode sim (fun net past _ ↦ P net past) kept.annals past [] h address urgent

private theorem schedule (h : P sim.network past) (now : Nat) (address : Address) :
    P (sim.schedule now address).network past :=
  @Annals.schedule sim (fun net past _ ↦ P net past) kept.annals past [] h now address

private theorem call (h : P sim.network past) (c : Call) :
    P (sim.call c).network (past ++ sim.wantedIn c) :=
  @Annals.call sim (fun net past _ ↦ P net past) kept.annals past [] h c

/-- Calls keep a property that no turn breaks. -/
theorem calls (h : P sim.network past) (calls : List Call) :
    P (calls.foldl Simulation.call sim).network (past ++ sim.wantedAlong calls) :=
  @Annals.calls sim (fun net past _ ↦ P net past) kept.annals past [] h calls

/-- What holds before the nodes draw their first delays holds between any two calls. -/
theorem run {settings : Settings} {sources : Sources} (h : P (laidOut settings sources).network [])
    (calls : List Call) : P (calls.foldl Simulation.call (build settings sources)).network
      ((build settings sources).wantedAlong calls) :=
  kept.annals.run h calls

end Chronicle

/-- A property of lines that no turn breaks. -/
structure Invariant (P : Network → Prop) : Prop where
  lined : ∀ {net}, P net → net.Lined
  discover : ∀ {net}, P net → P net.discover.state
  settle : ∀ {net}, P net → P (net.settle pumpRounds).state
  flush : ∀ {net address n}, P net → net.nodes.get? address = some n → ∀ urgent,
    P (net.settleReaction address (n.flush (net.medium.radio address) urgent)).state
  sow : ∀ {net address n}, P net → net.nodes.get? address = some n → n.gradient.isSink = false →
    ∀ id elapsed fact value,
      P { net with nodes := net.nodes.insert address (n.sow id elapsed fact value).2 }
  nextFlushDelay : ∀ {net address n}, P net → net.nodes.get? address = some n →
    P { net with nodes := net.nodes.insert address n.nextFlushDelay.2 }

namespace Invariant

variable {P : Network → Prop} (inv : Invariant P)

include inv

/-- Such a property does not ask what was wanted done. -/
theorem chronicle : Chronicle fun net _ ↦ P net :=
  ⟨inv.lined, inv.discover, inv.settle, inv.flush, inv.sow, inv.nextFlushDelay⟩

/-- Flushing a node keeps an invariant. -/
theorem flushNode (h : P sim.network) (address : Address) (urgent : Bool) :
    P (sim.flushNode address urgent).2.network :=
  @Chronicle.flushNode sim (fun net _ ↦ P net) inv.chronicle [] h address urgent

/-- Setting a deadline keeps an invariant. -/
theorem schedule (h : P sim.network) (now : Nat) (address : Address) :
    P (sim.schedule now address).network :=
  @Chronicle.schedule sim (fun net _ ↦ P net) inv.chronicle [] h now address

/-- A call keeps an invariant. -/
theorem call (h : P sim.network) (c : Call) : P (sim.call c).network :=
  @Chronicle.call sim (fun net _ ↦ P net) inv.chronicle [] h c

/-- What holds before the nodes draw their first delays holds between any two calls. -/
theorem run {settings : Settings} {sources : Sources} (h : P (laidOut settings sources).network)
    (calls : List Call) : P (calls.foldl Simulation.call (build settings sources)).network :=
  inv.chronicle.run h calls

end Invariant
end Simulation
end CollectionTree
