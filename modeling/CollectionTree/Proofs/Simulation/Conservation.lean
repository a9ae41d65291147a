import CollectionTree.Proofs.Simulation.Build

/-!
# Conservation of readings

Whoever runs a deployment has it discover, sense, or flush and then settle the radio, in any order
and at any time. In between, what the sink and all nodes know under a key is what was read under it:
`readings_conserved`. The draws of the radio, of the nodes and of what is sensed are arbitrary.
-/

namespace CollectionTree
namespace Simulation

/-! ## Steps -/

/-- What whoever runs a deployment has it do between two looks at it. -/
inductive Step where
  /-- One round of discovery. -/
  | discover
  /-- Every node but the sink senses, while a clock runs. -/
  | sense (clock : Address → UInt8 → Nat)
  /-- Flush every node that is due, and settle the radio. -/
  | flush (now : Nat)

/-- The deployment after a step. -/
def step (sim : Simulation) : Step → Simulation
  | .discover => sim.discover
  | .sense clock => sim.senseBy clock
  | .flush now => (sim.flushDue now).2.pump.2

/-- The records that the collecting job makes when the node at an address senses. -/
def collectedAt (clock : Address → UInt8 → Nat) (sim : Simulation) (address : Address) :
    List Record :=
  ((sim.network.nodes.get? address).map fun n ↦
    n.collected (clock address Collect.jobId) [Collect.temperature]
      [(sim.source.between .word32 15 25).1.toUInt8]).getD []

/-- The records that the collecting jobs make when some nodes sense in order. -/
def collectedAmong (clock : Address → UInt8 → Nat) (sim : Simulation) :
    List Address → List Record
  | [] => []
  | address :: rest =>
    sim.collectedAt clock address ++ (senseAt clock sim address).collectedAmong clock rest

/-- The records that the collecting jobs make in a step. -/
def collectedIn (sim : Simulation) : Step → List Record
  | .sense clock => sim.collectedAmong clock sim.sensors
  | _ => []

/-- The records that the collecting jobs make in some steps. -/
def collectedAlong (sim : Simulation) : List Step → List Record
  | [] => []
  | s :: rest => sim.collectedIn s ++ (sim.step s).collectedAlong rest

/-- What the sink and all nodes know under a key. -/
def known (key : Collect.Key) (sim : Simulation) : Collect.Tally :=
  sim.results.tallyOf key + sim.network.stored key

/-- A deployment between two steps. -/
structure Resting (sim : Simulation) : Prop where
  gathers : sim.network.Gathers []
  calm : sim.network.Calm

variable {sim sim' : Simulation} {address : Address} {key : Collect.Key}

/-- What is known grows by some records of readings, and no reading is left under way. -/
structure Grows (sim sim' : Simulation) (records : List Record) : Prop where
  resting : sim'.Resting
  readings : ∃ readings : List Collect.Reading, records = readings.map Collect.Reading.record
  known : ∀ key, sim'.known key = sim.known key + weigh (Collect.tallyUnder key) records

/-- Where nothing more is known the growth is by no records. -/
theorem Grows.nothing (resting : sim'.Resting) (known : ∀ key, sim'.known key = sim.known key) :
    sim.Grows sim' [] where
  resting := resting
  readings := ⟨[], rfl⟩
  known key := (known key).trans (add_zero _).symm

/-- Growth in two steps is growth by the records of both. -/
theorem Grows.trans {last : Simulation} {records more : List Record} (h : sim.Grows sim' records)
    (h' : sim'.Grows last more) : sim.Grows last (records ++ more) where
  resting := h'.resting
  readings := by
    obtain ⟨first, made⟩ := h.readings
    obtain ⟨second, made'⟩ := h'.readings
    exact ⟨first ++ second, by rw [made, made', List.map_append]⟩
  known key := by rw [h'.known, h.known, weigh_append, add_assoc]

/-! ## What reaches the sink -/

/-- What the sink adds up of single records it adds up of all that it is given for the collecting
job. -/
theorem measure_absorb {M : Type} [AddCommMonoid M] (measure : Results → M)
    (weight : Wire.Entry → M)
    (records : ∀ results job about value, measure (results.record job about value) =
      measure results + if job = Collect.jobId then weight ⟨about, value⟩ else 0)
    (results : Results) (outputs : List (Address × Output)) :
    measure (absorb results outputs) = measure results +
      weighEntries weight (Node.handedOver Collect.jobId (outputs.map Prod.snd)) := by
  induction outputs generalizing results with
  | nil => exact (add_zero _).symm
  | cons output rest ih =>
    obtain ⟨a, output⟩ := output
    have split : Node.handedOver Collect.jobId (((a, output) :: rest).map Prod.snd) =
        Node.handedOver Collect.jobId [output] ++
          Node.handedOver Collect.jobId (rest.map Prod.snd) :=
      Node.handedOver_append Collect.jobId [output] _
    rw [split, weighEntries_append, ← add_assoc]
    cases output with
    | consume job about value =>
      have own : weighEntries weight (Node.handedOver Collect.jobId [.consume job about value]) =
          if job = Collect.jobId then weight ⟨about, value⟩ else 0 := by
        by_cases same : job = Collect.jobId <;> simp [Node.handedOver, same]
      rw [own, ← records]
      exact ih (results.record job about value)
    | start | announce | stop | offer =>
      show _ = measure results + 0 + _
      rw [add_zero]
      exact ih results

private theorem tallyOf_absorb (results : Results) (outputs : List (Address × Output)) :
    (absorb results outputs).tallyOf key =
      results.tallyOf key + Network.reached key outputs := by
  rw [Network.reached, Node.consumedAmong_eq]
  exact measure_absorb (·.tallyOf key) (Collect.tallyUnder key)
    (fun results ↦ results.tallyOf_record key) results outputs

private theorem known_continueWith {α : Type} (r : Reaction α Network (Address × Output))
    (conserved : ∀ key, r.state.stored key + Network.reached key r.outputs =
      sim.network.stored key) : (sim.continueWith r).known key = sim.known key := by
  rw [known, known, ← conserved key, add_comm (r.state.stored key), ← add_assoc]
  rw [← tallyOf_absorb]
  rfl

/-- A turn of the network moves readings, and makes none. -/
theorem Grows.continueWith {α : Type} {r : Reaction α Network (Address × Output)}
    (turn : sim.network.Gathered r) : sim.Grows (sim.continueWith r) [] :=
  .nothing ⟨turn.gathers, turn.calm⟩ fun _ ↦ known_continueWith r turn.conserved

/-! ## One node -/

/-- A flush leaves frames under way, which carry no reading if it is urgent. -/
theorem known_flushNode (h : sim.network.Gathers []) (address : Address) (urgent : Bool) :
    (sim.flushNode address urgent).2.network.Gathers [] ∧
      (urgent = true → sim.network.Calm → (sim.flushNode address urgent).2.network.Calm) ∧
      ∀ key, (sim.flushNode address urgent).2.known key = sim.known key := by
  cases present : sim.network.nodes.get? address with
  | none =>
    rw [flushNode_of_absent present]
    exact ⟨h, fun _ calm ↦ calm, fun _ ↦ rfl⟩
  | some n =>
    obtain ⟨gathers, calm, conserved⟩ := h.flush present urgent
    rw [flushNode_of_present present]
    exact ⟨gathers, calm, fun key ↦ known_continueWith _ conserved⟩

/-- What a node does by itself changes what is known by what it takes in. -/
theorem known_modify (h : sim.network.Gathers []) {n : Node}
    (present : sim.network.nodes.get? address = some n) (change : Node → Node)
    (added : Collect.Key → Collect.Tally) (gradient : (change n).gradient = n.gradient)
    (collects : (change n).Collects none (sim.network.medium.inFlight.get? address))
    (adds : ∀ key, (change n).stored key = n.stored key + added key) :
    (sim.network.modifyNode address change).Gathers [] ∧
      ∀ key, sim.results.tallyOf key + (sim.network.modifyNode address change).stored key =
        sim.known key + added key := by
  obtain ⟨gathers, replaced⟩ := h.modify present gradient collects adds
  refine ⟨gathers, fun key ↦ ?_⟩
  rw [replaced key, ← add_assoc]
  rfl

/-- A fact for the collecting job adds the records that the job makes of it. -/
theorem Resting.sowNode (h : sim.Resting) (address : Address) (elapsed : Nat)
    (fact value : Bytes) :
    sim.Grows (sim.sowNode address Collect.jobId elapsed fact value)
      (((sim.network.nodes.get? address).map fun n ↦
        n.collected elapsed fact value).getD []) := by
  unfold Simulation.sowNode
  cases present : sim.network.nodes.get? address with
  | none =>
    rw [Network.modifyNode_of_absent present]
    exact .nothing h fun _ ↦ rfl
  | some n =>
    have here := h.gathers.nodes address n present
    obtain ⟨collects, adds⟩ := here.sow (h.calm address) elapsed fact value
    obtain ⟨gathers, known⟩ := known_modify h.gathers present
      (fun n ↦ (n.sow Collect.jobId elapsed fact value).2)
      (fun key ↦ weigh (Collect.tallyUnder key) (n.collected elapsed fact value))
      (n.sow_keeps Collect.jobId elapsed fact value).1 collects adds
    exact ⟨⟨gathers, h.calm⟩, here.exists_readings elapsed fact value, known⟩

/-- A fact for another job adds nothing. -/
theorem Resting.sowNode_of_ne (h : sim.Resting) {job : UInt8} (other : Collect.jobId ≠ job)
    (address : Address) (elapsed : Nat) (fact value : Bytes) :
    sim.Grows (sim.sowNode address job elapsed fact value) [] := by
  unfold Simulation.sowNode
  cases present : sim.network.nodes.get? address with
  | none =>
    rw [Network.modifyNode_of_absent present]
    exact .nothing h fun _ ↦ rfl
  | some n =>
    have here := h.gathers.nodes address n present
    obtain ⟨collects, same⟩ := here.sow_of_ne other elapsed fact value
    obtain ⟨gathers, known⟩ := known_modify h.gathers present
      (fun n ↦ (n.sow job elapsed fact value).2) (fun _ ↦ 0)
      (n.sow_keeps job elapsed fact value).1 collects fun key ↦ (same key).trans (add_zero _).symm
    exact ⟨⟨gathers, h.calm⟩, ⟨[], rfl⟩, known⟩

private theorem Resting.drawing (h : sim.Resting) (source : Source) : Resting { sim with source } :=
  ⟨h.gathers, h.calm⟩

/-- Draws make nothing known. -/
theorem Grows.of_drawing {records : List Record} (source : Source)
    (h : Grows { sim with source } sim' records) : sim.Grows sim' records :=
  ⟨h.resting, h.readings, h.known⟩

/-- Sightings have nothing to do with readings. -/
theorem Resting.watchAt (h : sim.Resting) (clock : Address → UInt8 → Nat) (address : Address) :
    sim.Grows (sim.watchAt clock address) [] := by
  unfold Simulation.watchAt
  split
  · simp only
    split
    · generalize (sim.detectRate.draw sim.source).2.between .word32 1 5 = drawn
      have other : Collect.jobId ≠ Detect.jobId := by decide
      have sown := (h.drawing drawn.2).sowNode_of_ne other address (clock address Detect.jobId) []
        [drawn.1.toUInt8]
      obtain ⟨gathers, calm, known⟩ := known_flushNode sown.resting.gathers address true
      have flushed := sown.trans (.nothing ⟨gathers, calm rfl sown.resting.calm⟩ known)
      exact flushed.of_drawing drawn.2
    · exact .nothing (h.drawing _) fun _ ↦ rfl
  · exact .nothing h fun _ ↦ rfl

/-- A node that senses adds what its collecting job makes of the reading. -/
theorem Resting.senseAt (h : sim.Resting) (clock : Address → UInt8 → Nat) (address : Address) :
    sim.Grows (Simulation.senseAt clock sim address) (sim.collectedAt clock address) := by
  have sown := (h.drawing (sim.source.between .word32 15 25).2).sowNode address
    (clock address Collect.jobId) [Collect.temperature]
    [(sim.source.between .word32 15 25).1.toUInt8]
  have watched := sown.trans (sown.resting.watchAt clock address)
  rw [List.append_nil] at watched
  exact watched.of_drawing (sim.source.between .word32 15 25).2

private theorem Resting.senseAmong (h : sim.Resting) (clock : Address → UInt8 → Nat)
    (addresses : List Address) :
    sim.Grows (addresses.foldl (Simulation.senseAt clock) sim)
      (sim.collectedAmong clock addresses) := by
  induction addresses generalizing sim with
  | nil => exact .nothing h fun _ ↦ rfl
  | cons address rest ih =>
    have first := h.senseAt clock address
    exact first.trans (ih first.resting)

/-! ## Flushing -/

/-- Drawing the next delay of a node changes neither what is stored nor what is under way. -/
theorem known_schedule (h : sim.network.Gathers []) (now : Nat) (address : Address) :
    (sim.schedule now address).network.Gathers [] ∧
      (sim.schedule now address).network.medium = sim.network.medium ∧
      ∀ key, (sim.schedule now address).known key = sim.known key := by
  unfold schedule
  cases present : sim.network.nodes.get? address with
  | none => exact ⟨h, rfl, fun _ ↦ rfl⟩
  | some n =>
    have here := h.nodes address n present
    obtain ⟨gathers, known⟩ := known_modify h present (fun _ ↦ n.nextFlushDelay.2)
      (fun _ ↦ 0) rfl (here.congr rfl rfl (here.books.congr rfl rfl) rfl rfl) fun key ↦
        (add_zero _).symm
    exact ⟨gathers, rfl, fun key ↦ (known key).trans (add_zero _)⟩

private theorem known_flushDueAmong (now : Nat) (h : sim.network.Gathers [])
    (addresses : List Address) : (flushDueAmong now sim addresses).2.network.Gathers [] ∧
      ∀ key, (flushDueAmong now sim addresses).2.known key = sim.known key := by
  induction addresses generalizing sim with
  | nil => exact ⟨h, fun _ ↦ rfl⟩
  | cons address rest ih =>
    rw [flushDueAmong]
    split
    · exact ih h
    · split
      · obtain ⟨flushed, -, known⟩ := known_flushNode h address false
        obtain ⟨scheduled, -, known'⟩ := known_schedule flushed now address
        obtain ⟨gathers, known''⟩ := ih scheduled
        exact ⟨gathers, fun key ↦ ((known'' key).trans (known' key)).trans (known key)⟩
      · exact ih h

/-! ## Every sequence of steps -/

/-- A step grows what is known by the readings that it collects. -/
theorem Resting.step (h : sim.Resting) (s : Step) :
    sim.Grows (sim.step s) (sim.collectedIn s) := by
  cases s with
  | discover => exact .continueWith (h.gathers.discover h.calm)
  | sense clock => exact h.senseAmong clock sim.sensors
  | flush now =>
    obtain ⟨flushed, known⟩ := known_flushDueAmong now h.gathers sim.network.nodes.keys
    have pumped := Grows.continueWith (flushed.settle (pumpRounds - 1))
    refine ⟨pumped.resting, pumped.readings, fun key ↦ ?_⟩
    rw [← known key]
    exact pumped.known key

private theorem Resting.run (h : sim.Resting) (steps : List Step) :
    sim.Grows (steps.foldl Simulation.step sim) (sim.collectedAlong steps) := by
  induction steps generalizing sim with
  | nil => exact .nothing h fun _ ↦ rfl
  | cons s rest ih =>
    have first := h.step s
    exact first.trans (ih first.resting)

/-! ## From the beginning -/

private theorem Resting.schedule (h : sim.Resting) (now : Nat) (address : Address) :
    (sim.schedule now address).Resting ∧
      ∀ key, (sim.schedule now address).known key = sim.known key := by
  obtain ⟨gathers, medium, known⟩ := known_schedule h.gathers now address
  refine ⟨⟨gathers, ?_⟩, known⟩
  rw [Network.Calm, medium]
  exact h.calm

/-- Nothing is known in a deployment that was just built. -/
theorem resting_build (settings : Settings) (unlimited : settings.tree.ramLimit = none)
    (small : settings.nodes ≤ 65536) (sources : Sources) :
    (build settings sources).Resting ∧ ∀ key, (build settings sources).known key = 0 := by
  have laid := laid_laidOut unlimited small sources
  have drawn {sim : Simulation} (h : sim.Resting) (addresses : List Address) :
      (addresses.foldl (·.schedule 0) sim).Resting ∧
        ∀ key, (addresses.foldl (·.schedule 0) sim).known key = sim.known key := by
    induction addresses generalizing sim with
    | nil => exact ⟨h, fun _ ↦ rfl⟩
    | cons address rest ih =>
      obtain ⟨scheduled, known⟩ := h.schedule 0 address
      obtain ⟨resting, known'⟩ := ih scheduled
      exact ⟨resting, fun key ↦ (known' key).trans (known key)⟩
  have started : (laidOut settings sources).Resting := ⟨laid.gathers, laid.calm⟩
  obtain ⟨resting, known⟩ := drawn started (laidOut settings sources).network.nodes.keys
  rw [← build_eq] at resting known
  refine ⟨resting, fun key ↦ (known key).trans ?_⟩
  exact (congrArg _ (laid.stored key)).trans (add_zero 0)

/-- What the sink and all nodes together know under a key is all that was ever read under it, each
reading once, however the deployment is run and whatever is drawn. A line has no more nodes than
there are addresses of two bytes. -/
theorem readings_conserved (settings : Settings) (unlimited : settings.tree.ramLimit = none)
    (small : settings.nodes ≤ 65536) (sources : Sources) (steps : List Step) :
    ∃ readings : List Collect.Reading,
      (build settings sources).collectedAlong steps = readings.map Collect.Reading.record ∧
      ∀ key, (steps.foldl step (build settings sources)).known key =
        Collect.tallyOver key readings := by
  obtain ⟨resting, nothing⟩ := resting_build settings unlimited small sources
  have grown := resting.run steps
  obtain ⟨readings, made⟩ := grown.readings
  refine ⟨readings, made, fun key ↦ ?_⟩
  rw [grown.known key, nothing key, zero_add, made]
  exact Collect.weigh_map_record key readings

/-- A sink and two sensors. -/
def lineOfThree : Settings := { nodes := 3 }

/-- Two rounds of discovery, one reading by each sensor, and a flush after which the reading of the
first is at the sink and that of the second is at the first. -/
def oneHop : List Step := [.discover, .discover, .sense fun _ _ ↦ 0, .flush 60000000000]

/-- Of two readings on the line one got to the sink, and the other to the node in between. -/
theorem readings_conserved_lineOfThree :
    (∃ readings : List Collect.Reading,
      (build lineOfThree (.ofSeed 1)).collectedAlong oneHop =
        readings.map Collect.Reading.record ∧
      ∀ key, (oneHop.foldl step (build lineOfThree (.ofSeed 1))).known key =
        Collect.tallyOver key readings) ∧
      ((oneHop.foldl step (build lineOfThree (.ofSeed 1))).results.tallyOf
        ⟨0, 1, 0, 1⟩).count = 1 ∧
      ((oneHop.foldl step (build lineOfThree (.ofSeed 1))).network.stored
        ⟨0, 2, 0, 1⟩).count = 1 :=
  ⟨readings_conserved lineOfThree rfl (by decide) (.ofSeed 1) oneHop, by decide +kernel,
    by decide +kernel⟩

end Simulation
end CollectionTree
