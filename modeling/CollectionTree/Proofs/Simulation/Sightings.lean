import CollectionTree.Proofs.Network.Sightings
import CollectionTree.Proofs.Simulation.Calls

/-!
# Sightings in a deployment

Whoever runs a deployment has it discover, sense, flush what is due and settle the radio, in any
order and at any time. Between two calls every sighting that was ever made is at the sink or on a
node that is not the sink, and there are no others: `sightings_conserved`. The draws of the radio,
of the nodes and of what is sensed are arbitrary.
-/

namespace CollectionTree
namespace Simulation

/-! ## What is seen -/

/-- The records that the detecting job makes when the node at an address watches out. -/
def sightedAt (clock : Address → UInt8 → Nat) (sim : Simulation) (address : Address) :
    List Record :=
  if sim.detect then
    let (seen, source) := sim.detectRate.draw sim.source
    if seen then
      ((sim.network.nodes.get? address).map fun n ↦
        n.sighted (clock address Detect.jobId) []
          [(source.between .word32 1 5).1.toUInt8]).getD []
    else []
  else []

/-- The records that the detecting jobs make when some nodes sense in order. -/
def sightedAmong (clock : Address → UInt8 → Nat) (sim : Simulation) :
    List Address → List Record
  | [] => []
  | address :: rest =>
    sightedAt clock (readAt clock sim address) address ++
      (senseAt clock sim address).sightedAmong clock rest

/-- The records that the detecting jobs make in a call. -/
def sightedIn (sim : Simulation) : Call → List Record
  | .sense clock => sim.sightedAmong clock sim.sensors
  | _ => []

/-- The records that the detecting jobs make in some calls. -/
def sightedAlong (sim : Simulation) : List Call → List Record
  | [] => []
  | c :: rest => sim.sightedIn c ++ (sim.call c).sightedAlong rest

/-- The sink knows a sighting, or a node that is not the sink holds it. -/
def Keeps (sim : Simulation) (d : Detect.Detection) : Prop :=
  sim.results.detections.contains d = true ∨ sim.network.Held d.toBytes

/-- The sink knows a sighting, or some node holds it. -/
def Knows (sim : Simulation) (d : Detect.Detection) : Prop :=
  sim.results.detections.contains d = true ∨ sim.network.Known d.toBytes

/-- Some sightings are made. None is lost, and no other comes up. -/
structure Gains (sim sim' : Simulation) (records : List Record) : Prop where
  sights : sim'.network.Sights []
  seen : ∃ seen : List Detect.Detection, records = seen.map Detect.Detection.record
  keeps : ∀ d, sim.Keeps d ∨ d.toBytes ∈ records.map Record.key → sim'.Keeps d
  knows : ∀ d, sim'.Knows d → sim.Knows d ∨ d.toBytes ∈ records.map Record.key

variable {sim sim' : Simulation} {address : Address}

/-- Nothing is seen. -/
theorem Gains.nothing (sights : sim'.network.Sights []) (keeps : ∀ d, sim.Keeps d → sim'.Keeps d)
    (knows : ∀ d, sim'.Knows d → sim.Knows d) : sim.Gains sim' [] where
  sights := sights
  seen := ⟨[], rfl⟩
  keeps d mem := mem.elim (keeps d) fun made ↦ nomatch made
  knows d known := .inl (knows d known)

/-- Nothing is gained by no records. -/
theorem Gains.refl (h : sim.network.Sights []) : sim.Gains sim [] :=
  .nothing h (fun _ ↦ id) fun _ ↦ id

/-- What is gained in two steps is what is gained in both. -/
theorem Gains.trans {last : Simulation} {records more : List Record} (h : sim.Gains sim' records)
    (h' : sim'.Gains last more) : sim.Gains last (records ++ more) where
  sights := h'.sights
  seen := by
    obtain ⟨first, made⟩ := h.seen
    obtain ⟨second, made'⟩ := h'.seen
    exact ⟨first ++ second, by rw [made, made', List.map_append]⟩
  keeps d mem := by
    rw [List.map_append, List.mem_append, ← or_assoc] at mem
    exact h'.keeps d (mem.imp (h.keeps d) id)
  knows d known := by
    rw [List.map_append, List.mem_append, ← or_assoc]
    exact (h'.knows d known).imp (h.knows d) id

/-- Draws make nothing known. -/
theorem Gains.of_drawing {records : List Record} (source : Source)
    (h : Gains { sim with source } sim' records) : sim.Gains sim' records :=
  ⟨h.sights, h.seen, h.keeps, h.knows⟩

/-! ## What reaches the sink -/

/-- The results have a sighting that they had before, or that was handed to the sink. -/
theorem contains_absorb (results : Results) (outputs : List (Address × Output))
    (d : Detect.Detection) :
    (absorb results outputs).detections.contains d = true ↔
      results.detections.contains d = true ∨ Network.Handed outputs d.toBytes := by
  induction outputs generalizing results with
  | nil => simp [absorb, Network.Handed, Node.Hands]
  | cons output rest ih =>
    obtain ⟨a, output⟩ := output
    have split : Network.Handed ((a, output) :: rest) d.toBytes ↔
        Node.Hands [output] d.toBytes ∨ Network.Handed rest d.toBytes :=
      (Network.handed_append [(a, output)] rest).trans (or_congr_left Iff.rfl)
    rw [split, ← or_assoc]
    cases output with
    | consume job about value =>
      have own : Node.Hands [.consume job about value] d.toBytes ↔
          job = Detect.jobId ∧ about = d.toBytes := by
        simp [Node.Hands, eq_comm]
      rw [own, ← Results.contains_record results job about value]
      exact ih (results.record job about value)
    | start | announce | stop | offer =>
      refine (ih results).trans (or_congr_left ?_)
      simp [Node.Hands]

/-- A turn of the network moves sightings, and makes none. -/
theorem Gains.continueWith {α : Type} {r : Reaction α Network (Address × Output)}
    (turn : sim.network.Relays r) : sim.Gains (sim.continueWith r) [] := by
  have reached (d : Detect.Detection) :
      (sim.continueWith r).results.detections.contains d = true ↔
        sim.results.detections.contains d = true ∨ Network.Handed r.outputs d.toBytes :=
    contains_absorb sim.results r.outputs d
  refine .nothing turn.sights (fun d kept ↦ ?_) fun d known ↦ ?_
  · rw [Keeps, reached]
    rcases kept with there | held
    · exact .inl (.inl there)
    · rcases turn.moves.kept d.toBytes held with held | handed
      · exact .inr held
      · exact .inl (.inr handed)
  · rw [Knows, reached] at known
    rcases known with (there | handed) | known
    · exact .inl there
    · exact .inr (turn.moves.found d.toBytes (.inr handed))
    · exact .inr (turn.moves.found d.toBytes (.inl known))

/-! ## One node -/

/-- Without outputs the sink learns nothing. -/
theorem Gains.of_moves {net : Network} (sights : net.Sights [])
    (moves : sim.network.Moves net []) : sim.Gains { sim with network := net } [] :=
  .continueWith (r := ⟨(), net, []⟩) ⟨sights, moves⟩

private theorem Gains.flushNode (h : sim.network.Sights []) (address : Address) (urgent : Bool) :
    sim.Gains (sim.flushNode address urgent).2 [] := by
  cases present : sim.network.nodes.get? address with
  | none =>
    rw [flushNode_of_absent present]
    exact .refl h
  | some n =>
    rw [flushNode_of_present present]
    exact .continueWith (h.flush present urgent)

private theorem Gains.schedule (h : sim.network.Sights []) (now : Nat) (address : Address) :
    sim.Gains (sim.schedule now address) [] := by
  unfold Simulation.schedule
  cases present : sim.network.nodes.get? address with
  | none => exact .refl h
  | some n =>
    obtain ⟨sights, moves⟩ := h.nextFlushDelay present
    have drawn := Gains.of_moves sights moves
    exact ⟨drawn.sights, drawn.seen, drawn.keeps, drawn.knows⟩

/-- A reading is no sighting. -/
theorem Gains.readAt (h : sim.network.Sights []) (clock : Address → UInt8 → Nat)
    (address : Address) : sim.Gains (Simulation.readAt clock sim address) [] := by
  refine .of_drawing (sim.source.between .word32 15 25).2 ?_
  unfold Simulation.readAt Simulation.sowNode
  cases present : sim.network.nodes.get? address with
  | none =>
    simp only [Network.modifyNode_of_absent present]
    exact .refl h
  | some n =>
    exact .of_moves (h.sow present Collect.jobId _ _ _)
      (Network.Moves.sow_of_ne present (by decide) _ _ _)

/-- A fact that a node other than the sink gives to its detecting job. -/
theorem Gains.sowNode (h : sim.network.Sights []) (behind : 0 < address.toNat) (elapsed : Nat)
    (fact value : Bytes) :
    sim.Gains (sim.sowNode address Detect.jobId elapsed fact value)
      (((sim.network.nodes.get? address).map fun n ↦
        n.sighted elapsed fact value).getD []) := by
  unfold Simulation.sowNode
  cases present : sim.network.nodes.get? address with
  | none =>
    rw [Network.modifyNode_of_absent present]
    exact .refl h
  | some n =>
    have inner := (h.lined.isSink_eq_false_iff present).2 behind
    refine ⟨h.sow present Detect.jobId elapsed fact value,
      (h.watches address n present).exists_seen elapsed fact value, fun d kept ↦ ?_,
      fun d known ↦ ?_⟩
    · rcases kept with (there | held) | made
      · exact .inl there
      · exact .inr (h.held_sow present inner (.inl held))
      · exact .inr (h.held_sow present inner (.inr made))
    · rcases known with there | known
      · exact .inl (.inl there)
      · exact (h.known_sow present known).imp .inr id

/-- A node that watches out makes the sightings of its detecting job. -/
theorem Gains.watchAt (h : sim.network.Sights []) (clock : Address → UInt8 → Nat)
    (behind : 0 < address.toNat) :
    sim.Gains (sim.watchAt clock address) (sightedAt clock sim address) := by
  unfold Simulation.watchAt sightedAt
  by_cases detecting : sim.detect = true
  · rw [if_pos detecting, if_pos detecting]
    by_cases seen : (sim.detectRate.draw sim.source).1 = true
    · simp only [if_pos seen]
      generalize (sim.detectRate.draw sim.source).2.between .word32 1 5 = drawn
      have drawing : Network.Sights { sim with source := drawn.2 }.network [] := h
      have sown := Gains.sowNode drawing behind (clock address Detect.jobId) [] [drawn.1.toUInt8]
      have flushed := sown.trans (.flushNode sown.sights address true)
      rw [List.append_nil] at flushed
      exact flushed.of_drawing drawn.2
    · simp only [if_neg seen]
      have drawing : Network.Sights
          { sim with source := (sim.detectRate.draw sim.source).2 }.network [] := h
      exact Gains.of_drawing (sim.detectRate.draw sim.source).2 (.refl drawing)
  · rw [if_neg detecting, if_neg detecting]
    exact .refl h

/-- A node other than the sink that senses makes the sightings of its detecting job. -/
theorem Gains.senseAt (h : sim.network.Sights []) (clock : Address → UInt8 → Nat)
    (behind : 0 < address.toNat) :
    sim.Gains (Simulation.senseAt clock sim address)
      (sightedAt clock (Simulation.readAt clock sim address) address) := by
  have read := Gains.readAt h clock address
  exact read.trans (.watchAt read.sights clock behind)

private theorem Gains.senseAmong (h : sim.network.Sights []) (clock : Address → UInt8 → Nat)
    {addresses : List Address} (behind : ∀ a ∈ addresses, 0 < a.toNat) :
    sim.Gains (addresses.foldl (Simulation.senseAt clock) sim)
      (sim.sightedAmong clock addresses) := by
  induction addresses generalizing sim with
  | nil => exact .refl h
  | cons address rest ih =>
    have first := Gains.senseAt h clock (behind address List.mem_cons_self)
    exact first.trans (ih first.sights fun a ha ↦ behind a (List.mem_cons_of_mem _ ha))

/-! ## Flushing -/

private theorem Gains.flushDueAmong (now : Nat) (h : sim.network.Sights [])
    (addresses : List Address) :
    sim.Gains (Simulation.flushDueAmong now sim addresses).2 [] := by
  induction addresses generalizing sim with
  | nil => exact .refl h
  | cons address rest ih =>
    rw [Simulation.flushDueAmong]
    split
    · exact ih h
    · split
      · have flushed := Gains.flushNode h address false
        have scheduled := flushed.trans (.schedule flushed.sights now address)
        exact scheduled.trans (ih scheduled.sights)
      · exact ih h

/-! ## Every sequence of calls -/

/-- A call gains what the detecting jobs make in it. -/
theorem Gains.call (h : sim.network.Sights []) (c : Call) :
    sim.Gains (sim.call c) (sim.sightedIn c) := by
  cases c with
  | discover => exact .continueWith h.discover
  | sense clock => exact .senseAmong h clock (behind_of_mem_sensors h.lined)
  | flushDue now => exact .flushDueAmong now h sim.network.nodes.keys
  | pump => exact .continueWith (h.settle pumpRounds)

/-- Calls gain what the detecting jobs make in them. -/
theorem Gains.run (h : sim.network.Sights []) (calls : List Call) :
    sim.Gains (calls.foldl Simulation.call sim) (sim.sightedAlong calls) := by
  induction calls generalizing sim with
  | nil => exact .refl h
  | cons c rest ih =>
    have first := Gains.call h c
    exact first.trans (ih first.sights)

/-! ## From the beginning -/

variable {settings : Settings} {sources : Sources}

private theorem watches_freshNode (detecting : settings.detect = true) (i : Nat) (address : Address)
    {config : NodeConfig} (unlimited : config.ramLimit = none) (source : Source) :
    (freshNode settings i address config source).Watches where
  detecting := by
    refine ⟨(i % 256).toUInt8, 0, settings.windowSecs, ?_⟩
    simp [Node.bindings, freshNode, accumulators, detecting]
  books := (collects_freshNode i address unlimited source).books

/-- A network in which every node was just opened, and both jobs were bound to it. -/
structure Ready (net : Network) : Prop where
  fresh : net.Fresh
  watches : ∀ a n, net.nodes.get? a = some n → n.Watches
  empty : ∀ a n, net.nodes.get? a = some n → n.sightings = []

private theorem Ready.openNode {net : Network} (h : Ready net) (detecting : settings.detect = true)
    (unlimited : settings.tree.ramLimit = none) (i : Nat) :
    Ready (openNode settings sources net i) := by
  have limit : (nodeConfig settings i).ramLimit = none := unlimited
  refine ⟨fresh_openNode h.fresh i, ?_, ?_⟩
  · exact forall_get?_openNode (watches_freshNode detecting i _ limit _) h.watches
  · refine forall_get?_openNode ?_ h.empty
    rw [Node.sightings, recordsFor_freshNode]
    rfl

private theorem ready_laidOut (detecting : settings.detect = true)
    (unlimited : settings.tree.ramLimit = none) (sources : Sources) :
    Ready (laidOut settings sources).network := by
  refine laidOut_induction ⟨Network.fresh_of_empty rfl rfl, ?_, ?_⟩ fun _ h i _ ↦
    h.openNode detecting unlimited i
  · exact fun _ _ present ↦ nomatch present
  · exact fun _ _ present ↦ nomatch present

private theorem Gains.schedules (h : sim.network.Sights []) (addresses : List Address) :
    sim.Gains (addresses.foldl (·.schedule 0) sim) [] := by
  induction addresses generalizing sim with
  | nil => exact .refl h
  | cons address rest ih =>
    have first := Gains.schedule h 0 address
    exact first.trans (ih first.sights)

/-- Nothing is known in a deployment that was just built. -/
theorem sights_build (detecting : settings.detect = true)
    (unlimited : settings.tree.ramLimit = none) (small : settings.nodes ≤ 65536)
    (sources : Sources) :
    (build settings sources).network.Sights [] ∧ ∀ d, ¬(build settings sources).Knows d := by
  have lined := (started_laidOut small sources).lined
  have ready := ready_laidOut detecting unlimited sources
  have sights : (laidOut settings sources).network.Sights [] := by
    refine ⟨ready.fresh.accounted, lined, ready.watches, (fun _ _ found ↦ nomatch found), ?_⟩
    intro a frame found
    rw [ready.fresh.quiet] at found
    cases found
  have drawn := Gains.schedules sights (laidOut settings sources).network.nodes.keys
  rw [← build_eq] at drawn
  refine ⟨drawn.sights, fun d known ↦ ?_⟩
  rcases drawn.knows d known with (there | ⟨a, n, present, mem⟩) | made
  · cases there
  · rw [ready.empty a n present] at mem
    cases mem
  · cases made

/-- However a deployment is run and whatever is drawn, between two calls every sighting that was
ever made is known to the sink or stored at a node that is not the sink; and whatever the sink knows
or any node stores was made. A line has no more nodes than there are addresses of two bytes. -/
theorem sightings_conserved (settings : Settings) (detecting : settings.detect = true)
    (unlimited : settings.tree.ramLimit = none) (small : settings.nodes ≤ 65536)
    (sources : Sources) (calls : List Call) :
    let sim := calls.foldl call (build settings sources)
    ∃ seen : List Detect.Detection,
      (build settings sources).sightedAlong calls = seen.map Detect.Detection.record ∧
      (∀ d ∈ seen, sim.results.detections.contains d = true ∨
        ∃ a n, sim.network.nodes.get? a = some n ∧ n.gradient.isSink = false ∧
          ∃ r ∈ n.recordsFor Detect.jobId, r.key = d.toBytes) ∧
      (∀ d, sim.results.detections.contains d = true → d ∈ seen) ∧
      ∀ a n, sim.network.nodes.get? a = some n → ∀ r ∈ n.recordsFor Detect.jobId,
        ∃ d ∈ seen, r.key = d.toBytes := by
  intro sim
  obtain ⟨sights, unknown⟩ := sights_build detecting unlimited small sources
  have gained : (build settings sources).Gains sim _ := .run sights calls
  obtain ⟨seen, made⟩ := gained.seen
  have keys (d : Detect.Detection) :
      d.toBytes ∈ ((build settings sources).sightedAlong calls).map Record.key ↔ d ∈ seen := by
    rw [made, Detect.map_key_map_record, List.mem_map]
    simp [Detect.Detection.toBytes_inj]
  have known (d : Detect.Detection) (now : sim.Knows d) : d ∈ seen := by
    rcases gained.knows d now with before | made
    · exact absurd before (unknown d)
    · exact (keys d).1 made
  refine ⟨seen, made, fun d mem ↦ ?_, fun d there ↦ known d (.inl there), ?_⟩
  · rcases gained.keeps d (.inr ((keys d).2 mem)) with there | ⟨a, n, present, inner, mem⟩
    · exact .inl there
    · exact .inr ⟨a, n, present, inner, List.mem_map.1 mem⟩
  · intro a n present r hr
    have held : r.key ∈ n.sightings := List.mem_map.2 ⟨r, hr, rfl⟩
    obtain ⟨d, same⟩ := (gained.sights.watches a n present).exists_eq_toBytes held
    exact ⟨d, known d (.inr ⟨a, n, present, same ▸ held⟩), same⟩

/-- A sink and two sensors that see something whenever they sense. -/
def vigilant : Settings := { nodes := 3, detectRate := .ofDecimal false 1 0 }

/-- Both sensors see something, which reaches the sink, and something else a second later. -/
def twoWatches : List Call :=
  [.discover, .discover, .sense fun _ _ ↦ 0, .pump, .sense fun _ _ ↦ 1]

/-- Of four sightings the sink knows two, and another one waits at the second sensor. -/
theorem sightings_conserved_twoWatches :
    (let sim := twoWatches.foldl call (build vigilant (.ofSeed 1))
      ∃ seen : List Detect.Detection,
        (build vigilant (.ofSeed 1)).sightedAlong twoWatches =
          seen.map Detect.Detection.record ∧
        (∀ d ∈ seen, sim.results.detections.contains d = true ∨
          ∃ a n, sim.network.nodes.get? a = some n ∧ n.gradient.isSink = false ∧
            ∃ r ∈ n.recordsFor Detect.jobId, r.key = d.toBytes) ∧
        (∀ d, sim.results.detections.contains d = true → d ∈ seen) ∧
        ∀ a n, sim.network.nodes.get? a = some n → ∀ r ∈ n.recordsFor Detect.jobId,
          ∃ d ∈ seen, r.key = d.toBytes) ∧
      ((build vigilant (.ofSeed 1)).sightedAlong twoWatches).length = 4 ∧
      (twoWatches.foldl call (build vigilant (.ofSeed 1))).results.detections.keys =
        [⟨0, 4⟩, ⟨0, 5⟩] ∧
      ((twoWatches.foldl call (build vigilant (.ofSeed 1))).network.nodes.get? (.ofNat 2)).map
        Node.sightings = some [Detect.Detection.toBytes ⟨1, 1⟩] :=
  ⟨sightings_conserved vigilant rfl rfl (by decide) (.ofSeed 1) twoWatches, by decide +kernel,
    by decide +kernel, by decide +kernel⟩

end Simulation
end CollectionTree
