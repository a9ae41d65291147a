import CollectionTree.Proofs.Network.Alerts
import CollectionTree.Proofs.Simulation.Forwarding
import CollectionTree.Proofs.Simulation.Quieting
import CollectionTree.Proofs.Simulation.Sightings

/-!
# Sightings reach the sink at once

Where nothing is lost and every node knows its way, whatever the sensors see is at the sink after
one pump: `sighted_reaches_sink`. Each sensor sends its own sighting while it senses, and each pump
moves all of them one node nearer.
-/

namespace CollectionTree
namespace Simulation

/-- The sink knows a sighting, or it is on its way. -/
def Promised (sim : Simulation) (d : Detect.Detection) : Prop :=
  sim.results.detections.contains d = true ∨ sim.network.OnWay [] d.toBytes

/-- A deployment while its sensors sense. Those that still have to have nothing on their way. -/
structure Sensing (size : Nat) (sim : Simulation) (rest : List Address) : Prop where
  rush : sim.network.Rush size []
  behind : ∀ a ∈ rest, 0 < a.toNat
  idle : ∀ a ∈ rest, sim.network.medium.inFlight.get? a = none

/-- Some sightings are made, and all are promised. -/
structure Promises (size : Nat) (sim sim' : Simulation) (rest : List Address)
    (records : List Record) : Prop where
  sensing : sim'.Sensing size rest
  promised : ∀ d, sim.Promised d ∨ d.toBytes ∈ records.map Record.key → sim'.Promised d

variable {sim sim' : Simulation} {address : Address} {rest : List Address} {size : Nat}

private theorem Promises.trans {last : Simulation} {records more : List Record}
    {rest' : List Address}
    (h : sim.Promises size sim' rest records) (h' : sim'.Promises size last rest' more) :
    sim.Promises size last rest' (records ++ more) where
  sensing := h'.sensing
  promised d known := by
    rw [List.map_append, List.mem_append, ← or_assoc] at known
    exact h'.promised d (known.imp (h.promised d) id)

/-- Nothing is seen, and nothing is sent. -/
theorem Promises.nothing (sensing : sim'.Sensing size rest) (results : sim'.results = sim.results)
    (medium : sim'.network.medium = sim.network.medium) : sim.Promises size sim' rest [] where
  sensing := sensing
  promised d known := by
    rcases known with known | made
    · rw [Promised, results, Network.OnWay, medium]
      exact known
    · cases made

private theorem Sensing.tail (h : sim.Sensing size (address :: rest)) : sim.Sensing size rest where
  rush := h.rush
  behind a ha := h.behind a (List.mem_cons_of_mem address ha)
  idle a ha := h.idle a (List.mem_cons_of_mem address ha)

/-- A sensor takes its reading. -/
theorem Sensing.readAt (h : sim.Sensing size (address :: rest)) (clock : Address → UInt8 → Nat) :
    sim.Promises size (Simulation.readAt clock sim address) (address :: rest) [] := by
  refine .nothing ⟨?_, h.behind, h.idle⟩ rfl rfl
  show (sim.network.modifyNode address _).Rush size []
  cases present : sim.network.nodes.get? address with
  | none =>
    rw [Network.modifyNode_of_absent present]
    exact h.rush
  | some n =>
    have inner := (h.rush.lined.isSink_eq_false_iff present).2 (h.behind address List.mem_cons_self)
    rw [Network.modifyNode, Table.modify_of_present present]
    exact h.rush.sow_of_ne present inner (by decide) _ _ _

/-- A sensor sees something and reports it. -/
theorem Sensing.report (h : sim.Sensing size (address :: rest)) (roomy : 9 ≤ size)
    (apart : address ∉ rest) (elapsed : Nat) (value : Bytes) :
    sim.Promises size
      ((sim.sowNode address Detect.jobId elapsed [] value).flushNode address true).2 rest
      (((sim.network.nodes.get? address).map fun n ↦ n.sighted elapsed [] value).getD []) := by
  cases present : sim.network.nodes.get? address with
  | none =>
    have unchanged : sim.sowNode address Detect.jobId elapsed [] value = sim := by
      rw [sowNode, Network.modifyNode_of_absent present]
    rw [unchanged, flushNode_of_absent present]
    exact .nothing h.tail rfl rfl
  | some n =>
    let m := (n.sow Detect.jobId elapsed [] value).2
    have sown : sim.sowNode address Detect.jobId elapsed [] value =
        { sim with
          network := { sim.network with nodes := sim.network.nodes.insert address m } } := by
      rw [sowNode, Network.modifyNode, Table.modify_of_present present]
    have present' : (sim.network.nodes.insert address m).get? address = some m :=
      Table.get?_insert_self ..
    obtain ⟨rush, comes, others⟩ := h.rush.report roomy present (h.idle address List.mem_cons_self)
      elapsed [] value
    rw [sown, flushNode_of_present present']
    refine ⟨⟨rush, h.tail.behind, fun a ha ↦ (others a ?_).trans (h.tail.idle a ha)⟩,
      fun d known ↦ ?_⟩
    · rintro rfl
      exact apart ha
    · rw [Promised] at known ⊢
      rw [or_assoc] at known
      rcases known with there | known
      · exact .inl ((contains_absorb ..).2 (.inl there))
      · rcases comes d.toBytes known with onWay | handed
        · exact .inr onWay
        · exact .inl ((contains_absorb ..).2 (.inr handed))

/-- A sensor that watches out reports what it sees. -/
theorem Sensing.watchAt (h : sim.Sensing size (address :: rest)) (roomy : 9 ≤ size)
    (apart : address ∉ rest) (clock : Address → UInt8 → Nat) :
    sim.Promises size (sim.watchAt clock address) rest (sightedAt clock sim address) := by
  unfold Simulation.watchAt sightedAt
  by_cases detecting : sim.detect = true
  · rw [if_pos detecting, if_pos detecting]
    by_cases seen : (sim.detectRate.draw sim.source).1 = true
    · simp only [if_pos seen]
      generalize (sim.detectRate.draw sim.source).2.between .word32 1 5 = drawn
      have drawing : Sensing size { sim with source := drawn.2 } (address :: rest) :=
        ⟨h.rush, h.behind, h.idle⟩
      obtain ⟨sensing, promised⟩ := drawing.report roomy apart (clock address Detect.jobId)
        [drawn.1.toUInt8]
      exact ⟨sensing, promised⟩
    · simp only [if_neg seen]
      exact .nothing ⟨h.rush, h.tail.behind, h.tail.idle⟩ rfl rfl
  · rw [if_neg detecting, if_neg detecting]
    exact .nothing h.tail rfl rfl

/-- Whatever some sensors see in order is known to the sink or on its way. -/
theorem Sensing.senseAmong (clock : Address → UInt8 → Nat) (roomy : 9 ≤ size)
    {addresses : List Address} (distinct : addresses.Nodup) (h : sim.Sensing size addresses) :
    sim.Promises size (addresses.foldl (senseAt clock) sim) []
      (sim.sightedAmong clock addresses) := by
  induction addresses generalizing sim with
  | nil => exact .nothing h rfl rfl
  | cons address rest ih =>
    obtain ⟨apart, distinct⟩ := List.nodup_cons.1 distinct
    have read := h.readAt clock
    have first := read.trans (read.sensing.watchAt roomy apart clock)
    exact first.trans (ih distinct first.sensing)

/-- No node senses twice. -/
theorem nodup_sensors (sim : Simulation) : sim.sensors.Nodup :=
  sim.network.nodes.nodup_keys.sublist (List.filter_sublist.map Prod.fst)

/-! ## From the beginning -/

variable {settings : Settings} {sources : Sources}

/-- However a deployment was run whose nodes report sightings, store without limit and lose nothing,
and whatever is drawn: if every node knows its way, nothing is under way and nothing urgent is
stored, then after the sensors sensed once and the radio was settled once the sink knows everything
that was seen, and nothing urgent is stored. -/
theorem sighted_reaches_sink (settings : Settings) (detecting : settings.detect = true)
    (lossless : settings.loss.magnitude = 0) (unlimited : settings.tree.ramLimit = none)
    (small : settings.nodes ≤ 255) (roomy : 9 ≤ settings.tree.maxPayload) (sources : Sources)
    (calls : List Call) {sim : Simulation} (run : calls.foldl call (build settings sources) = sim)
    (routed : ∀ a n, sim.network.nodes.get? a = some n → n.gradient.isRouted = true)
    (quiet : sim.network.medium.pending = 0)
    (calm : ∀ a n, sim.network.nodes.get? a = some n →
      ∀ acc ∈ n.accumulators, ∀ r ∈ acc.records, r.isUrgent = false)
    (clock : Address → UInt8 → Nat) :
    let last := (sim.senseBy clock).pump.2
    ∃ seen : List Detect.Detection,
      sim.sightedIn (.sense clock) = seen.map Detect.Detection.record ∧
      (∀ d ∈ seen, last.results.detections.contains d = true) ∧
      ∀ a n, last.network.nodes.get? a = some n →
        ∀ acc ∈ n.accumulators, ∀ r ∈ acc.records, r.isUrgent = false := by
  intro last
  have addressed : settings.nodes ≤ 65536 := by omega
  have few := last_lt_pumpRounds addressed
  have sights : sim.network.Sights [] := by
    rw [← run]
    exact (Gains.run (sights_build detecting unlimited addressed sources).1 calls).sights
  have forwards : sim.network.Forwards settings.tree.maxPayload [] := by
    rw [← run]
    exact forwards_run lossless unlimited addressed sources calls
  have sinkward : sim.network.Sinkward (settings.nodes - 1) (settings.nodes - 1) := by
    rw [← run]
    exact sinkward_run settings addressed sources calls
  have idle := (Medium.pending_eq_zero_iff _).1 quiet
  have rush : sim.network.Rush settings.tree.maxPayload [] := by
    refine ⟨forwards, routed, sights.watches, fun a n present ↦ ?_, (fun e he ↦ nomatch he), ?_⟩
    · exact (Node.slow_of_isUrgent_eq_false (calm a n present)).swift
    · intro a frame found
      rw [idle] at found
      cases found
  have sensing : sim.Sensing settings.tree.maxPayload sim.sensors :=
    ⟨rush, behind_of_mem_sensors forwards.lined, fun a _ ↦ idle a⟩
  obtain ⟨seen, made⟩ := (Gains.call sights (.sense clock)).seen
  have promises := sensing.senseAmong clock roomy sim.nodup_sensors
  obtain ⟨r, quiets, -, pumped⟩ :=
    exists_pump_eq few ((invariant_sinkward few).call sinkward (.sense clock))
  have settled : last = (sim.senseBy clock).continueWith r := congrArg Prod.snd pumped
  obtain ⟨rush', handed⟩ := Network.Rush.quiets quiets promises.sensing.rush roomy
  rw [settled]
  refine ⟨seen, made, fun d mem ↦ ?_, fun a n present ↦ rush'.isUrgent_eq_false quiets.idle present⟩
  have among : d.toBytes ∈ (sim.sightedAmong clock sim.sensors).map Record.key := by
    have same : sim.sightedAmong clock sim.sensors = seen.map Detect.Detection.record := made
    rw [same, Detect.map_key_map_record]
    exact List.mem_map.2 ⟨d, mem, rfl⟩
  apply (contains_absorb ..).2
  exact (promises.promised d (.inr among)).imp id (handed d.toBytes)

/-- A sink and three sensors that see something whenever they sense, a radio that loses nothing, and
frames with room for one sighting. -/
def keen : Settings :=
  { nodes := 4, loss := .ofDecimal false 0 0, detectRate := .ofDecimal false 1 0
    tree := { maxPayload := 9 } }

/-- Every sensor knows its parent. -/
def routes : List Call := [.discover, .discover, .discover]

/-- All three sensors see something at once, two of them the same. -/
theorem sighted_reaches_sink_keen :
    (let sim := routes.foldl call (build keen (.ofSeed 3))
      let last := (sim.senseBy fun _ _ ↦ 0).pump.2
      ∃ seen : List Detect.Detection,
        sim.sightedIn (.sense fun _ _ ↦ 0) = seen.map Detect.Detection.record ∧
        (∀ d ∈ seen, last.results.detections.contains d = true) ∧
        ∀ a n, last.network.nodes.get? a = some n →
          ∀ acc ∈ n.accumulators, ∀ r ∈ acc.records, r.isUrgent = false) ∧
      ((routes.foldl call (build keen (.ofSeed 3))).sightedIn (.sense fun _ _ ↦ 0)).length = 3 ∧
      ((routes.foldl call (build keen (.ofSeed 3))).senseBy
        fun _ _ ↦ 0).pump.2.results.detections.keys = [⟨0, 1⟩, ⟨0, 2⟩] := by
  have nodes : ∀ e ∈ (routes.foldl call (build keen (.ofSeed 3))).network.nodes.entries,
      e.2.gradient.isRouted = true ∧
        ∀ acc ∈ e.2.accumulators, ∀ r ∈ acc.records, r.isUrgent = false := by
    decide +kernel
  have settled := sighted_reaches_sink keen rfl (by decide) rfl (by decide) (by decide) (.ofSeed 3)
    routes rfl (fun a n present ↦ (nodes (a, n) ((Table.mem_entries_iff ..).2 present)).1)
    (by decide +kernel) (fun a n present ↦ (nodes (a, n) ((Table.mem_entries_iff ..).2 present)).2)
    fun _ _ ↦ 0
  exact ⟨settled, by decide +kernel, by decide +kernel⟩

end Simulation
end CollectionTree
