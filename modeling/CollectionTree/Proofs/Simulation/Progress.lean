import CollectionTree.Proofs.Network.Sightless
import CollectionTree.Proofs.Simulation.Emptying
import CollectionTree.Proofs.Simulation.Sightings

/-!
# Everything reaches the sink

Where nothing is lost and every node knows its distance, rounds of flushing and settling bring all
that is stored to the sink: `rounds_empty`. There it adds to what the sink had, reading by reading
and sighting by sighting.
-/

namespace CollectionTree

/-- With nothing under way, what a node stores is accounted for. -/
theorem Node.Forwards.collects {n : Node} {size : Nat} (h : n.Forwards size none) :
    n.Collects none none where
  opened := h.opened
  jobs := h.jobs
  books := h.books
  routine r hr := by
    obtain ⟨acc, hacc, -, mem⟩ := exists_of_mem_recordsFor hr
    exact ⟨(h.inOrder.proper acc hacc).stored r mem, h.routine r hr⟩
  pending := by
    rw [h.clear]
    rfl
  sink _ := rfl

/-- So is what all nodes store. -/
theorem Network.Forwards.gathers {net : Network} {size : Nat} (h : net.Forwards size [])
    (idle : ∀ a, net.medium.inFlight.get? a = none) : net.Gathers [] where
  nodes a n present := by
    have here := h.nodes a n present
    rw [idle] at here ⊢
    exact here.collects
  lined := h.lined
  waits _ he := nomatch he
  flies a frame found := by
    rw [idle] at found
    cases found

namespace Simulation

variable {sim : Simulation}

/-! ## Moments for rounds -/

private theorem exists_ripe (sim : Simulation) : ∃ now, sim.Ripe now := by
  refine ⟨(sim.deadlines.entries.map Prod.snd).sum, fun a deadline found ↦ ?_⟩
  have among : (a, deadline) ∈ sim.deadlines.entries := (Table.mem_entries_iff ..).2 found
  exact List.le_sum_of_mem (List.mem_map.2 ⟨(a, deadline), among, rfl⟩)

/-- There is a moment for every round. -/
theorem exists_ripeAlong (sim : Simulation) (count : Nat) :
    ∃ moments, moments.length = count ∧ sim.RipeAlong moments := by
  induction count generalizing sim with
  | zero => exact ⟨[], rfl, trivial⟩
  | succ count ih =>
    obtain ⟨now, ripe⟩ := sim.exists_ripe
    obtain ⟨later, enough, along⟩ := ih (sim.step (.flush now))
    exact ⟨now :: later, congrArg Nat.succ enough, ripe, along⟩

/-! ## Readings -/

/-- Rounds make no readings. -/
theorem Resting.rounds (h : sim.Resting) (moments : List Nat) :
    sim.Grows (sim.rounds moments) [] := by
  induction moments generalizing sim with
  | nil => exact .nothing h fun _ ↦ rfl
  | cons now later ih =>
    have first := h.step (.flush now)
    exact first.trans (ih first.resting)

/-- Rounds that bring everything to the sink add what was stored to the readings that it knew. -/
theorem Resting.tallyOf_rounds (h : sim.Resting) {moments : List Nat}
    (emptied : ∀ a n, (sim.rounds moments).network.nodes.get? a = some n → n.contents = [])
    (key : Collect.Key) : (sim.rounds moments).results.tallyOf key =
      sim.results.tallyOf key + sim.network.stored key := by
  have nothing : (sim.rounds moments).network.stored key = 0 :=
    Network.stored_eq_zero fun a n present ↦
      Node.recordsFor_of_contents_eq_nil (emptied a n present) Collect.jobId
  calc (sim.rounds moments).results.tallyOf key
      = (sim.rounds moments).known key := by rw [known, nothing, add_zero]
    _ = sim.known key + weigh (Collect.tallyUnder key) [] := (h.rounds moments).known key
    _ = sim.known key := add_zero _

/-! ## Sightings -/

/-- Rounds make no sightings. -/
theorem Gains.rounds (h : sim.network.Sights []) (moments : List Nat) :
    sim.Gains (sim.rounds moments) [] := by
  induction moments generalizing sim with
  | nil => exact .refl h
  | cons now later ih =>
    have flushed := Gains.call h (.flushDue now)
    have pumped := flushed.trans (.call flushed.sights .pump)
    exact pumped.trans (ih pumped.sights)

/-- A round is two calls. -/
theorem rounds_eq (sim : Simulation) (moments : List Nat) : sim.rounds moments =
    (moments.flatMap fun now ↦ [.flushDue now, .pump]).foldl call sim := by
  induction moments generalizing sim with
  | nil => rfl
  | cons now later ih => exact ih (sim.step (.flush now))

/-- Where no node has a detecting job, none gets one, and nothing is handed over as a sighting. -/
theorem chronicle_sightless : Chronicle fun net past ↦ net.Sightless ∧ Network.Silent past where
  lined h := h.1.lined
  discover h := ⟨h.1.discover.1, h.2.append h.1.discover.2⟩
  settle h := ⟨(h.1.settle pumpRounds).1, h.2.append (h.1.settle pumpRounds).2⟩
  flush h present urgent := ⟨(h.1.flush present urgent).1, h.2.append (h.1.flush present urgent).2⟩
  sow {net past address n} h present _ id elapsed fact value := by
    obtain ⟨gradient, closed⟩ := n.sow_keeps id elapsed fact value
    have here := (h.1.nodes address n present).congr (n.bindings_sow id elapsed fact value) closed
    exact ⟨h.1.update present here gradient net.medium, h.2⟩
  nextFlushDelay {net past address n} h present := by
    have gradient : n.nextFlushDelay.2.gradient = n.gradient := rfl
    have here : n.nextFlushDelay.2.Sightless := (h.1.nodes address n present).congr rfl rfl
    exact ⟨h.1.update present here gradient net.medium, h.2⟩

/-- Without detecting jobs the sink learns of no sightings, whatever the deployment is made to do.
-/
theorem contains_calls (h : sim.network.Sightless) (calls : List Call) (d : Detect.Detection) :
    (calls.foldl call sim).results.detections.contains d = true ↔
      sim.results.detections.contains d = true := by
  obtain ⟨-, silent⟩ := chronicle_sightless.calls ⟨h, Network.silent_nil⟩ calls
  rw [results_run, contains_absorb]
  exact or_iff_left (silent d.toBytes)

/-- Once everything is at the sink, it knows what it knew and what was stored. -/
theorem Gains.contains_iff {last : Simulation} (h : sim.Gains last [])
    (emptied : ∀ a n, last.network.nodes.get? a = some n → n.contents = [])
    (drained :
    ∀ a n, sim.network.nodes.get? a = some n → n.gradient.isSink = true → n.contents = [])
    (d : Detect.Detection) : last.results.detections.contains d = true ↔
      sim.results.detections.contains d = true ∨ sim.network.Known d.toBytes := by
  have nothing {n : Node} (empty : n.contents = []) : d.toBytes ∉ n.sightings := by
    rw [Node.sightings, Node.recordsFor_of_contents_eq_nil empty]
    exact List.not_mem_nil
  constructor
  · intro there
    rcases h.knows d (.inl there) with known | made
    · exact known
    · cases made
  · intro known
    have kept : sim.Keeps d := by
      rcases known with there | ⟨a, n, present, mem⟩
      · exact .inl there
      · cases sink : n.gradient.isSink with
        | true => exact absurd mem (nothing (drained a n present sink))
        | false => exact .inr ⟨a, n, present, sink, mem⟩
    rcases h.keeps d (.inl kept) with there | ⟨a, n, present, -, mem⟩
    · exact there
    · exact absurd mem (nothing (emptied a n present))

/-! ## From the beginning -/

variable {settings : Settings} {sources : Sources}

/-- Where sightings are not reported, no node has a detecting job. -/
theorem sightless_laidOut (off : settings.detect = false) (small : settings.nodes ≤ 65536)
    (sources : Sources) : (laidOut settings sources).network.Sightless where
  lined := (started_laidOut small sources).lined
  nodes := by
    refine laidOut_induction (P := fun net ↦ ∀ a n, net.nodes.get? a = some n → n.Sightless)
      (fun _ _ present ↦ nomatch present) fun _ h i _ ↦
        forall_get?_openNode ⟨able_freshNode i _ _ _, ?_⟩ h
    have other : Detect.jobId ≠ Collect.jobId := by decide
    simpa [Node.bindings, freshNode, accumulators, off] using other

/-- Rounds that bring everything to the sink add what was stored to the sightings that it knew. -/
theorem contains_rounds_of_emptied (unlimited : settings.tree.ramLimit = none)
    (small : settings.nodes ≤ 65536) (calls : List Call)
    (run : calls.foldl call (build settings sources) = sim) {moments : List Nat}
    (emptied : ∀ a n, (sim.rounds moments).network.nodes.get? a = some n → n.contents = [])
    (drained :
    ∀ a n, sim.network.nodes.get? a = some n → n.gradient.isSink = true → n.contents = [])
    (d : Detect.Detection) : (sim.rounds moments).results.detections.contains d = true ↔
      sim.results.detections.contains d = true ∨ sim.network.Known d.toBytes := by
  cases detecting : settings.detect with
  | true =>
    have sights : sim.network.Sights [] := by
      rw [← run]
      exact (Gains.run (sights_build detecting unlimited small sources).1 calls).sights
    exact (Gains.rounds sights moments).contains_iff emptied drained d
  | false =>
    have sightless : sim.network.Sightless := by
      rw [← run]
      exact (chronicle_sightless.run ⟨sightless_laidOut detecting small sources, Network.silent_nil⟩
        calls).1
    have unknown : ¬sim.network.Known d.toBytes := by
      rintro ⟨a, n, present, mem⟩
      exact (sightless.nodes a n present).not_mem_sightings d.toBytes mem
    rw [rounds_eq, contains_calls sightless, or_iff_left unknown]

/-- However a deployment was run whose nodes store without limit and whose radio loses nothing, and
whatever is drawn: if every node knows its distance and nothing is under way, then as long as a node
other than the sink stores something, each round in which all are due brings the records nearer to
the sink and leaves nothing under way. So after as many rounds as the records have hops to go
nothing is stored, and the sink has what it had and what was stored. -/
theorem rounds_empty (settings : Settings) (lossless : settings.loss.magnitude = 0)
    (unlimited : settings.tree.ramLimit = none) (small : settings.nodes ≤ 255)
    (roomy : 21 ≤ settings.tree.maxPayload) (sources : Sources) (calls : List Call)
    {sim : Simulation} (run : calls.foldl call (build settings sources) = sim)
    (routed : ∀ a n, sim.network.nodes.get? a = some n → n.gradient.isRouted = true)
    (quiet : sim.network.medium.pending = 0) :
    (∀ now, sim.Ripe now →
      (∃ a n, sim.network.nodes.get? a = some n ∧ n.gradient.isSink = false ∧ n.contents ≠ []) →
      let last := (sim.flushDue now).2.pump.2
      last.network.burden < sim.network.burden ∧ last.network.medium.pending = 0 ∧
        ∀ a n, last.network.nodes.get? a = some n →
          ∀ acc ∈ n.accumulators, ∀ r ∈ acc.records, r.isPending = false) ∧
    (∃ moments, moments.length = sim.network.burden ∧ sim.RipeAlong moments) ∧
    ∀ moments, sim.RipeAlong moments → sim.network.burden ≤ moments.length →
      let last := sim.rounds moments
      (∀ a n, last.network.nodes.get? a = some n → n.contents = []) ∧
      (∀ key, last.results.tallyOf key = sim.results.tallyOf key + sim.network.stored key) ∧
      ∀ d : Detect.Detection, last.results.detections.contains d = true ↔
        sim.results.detections.contains d = true ∨
          ∃ a n, sim.network.nodes.get? a = some n ∧
            ∃ r ∈ n.recordsFor Detect.jobId, r.key = d.toBytes := by
  have addressed : settings.nodes ≤ 65536 := by omega
  have few := last_lt_pumpRounds addressed
  have idle := (Medium.pending_eq_zero_iff _).1 quiet
  have steady : sim.Steady settings.tree.maxPayload (settings.nodes - 1) := by
    have timely := timely_run lossless unlimited addressed sources calls
    have sinkward := sinkward_run settings addressed sources calls
    rw [run] at timely sinkward
    exact ⟨timely, sinkward, timely.forwards.lined.standing_of_isRouted routed⟩
  refine ⟨fun now ripe stored ↦ ?_, sim.exists_ripeAlong _, fun moments ripe enough ↦ ?_⟩
  · obtain ⟨a, n, present, inner, full⟩ := stored
    have sent := steady.pending_pos few roomy ripe present inner full
    obtain ⟨settled, silent, less⟩ := steady.round few now
    show (sim.step (.flush now)).network.burden < _ ∧
      (sim.step (.flush now)).network.medium.pending = 0 ∧ _
    refine ⟨by omega, silent, fun a n present ↦ ?_⟩
    have here := settled.forwards.nodes a n present
    rw [(Medium.pending_eq_zero_iff _).1 silent] at here
    exact here.isPending_eq_false
  · obtain ⟨settled, less⟩ := steady.rounds few roomy ripe
    have emptied (a : Address) (n : Node)
        (present : (sim.rounds moments).network.nodes.get? a = some n) : n.contents = [] :=
      settled.forwards.contents_eq_nil settled.standing (by omega) present
    refine ⟨emptied, fun key ↦ ?_, fun d ↦ ?_⟩
    · have resting : sim.Resting := by
        refine ⟨steady.forwards.gathers idle, fun a ↦ ?_⟩
        rw [idle]
        rfl
      exact resting.tallyOf_rounds emptied key
    · rw [contains_rounds_of_emptied unlimited addressed calls run emptied steady.forwards.emptied]
      simp only [Network.Known, Node.sightings, List.mem_map]

/-- A sink and three sensors that see something whenever they sense, a radio that loses nothing, and
frames with room for one record. -/
def narrow : Settings :=
  { nodes := 4, loss := .ofDecimal false 0 0, detectRate := .ofDecimal false 1 0
    tree := { maxPayload := 21 } }

/-- Every sensor takes two readings, and the last one holds what it saw the second time. -/
def laden : List Call :=
  [.discover, .discover, .discover, .sense fun _ _ ↦ 0, .sense fun _ _ ↦ 1, .pump]

/-- Nine hops, which four rounds take away. -/
theorem rounds_empty_laden :
    (let sim := laden.foldl call (build narrow (.ofSeed 3));
      (∀ now, sim.Ripe now →
        (∃ a n, sim.network.nodes.get? a = some n ∧ n.gradient.isSink = false ∧ n.contents ≠ []) →
        let last := (sim.flushDue now).2.pump.2
        last.network.burden < sim.network.burden ∧ last.network.medium.pending = 0 ∧
          ∀ a n, last.network.nodes.get? a = some n →
            ∀ acc ∈ n.accumulators, ∀ r ∈ acc.records, r.isPending = false) ∧
      (∃ moments, moments.length = sim.network.burden ∧ sim.RipeAlong moments) ∧
      ∀ moments, sim.RipeAlong moments → sim.network.burden ≤ moments.length →
        let last := sim.rounds moments
        (∀ a n, last.network.nodes.get? a = some n → n.contents = []) ∧
        (∀ key, last.results.tallyOf key = sim.results.tallyOf key + sim.network.stored key) ∧
        ∀ d : Detect.Detection, last.results.detections.contains d = true ↔
          sim.results.detections.contains d = true ∨
            ∃ a n, sim.network.nodes.get? a = some n ∧
              ∃ r ∈ n.recordsFor Detect.jobId, r.key = d.toBytes) ∧
      (laden.foldl call (build narrow (.ofSeed 3))).network.burden = 9 ∧
      ((laden.foldl call (build narrow (.ofSeed 3))).rounds
        [60000000000, 120000000000, 180000000000, 240000000000]).network.burden = 0 := by
  have nodes : ∀ e ∈ (laden.foldl call (build narrow (.ofSeed 3))).network.nodes.entries,
      e.2.gradient.isRouted = true := by
    decide +kernel
  have emptied := rounds_empty narrow rfl rfl (by decide) (by decide) (.ofSeed 3) laden rfl
    (fun a n present ↦ nodes (a, n) ((Table.mem_entries_iff ..).2 present)) (by decide +kernel)
  exact ⟨emptied, by decide +kernel, by decide +kernel⟩

end Simulation
end CollectionTree
