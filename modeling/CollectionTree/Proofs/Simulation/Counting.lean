import CollectionTree.Proofs.Network.Counting
import CollectionTree.Proofs.Simulation.Quieting

/-!
# Frames counted in a deployment

The medium counts a frame when it settles it, the nodes count it when they are told, and sends come
and go in between; still both agree between any two calls: `frames_agree`.
-/

namespace CollectionTree
namespace Simulation

open Network (Counts issued)

variable {settings : Settings} {sources : Sources} {last : Nat}

/-- Where the last node is fewer hops away than pumping has rounds, no turn makes nodes and medium
disagree. -/
theorem chronicle_counted (few : last < pumpRounds) :
    Chronicle fun net past ↦ net.Sinkward last last ∧ net.Counted past where
  lined h := h.1.lined
  discover h := ⟨h.1.discover, h.2.discover h.1⟩
  settle h := ⟨(invariant_sinkward few).settle h.1, (h.2.settle h.1 pumpRounds).1⟩
  flush {net past address n} h present urgent := by
    have distinct := (h.1.able address n present).1.distinct
    have counts : Counts net _ _ 0 := .flush h.2.manned h.1.lined present rfl (add_zero _).symm
      distinct urgent
    refine ⟨(invariant_sinkward few).flush h.1 present urgent, ?_⟩
    rw [← Network.settleReaction_of_flushed (Node.flushed_flush distinct _ urgent)] at counts
    exact h.2.turn counts
  sow {net past address n} h present inner id elapsed fact value := by
    have counts : Counts net _ [] 0 := .insert h.2.manned h.1.lined present
      ((n.frames_sow id elapsed fact value).trans (add_zero _).symm) rfl net.board
    have after := h.2.turn counts
    rw [List.append_nil] at after
    exact ⟨(invariant_sinkward few).sow h.1 present inner id elapsed fact value, after⟩
  nextFlushDelay {net past address n} h present := by
    have same : n.nextFlushDelay.2.counters.frames = n.counters.frames + 0 := rfl
    have counts : Counts net _ [] 0 := .insert h.2.manned h.1.lined present same rfl net.board
    have after := h.2.turn counts
    rw [List.append_nil] at after
    exact ⟨(invariant_sinkward few).nextFlushDelay h.1 present, after⟩

/-- Nothing was counted at first. -/
theorem counted_laidOut (small : settings.nodes ≤ 65536) (sources : Sources) :
    (laidOut settings sources).network.Counted [] := by
  have none : (laidOut settings sources).network.medium.inFlight = .empty :=
    (started_laidOut small sources).quiet
  have zero : (laidOut settings sources).network.medium.stats = {} ∧
      ∀ a n, (laidOut settings sources).network.nodes.get? a = some n → n.counters = {} := by
    refine laidOut_induction (P := fun net ↦ net.medium.stats = {} ∧
      ∀ a n, net.nodes.get? a = some n → n.counters = {})
        ⟨rfl, fun _ _ present ↦ nomatch present⟩ ?_
    exact fun net h i _ ↦ ⟨h.1, forall_get?_openNode rfl h.2⟩
  refine ⟨fun a frame found ↦ ?_, ?_, ?_⟩
  · rw [none] at found
    cases found
  · rw [zero.1]
    apply Table.sum_values_eq_zero
    intro a n present
    rw [zero.2 a n present]
    rfl
  · rw [zero.1, Medium.pending, none]
    rfl

private theorem frames_eq (nodes : List Node) :
    (nodes.map fun n ↦ n.counters.frames).sum = ((nodes.map fun n ↦ n.stats.counters.sent).sum,
      (nodes.map fun n ↦ n.stats.counters.received).sum,
      (nodes.map fun n ↦ n.stats.counters.timedOut).sum) := by
  induction nodes with
  | nil => rfl
  | cons n rest ih =>
    simp only [List.map_cons, List.sum_cons, ih]
    rfl

/-- However a deployment is run and whatever is drawn, between two calls the nodes together
confirmed and received as many frames as the medium delivered, and gave up as many as the medium;
every frame that was ever taken is under way, delivered or given up; and a pump has two events for
each frame that it delivers and one for each that it gives up. A line has no more nodes than there
are addresses of two bytes. -/
theorem frames_agree (settings : Settings) (small : settings.nodes ≤ 65536) (sources : Sources)
    (calls : List Call) :
    let sim := calls.foldl call (build settings sources)
    let total := fun count : Counters → Nat ↦
      (sim.network.nodes.values.map fun n ↦ count n.stats.counters).sum
    let counted := sim.network.medium.stats
    total Counters.sent = counted.delivered ∧ total Counters.received = counted.delivered ∧
      total Counters.timedOut = counted.timedOut ∧
      sim.network.medium.pending + counted.delivered + counted.timedOut =
        issued ((build settings sources).wantedAlong calls) ∧
      ∃ arrived givenUp,
        sim.pump.2.network.medium.stats.delivered = counted.delivered + arrived ∧
        sim.pump.2.network.medium.stats.timedOut = counted.timedOut + givenUp ∧
        sim.pump.1 = 2 * arrived + givenUp := by
  intro sim total counted
  obtain ⟨sinkward, agreed⟩ := (chronicle_counted (last_lt_pumpRounds small)).run
    ⟨sinkward_laidOut small sources, counted_laidOut small sources⟩ calls
  have frames := agreed.agrees
  rw [Network.counted, frames_eq, MediumStats.frames, Prod.mk.injEq, Prod.mk.injEq] at frames
  obtain ⟨sent, received, timedOut⟩ := frames
  exact ⟨sent, received, timedOut, agreed.issued, (agreed.settle sinkward pumpRounds).2⟩

/-- A sink and three sensors that see something whenever they sense, and a radio that tries once. -/
def lossy : Settings :=
  { nodes := 4, loss := .ofDecimal false 6 (-1), detectRate := .ofDecimal false 1 0
    tree := { maxRetries := 0 } }

/-- All sensors send, some frames are lost, and sensors send again. -/
def twoAlarms : List Call :=
  [.discover, .discover, .discover, .sense fun _ _ ↦ 0, .pump, .sense fun _ _ ↦ 1]

/-- Of six frames two were delivered, two were given up, and two are under way. -/
theorem frames_agree_twoAlarms :
    (let sim := twoAlarms.foldl call (build lossy (.ofSeed 1))
      let total := fun count : Counters → Nat ↦
        (sim.network.nodes.values.map fun n ↦ count n.stats.counters).sum
      let counted := sim.network.medium.stats
      total Counters.sent = counted.delivered ∧ total Counters.received = counted.delivered ∧
        total Counters.timedOut = counted.timedOut ∧
        sim.network.medium.pending + counted.delivered + counted.timedOut =
          issued ((build lossy (.ofSeed 1)).wantedAlong twoAlarms) ∧
        ∃ arrived givenUp,
          sim.pump.2.network.medium.stats.delivered = counted.delivered + arrived ∧
          sim.pump.2.network.medium.stats.timedOut = counted.timedOut + givenUp ∧
          sim.pump.1 = 2 * arrived + givenUp) ∧
      (twoAlarms.foldl call (build lossy (.ofSeed 1))).network.medium.stats = ⟨4, 2, 2, 2⟩ ∧
      issued ((build lossy (.ofSeed 1)).wantedAlong twoAlarms) = 6 :=
  ⟨frames_agree lossy (by decide) (.ofSeed 1) twoAlarms, by decide +kernel, by decide +kernel⟩

end Simulation
end CollectionTree
