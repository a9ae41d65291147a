import CollectionTree.Proofs.Network.Fitting
import CollectionTree.Proofs.Simulation.Forwarding

/-!
# Settings under which a deployment cannot move its records

Settings are accepted as soon as a frame has room for a record without key and value. The records of
a deployment are longer than that. For all settings, and whatever the deployment went through, a
flush by the clock has a frame taken exactly when the node stores a tally and frames have room for
21 bytes, or a sighting and frames have room for 9. So there are settings that are accepted and
under which a node with a parent and an idle radio sends nothing of what it stores.
-/

namespace CollectionTree
namespace Simulation

variable {settings : Settings} {sources : Sources}

/-! ## The invariant between two calls -/

private theorem fitted_freshNode {i : Nat} (small : i < 65536) (source : Source) :
    (freshNode settings i (.ofNat i) (nodeConfig settings i) source).Fitted settings.tree.maxPayload
      (Address.ofNat i).position where
  config := rfl
  jobs := jobs_freshNode i _ _ source
  collects := by
    refine ⟨0, settings.windowSecs, ?_⟩
    rw [Address.position, Address.toNat_ofNat small]
    unfold freshNode accumulators
    cases settings.detect with
    | false => exact List.mem_cons_self
    | true => exact List.mem_cons_self
  inOrder := inOrder_freshNode i _ _ source
  fits id := by
    rw [recordsFor_freshNode]
    simp

/-- A network that was laid out is fitted. -/
theorem fitted_laidOut (small : settings.nodes ≤ 65536) (sources : Sources) :
    (laidOut settings sources).network.Fitted settings.tree.maxPayload [] := by
  have started := started_laidOut small sources
  have nodes : ∀ a n, (laidOut settings sources).network.nodes.get? a = some n →
      n.Fitted settings.tree.maxPayload a.position :=
    laidOut_induction (P := fun net ↦ ∀ a n, net.nodes.get? a = some n →
      n.Fitted settings.tree.maxPayload a.position) (fun _ _ present ↦ nomatch present)
      fun _ h i hi ↦ forall_get?_openNode (fitted_freshNode (Nat.lt_of_lt_of_le hi small) _) h
  refine ⟨(fresh_laidOut settings sources).accounted, started.lined, nodes,
    (fun _ _ found ↦ nomatch found), fun a frame found ↦ ?_⟩
  rw [started.quiet] at found
  cases found

/-- No turn spoils the line, and none makes a node send that does not know its distance. -/
theorem chronicle_fitted (size : Nat) :
    Chronicle fun net past ↦ net.Fitted size [] ∧ Network.Near past where
  lined h := h.1.lined
  discover h := ⟨h.1.discover.fitted, h.2.append h.1.discover.near⟩
  settle h := ⟨(h.1.settle pumpRounds).fitted, h.2.append (h.1.settle pumpRounds).near⟩
  flush h present urgent :=
    ⟨(h.1.flush present urgent).fitted, h.2.append (h.1.flush present urgent).near⟩
  sow h present _ id elapsed fact value := ⟨h.1.sow present id elapsed fact value, h.2⟩
  nextFlushDelay h present := ⟨h.1.nextFlushDelay present, h.2⟩

/-- The network stays fitted along any calls, and frames come from near enough. -/
theorem fitted_run (small : settings.nodes ≤ 65536) (sources : Sources) (calls : List Call) :
    (calls.foldl call (build settings sources)).network.Fitted settings.tree.maxPayload [] ∧
      Network.Near ((build settings sources).wantedAlong calls) :=
  (chronicle_fitted settings.tree.maxPayload).run
    ⟨fitted_laidOut small sources, Network.near_nil⟩ calls

/-! ## Whether a flush sends -/

/-- Between two calls, a flush by the clock of a node with a parent and an idle radio has a frame
taken exactly if the node stores a tally and frames have room for one, or a sighting and frames have
room for that. Neither the ledgers nor the radio matter, and nothing else is asked of the settings
than that the line has no more nodes than there are addresses. -/
theorem flush_sends_iff (small : settings.nodes ≤ 65536) (sources : Sources) (calls : List Call)
    {a parent : Address} {n : Node}
    (present : (calls.foldl call (build settings sources)).network.nodes.get? a = some n)
    (inner : n.gradient.isSink = false) (route : n.gradient.parent = some parent)
    (idle : (calls.foldl call (build settings sources)).network.medium.isBusy a = false) :
    ((calls.foldl call (build settings sources)).flushNode a false).1 = true ↔
      21 ≤ settings.tree.maxPayload ∧ n.recordsFor Collect.jobId ≠ [] ∨
        9 ≤ settings.tree.maxPayload ∧ n.recordsFor Detect.jobId ≠ [] := by
  obtain ⟨fitted, -⟩ := fitted_run small sources calls
  generalize calls.foldl call (build settings sources) = sim at present idle fitted
  have here := fitted.accounted.nodes a n present
  have quiet : sim.network.medium.inFlight.get? a = none := by
    simpa [Medium.isBusy, Table.contains] using idle
  rw [quiet] at here
  have clear (id : UInt8) : Accumulator.pending (n.recordsFor id) = [] :=
    List.map_eq_nil_iff.1 (here.pendingKeys_eq_nil id)
  have answered : (sim.flushNode a false).1 =
      (n.flush (sim.network.medium.radio a) false).answer := by
    simp [flushNode, act?, Network.act?, present, Network.settleReaction]
  rw [answered]
  exact (fitted.nodes a n present).answer_flush_iff clear here.opened inner route idle
    (Medium.accepts_of_opened (fitted.accounted.attached a n present))

/-- A sink and a sensor that only counts, with frames one byte short of a tally. -/
def cramped : Settings :=
  { nodes := 2, loss := .ofDecimal false 0 0, detect := false, tree := { maxPayload := 20 } }

/-- The sensor hears the sink and takes a reading. -/
def oneReading : List Call :=
  [.discover, .sense fun _ _ ↦ 0]

/-- The sensor has a parent and an idle radio. -/
theorem exists_sensor_cramped :
    ∃ n,
      (oneReading.foldl call (build cramped (.ofSeed 1))).network.nodes.get? (.ofNat 1) = some n ∧
      n.gradient.isSink = false ∧ n.gradient.parent = some (.ofNat 0) ∧
      n.recordsFor Collect.jobId ≠ [] ∧ n.contents ≠ [] ∧
      (oneReading.foldl call (build cramped (.ofSeed 1))).network.medium.isBusy (.ofNat 1) =
        false := by
  obtain ⟨n, present⟩ := Option.isSome_iff_exists.1 (show
    ((oneReading.foldl call (build cramped (.ofSeed 1))).network.nodes.get?
        (.ofNat 1)).isSome = true by
      decide +kernel)
  have looks :
      ((oneReading.foldl call (build cramped (.ofSeed 1))).network.nodes.get? (.ofNat 1)).map
      (fun n ↦ (n.gradient.isSink, n.gradient.parent, (n.recordsFor Collect.jobId).isEmpty,
        n.contents.isEmpty)) = some (false, some (.ofNat 0), false, false) := by
    decide +kernel
  rw [present] at looks
  simp only [Option.map_some, Option.some.injEq, Prod.mk.injEq, List.isEmpty_eq_false_iff] at looks
  obtain ⟨inner, route, tallies, stored⟩ := looks
  exact ⟨n, present, inner, route, tallies, stored, by decide +kernel⟩

/-- The sensor has a tally, which its frames are too short for, and a flush sends nothing. -/
theorem flush_sends_iff_cramped :
    ∃ n,
      (oneReading.foldl call (build cramped (.ofSeed 1))).network.nodes.get? (.ofNat 1) = some n ∧
      n.recordsFor Collect.jobId ≠ [] ∧
      (((oneReading.foldl call (build cramped (.ofSeed 1))).flushNode (.ofNat 1) false).1 = true ↔
        21 ≤ 20 ∧ n.recordsFor Collect.jobId ≠ [] ∨ 9 ≤ 20 ∧ n.recordsFor Detect.jobId ≠ []) := by
  obtain ⟨n, present, inner, route, tallies, -, idle⟩ := exists_sensor_cramped
  exact ⟨n, present, tallies,
    flush_sends_iff (by decide) (.ofSeed 1) oneReading present inner route idle⟩

/-- Accepted settings do not make a flush send what is stored: with frames of 20 bytes none does. -/
theorem accepted_settings_stuck :
    ¬ ∀ (settings : Settings) (sources : Sources) (calls : List Call) (a parent : Address)
      (n : Node),
      settings.validate = .ok () → settings.nodes ≤ 65535 →
      (calls.foldl call (build settings sources)).network.nodes.get? a = some n →
      n.gradient.isSink = false → n.gradient.parent = some parent →
      (calls.foldl call (build settings sources)).network.medium.isBusy a = false →
      n.contents ≠ [] →
      ((calls.foldl call (build settings sources)).flushNode a false).1 = true := by
  intro moves
  obtain ⟨n, present, inner, route, -, stored, idle⟩ := exists_sensor_cramped
  have sent := moves cramped (.ofSeed 1) oneReading (.ofNat 1) (.ofNat 0) n rfl (by decide) present
    inner route idle stored
  have refused :
      ((oneReading.foldl call (build cramped (.ofSeed 1))).flushNode (.ofNat 1) false).1 =
        false := by
    decide +kernel
  rw [refused] at sent
  cases sent

end Simulation
end CollectionTree
