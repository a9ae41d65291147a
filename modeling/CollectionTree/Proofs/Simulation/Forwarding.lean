import CollectionTree.Proofs.Network.Forwarding
import CollectionTree.Proofs.Simulation.Calls

/-!
# Forwarding in a deployment without losses

However a deployment is run whose radio loses nothing and whose nodes store without limit, every
frame under way is confirmed before its sender sends another one: `forwards_run`.
-/

namespace CollectionTree

/-- Merging tallies leaves a record as long as it was. -/
theorem Collect.keepsLength_job (x y : UInt8) (windowSecs : Nat) :
    (Collect.job x y windowSecs).KeepsLength := by
  intro r value
  show (Collect.reduce r value).length = r.length
  unfold Collect.reduce
  split
  · next stored further held incoming =>
    rw [Record.length, Record.length, Tally.eq_toBytes_of_ofBytes? held, Tally.length_toBytes,
      Tally.length_toBytes]
  · rfl

private theorem Detect.keepsLength_job : Detect.job.KeepsLength := fun _ _ ↦ rfl

namespace Simulation

variable {settings : Settings} {sources : Sources}

/-- A fresh node is in order. -/
theorem inOrder_freshNode (i : Nat) (address : Address) (config : NodeConfig) (source : Source) :
    (freshNode settings i address config source).InOrder := by
  have jobs : Jobs (freshNode settings i address config source).bindings :=
    jobs_freshNode i address config source
  have empty :
      ∀ acc ∈ (freshNode settings i address config source).accumulators, acc.records = [] :=
    records_accumulators i
  refine ⟨jobs.distinctIds, fun acc hacc ↦ ⟨(jobs.shaped_of_mem acc hacc).keeps, ?_, ?_⟩, ?_⟩
  · rcases jobs.cases_of_mem (List.mem_map.2 ⟨acc, hacc, rfl⟩) with
      ⟨-, x, y, windowSecs, job⟩ | ⟨-, job⟩
    · rw [job]
      exact Collect.keepsLength_job x y windowSecs
    · rw [job]
      exact Detect.keepsLength_job
  · rw [empty acc hacc]
    simp
  · symm
    apply List.sum_eq_zero
    intro cost mem
    obtain ⟨acc, hacc, rfl⟩ := List.mem_map.1 mem
    rw [Accumulator.footprint, empty acc hacc]
    rfl

private theorem forwards_freshNode (i : Nat) (address : Address) {config : NodeConfig}
    (unlimited : config.ramLimit = none) (source : Source) :
    (freshNode settings i address config source).Forwards config.maxPayload none := by
  have empty (id : UInt8) : (freshNode settings i address config source).recordsFor id = [] :=
    recordsFor_freshNode i address config source id
  refine ⟨rfl, rfl, jobs_freshNode i address config source,
    (collects_freshNode i address unlimited source).books,
    inOrder_freshNode i address config source, ?_, fun id ↦ ?_, rfl, fun _ ↦ rfl⟩
  · rw [empty]
    simp
  · rw [Node.pendingKeys, empty]
    rfl

/-- Nothing is under way at first, and every node's radio is open. -/
theorem forwards_laidOut (lossless : settings.loss.magnitude = 0)
    (unlimited : settings.tree.ramLimit = none) (small : settings.nodes ≤ 65536)
    (sources : Sources) :
    (laidOut settings sources).network.Forwards settings.tree.maxPayload [] := by
  have started := started_laidOut small sources
  have laid : (laidOut settings sources).network.medium.loss = .never ∧
      ∀ a n, (laidOut settings sources).network.nodes.get? a = some n →
        n.Forwards settings.tree.maxPayload none ∧
          (laidOut settings sources).network.medium.opened.contains a = true ∧ n.contents = [] := by
    refine laidOut_induction (P := fun net ↦ net.medium.loss = .never ∧
      ∀ a n, net.nodes.get? a = some n → n.Forwards settings.tree.maxPayload none ∧
        net.medium.opened.contains a = true ∧ n.contents = []) ?_ ?_
    · exact ⟨Chance.ofNumber_of_magnitude_eq_zero lossless, fun _ _ present ↦ nomatch present⟩
    · intro net h i _
      have limit : (nodeConfig settings i).ramLimit = none := unlimited
      have opened : (openNode settings sources net i).medium.opened =
          net.medium.opened.insert (.ofNat i) () := rfl
      refine ⟨h.1, ?_⟩
      rw [opened]
      refine forall_get?_openNode ⟨forwards_freshNode i _ limit _, ?_, ?_⟩ fun a n present ↦ ?_
      · simp [Table.contains]
      · exact Node.contents_eq_nil_iff.2 (records_accumulators i)
      · obtain ⟨forwards, there, empty⟩ := h.2 a n present
        exact ⟨forwards, Table.isSome_get?_insert there (.ofNat i) (), empty⟩
  have idle (a : Address) : (laidOut settings sources).network.medium.inFlight.get? a = none := by
    rw [started.quiet]
    rfl
  refine ⟨fun a n present ↦ ?_, started.lined, laid.1, fun a n present ↦ (laid.2 a n present).2.1,
    fun a n present _ ↦ (laid.2 a n present).2.2, by simp, fun a frame found ↦ ?_, by simp⟩
  · rw [idle]
    exact (laid.2 a n present).1
  · rw [idle] at found
    cases found

/-- No turn makes a frame come under way before its sender's last one was confirmed. -/
theorem invariant_forwards (size : Nat) : Invariant fun net ↦ net.Forwards size [] where
  lined h := h.lined
  discover h := h.discover
  settle h := h.settle pumpRounds
  flush h present urgent := h.flush present urgent
  sow h present inner id elapsed fact value := h.sow present inner id elapsed fact value
  nextFlushDelay h present := h.nextFlushDelay present

/-- Without losses the network forwards after any calls. -/
theorem forwards_run (lossless : settings.loss.magnitude = 0)
    (unlimited : settings.tree.ramLimit = none) (small : settings.nodes ≤ 65536)
    (sources : Sources) (calls : List Call) :
    (calls.foldl call (build settings sources)).network.Forwards settings.tree.maxPayload [] :=
  (invariant_forwards settings.tree.maxPayload).run
    (forwards_laidOut lossless unlimited small sources) calls

end Simulation
end CollectionTree
