import CollectionTree.Proofs.Network.Quieting
import CollectionTree.Proofs.Simulation.Calls

/-!
# A deployment becomes quiet

However a deployment was run, pumping it comes to an end, after no more rounds than the last node is
hops away from the sink (`quiets_run`). The bound that `Simulation.pump` puts on the rounds is never
reached.
-/

namespace CollectionTree
namespace Simulation

variable {settings : Settings} {sources : Sources} {last : Nat}

/-- Where the last node is fewer hops away than pumping has rounds, no turn sends a frame away from
the sink. -/
theorem invariant_sinkward (few : last < pumpRounds) :
    Invariant fun net ↦ net.Sinkward last last where
  lined h := h.lined
  discover h := h.discover
  settle h := by
    obtain ⟨r, quiets, short, kept⟩ := h.exists_quiets
    rw [quiets.settle_eq (Nat.lt_of_le_of_lt short few)]
    exact kept
  flush h present urgent := by
    obtain ⟨able, near⟩ := h.able _ _ present
    rw [Network.settleReaction_of_flushed (Node.flushed_flush able.distinct _ urgent)]
    exact h.flush present near able rfl urgent
  sow {net address n} h present _ id elapsed fact value := by
    obtain ⟨able, -⟩ := h.able address n present
    obtain ⟨gradient, closed⟩ := n.sow_keeps id elapsed fact value
    exact h.insert present (able.congr (n.bindings_sow id elapsed fact value) closed) gradient
  nextFlushDelay h present := h.insert present ((h.able _ _ present).1.congr rfl rfl) rfl

/-- A fresh node is able to send. -/
theorem able_freshNode (i : Nat) (address : Address) (config : NodeConfig) (source : Source) :
    (freshNode settings i address config source).Able :=
  ⟨rfl, (jobs_freshNode i address config source).distinctIds⟩

/-- The nodes of a line are numbered from the sink, and nothing is under way at first. -/
theorem sinkward_laidOut (small : settings.nodes ≤ 65536) (sources : Sources) :
    (laidOut settings sources).network.Sinkward (settings.nodes - 1) (settings.nodes - 1) where
  lined := (started_laidOut small sources).lined
  able := by
    refine laidOut_induction (P := fun net ↦ ∀ a n, net.nodes.get? a = some n →
      n.Able ∧ a.toNat ≤ settings.nodes - 1) (fun _ _ present ↦ nomatch present) ?_
    intro net h i hi
    refine forall_get?_openNode ⟨able_freshNode i _ _ _, ?_⟩ h
    rw [Address.toNat_ofNat (Nat.lt_of_lt_of_le hi small)]
    omega
  flying a frame found := by
    rw [(started_laidOut small sources).quiet] at found
    cases found

/-- The last node of a line is fewer hops away than pumping has rounds. -/
theorem last_lt_pumpRounds (small : settings.nodes ≤ 65536) : settings.nodes - 1 < pumpRounds := by
  unfold pumpRounds
  omega

/-- All frames are on their way to the sink after any calls. -/
theorem sinkward_run (settings : Settings) (small : settings.nodes ≤ 65536) (sources : Sources)
    (calls : List Call) : (calls.foldl call (build settings sources)).network.Sinkward
      (settings.nodes - 1) (settings.nodes - 1) :=
  (invariant_sinkward (last_lt_pumpRounds small)).run (sinkward_laidOut small sources) calls

/-- A pump goes on until the radio is quiet. -/
theorem exists_pump_eq {sim : Simulation} (few : last < pumpRounds)
    (h : sim.network.Sinkward last last) :
    ∃ r, sim.network.Quiets r ∧ r.answer.length ≤ last ∧
      sim.pump = (r.answer.flatten.length, sim.continueWith r) := by
  obtain ⟨r, quiets, short, -⟩ := h.exists_quiets
  refine ⟨r, quiets, short, ?_⟩
  show ((sim.network.settle pumpRounds).answer.flatten.length, _) = _
  rw [quiets.settle_eq (Nat.lt_of_le_of_lt short few)]

/-- However a deployment was run and whatever is drawn, pumping it comes to an end: no more pumps
have something to tell than there are nodes behind the sink, and then one has nothing to tell. A
line has no more nodes than there are addresses of two bytes. -/
theorem quiets_run (settings : Settings) (small : settings.nodes ≤ 65536) (sources : Sources)
    (calls : List Call) :
    let sim := calls.foldl call (build settings sources)
    ∃ last, sim.network.Quiets last ∧ last.answer.length ≤ settings.nodes - 1 ∧
      sim.pump = (last.answer.flatten.length, sim.continueWith last) := by
  intro sim
  have few : settings.nodes - 1 < pumpRounds := by
    unfold pumpRounds
    omega
  exact exists_pump_eq few (sinkward_run settings small sources calls)

/-- A sink and three sensors that see something whenever they sense. -/
def alarmed : Settings := { nodes := 4, detectRate := .ofDecimal false 1 0 }

/-- Every sensor knows its parent, and all of them send at once. -/
def oneAlarm : List Call := [.discover, .discover, .discover, .sense fun _ _ ↦ 0]

/-- As many pumps have something to tell as there are sensors. -/
theorem quiets_run_oneAlarm :
    (let sim := oneAlarm.foldl call (build alarmed (.ofSeed 1))
      ∃ last, sim.network.Quiets last ∧ last.answer.length ≤ alarmed.nodes - 1 ∧
        sim.pump = (last.answer.flatten.length, sim.continueWith last)) ∧
      ((oneAlarm.foldl call (build alarmed (.ofSeed 1))).network.settle
        pumpRounds).answer.map List.length = [6, 4, 2] :=
  ⟨quiets_run alarmed (by decide) (.ofSeed 1) oneAlarm, by decide +kernel⟩

end Simulation
end CollectionTree
