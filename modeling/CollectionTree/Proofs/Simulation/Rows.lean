import CollectionTree.Proofs.Network.Rows
import CollectionTree.Proofs.Simulation.Fitting

/-!
# Rows of a deployment

The key of a row names a position with the low byte of an address, so positions repeat along a line
of more than 256 nodes. Rows are about one node all the same: a node from 255 on never has a parent
and never sends, and what the others sow is about their own position. So every reading in a row was
sown by the node at the position, and is there once.
-/

namespace CollectionTree
namespace Simulation

variable {settings : Settings} {sources : Sources}

/-! ## What reaches the sink -/

private theorem rowOf_absorb (results : Results) (outputs : List (Address × Output))
    (key : Collect.Key) :
    (absorb results outputs).rowOf key = results.rowOf key + delivered key (outputs.map Prod.snd) :=
  measure_absorb (·.rowOf key) (Collect.rowUnder key)
    (fun results job about value ↦ results.rowOf_record job about value key) results outputs

private theorem results_build (settings : Settings) (sources : Sources) :
    (build settings sources).results = {} := by
  rw [build_eq]
  exact List.foldlRecOn (motive := fun sim : Simulation ↦ sim.results = {}) _ _ rfl
    fun sim h address _ ↦ (results_schedule sim 0 address).trans h

/-! ## The account of a row -/

/-- Nothing is stored and nothing is under way in a deployment that was just laid out. -/
theorem follows_laidOut (small : settings.nodes ≤ 65536) (sources : Sources) (key : Collect.Key) :
    (laidOut settings sources).network.Follows settings.tree.maxPayload key [] [] [] := by
  have empty : ∀ a n, (laidOut settings sources).network.nodes.get? a = some n →
      n.recordsFor Collect.jobId = [] :=
    laidOut_induction (P := fun net ↦ ∀ a n, net.nodes.get? a = some n →
      n.recordsFor Collect.jobId = []) (fun _ _ present ↦ nomatch present)
      fun _ h i _ ↦ forall_get?_openNode (recordsFor_freshNode i _ _ _ _) h
  have held : (laidOut settings sources).network.heldAt key = fun _ ↦ 0 := by
    funext a
    cases present : (laidOut settings sources).network.nodes.get? a with
    | none => rw [Network.heldAt, present, Option.map_none, Option.getD_none]
    | some n => rw [Network.heldAt_of_present present, Node.held, empty a n present, weigh_nil]
  have flying : (laidOut settings sources).network.flyingAt key = fun _ ↦ 0 := by
    funext a
    rw [Network.flyingAt, (started_laidOut small sources).quiet]
    rfl
  refine ⟨fitted_laidOut small sources, [], ?_⟩
  rw [held, flying]
  exact .start key

/-- No turn puts a reading where the trail does not have it. -/
theorem annals_follows (size : Nat) (key : Collect.Key) :
    Annals fun net past sown ↦ net.Follows size key sown [] past where
  lined h := h.fitted.lined
  discover h := h.discover
  settle h := h.settle pumpRounds
  flush h present urgent := h.flush present urgent
  collect h present inner elapsed fact value := h.collect present inner elapsed fact value
  detect h present _ elapsed fact value := h.sow_of_ne present (by decide) elapsed fact value
  nextFlushDelay h present := h.nextFlushDelay present

/-- The readings in a row are some of those that were sown, by nodes that know their distance and
are not the sink, about their own position. -/
theorem exists_merged (small : settings.nodes ≤ 65536) (sources : Sources) (calls : List Call)
    {key : Collect.Key} {tally : Collect.Tally}
    (row : (calls.foldl call (build settings sources)).results.readings.get? key = some tally) :
    ∃ merged : List Sowing, merged ≠ [] ∧ (∀ s ∈ merged, s.Own ∧ s.reading.key = key) ∧
      (merged.map Sowing.entry).Sublist ((build settings sources).sownAlong calls) ∧
      tally = Collect.tallyOver key (merged.map Sowing.reading) := by
  obtain ⟨-, trail, traced⟩ :=
    (annals_follows settings.tree.maxPayload key).run (follows_laidOut small sources key) calls
  have arrived : (calls.foldl call (build settings sources)).results.rowOf key =
      weigh (Collect.rowUnder key)
        (((trail.among .row).map Sowing.reading).map Collect.Reading.record) := by
    rw [results_run, results_build, rowOf_absorb, ← traced.row, Trail.weight_eq, List.map_map]
    exact zero_add _
  rw [show (calls.foldl call (build settings sources)).results.rowOf key =
      (tally : WithZero Collect.Tally) from row, Collect.weigh_map_record_row] at arrived
  split at arrived
  · exact absurd arrived WithZero.coe_ne_zero
  next some =>
  have own : ∀ s ∈ trail.among .row, s.Own := by
    intro s mem
    obtain ⟨e, he, rfl⟩ := List.mem_map.1 mem
    exact traced.own e (List.mem_filter.1 he).1
  have sown : ((trail.among .row).map Sowing.entry).Sublist
      ((build settings sources).sownAlong calls) := by
    rw [Trail.among, List.map_map]
    exact (List.filter_sublist.map _).trans traced.history
  rw [List.filter_map] at some
  refine ⟨(trail.among .row).filter (·.reading.key = key), fun none ↦ some ?_, fun s mem ↦ ?_,
    (List.filter_sublist.map _).trans sown, ?_⟩
  · exact List.map_eq_nil_iff.2 none
  · obtain ⟨mem, about⟩ := List.mem_filter.1 mem
    exact ⟨own s mem, by simpa using about⟩
  · rw [WithZero.coe_inj.1 arrived, ← Collect.tallyOver_filter, List.filter_map]
    rfl

/-- However a deployment is run and whatever is drawn, every row at the sink is about a position
between 1 and 254, and is the tally of readings that the node at this position sowed under its key,
each of them there once. Nodes from 255 on have no parent, and nothing is sent by them. -/
theorem rows_of_one_node (settings : Settings) (small : settings.nodes ≤ 65536) (sources : Sources)
    (calls : List Call) :
    let start := build settings sources
    let sim := calls.foldl call start
    (∀ key tally, sim.results.readings.get? key = some tally →
      1 ≤ key.x.toNat ∧ key.x.toNat ≤ 254 ∧
      ∃ merged : List Sowing, merged ≠ [] ∧
        (∀ s ∈ merged, s.address.toNat = key.x.toNat ∧ s.reading.key = key) ∧
        (merged.map Sowing.entry).Sublist (start.sownAlong calls) ∧
        tally = Collect.tallyOver key (merged.map Sowing.reading)) ∧
      (∀ a n, sim.network.nodes.get? a = some n → 255 ≤ a.toNat → n.gradient.parent = none) ∧
      ∀ a frame accepted, (a, Output.offer frame accepted) ∈ start.wantedAlong calls →
        a.toNat ≤ 254 := by
  intro start sim
  obtain ⟨fitted, near⟩ := fitted_run small sources calls
  refine ⟨fun key tally row ↦ ?_, fun a n present far ↦ ?_, fun a frame accepted mem ↦ ?_⟩
  · obtain ⟨merged, some, own, sown, same⟩ := exists_merged small sources calls row
    have placed (s : Sowing) (mem : s ∈ merged) : s.address.toNat = key.x.toNat := by
      rw [← (own s mem).2]
      exact (own s mem).1.toNat_address
    obtain ⟨first, mem⟩ := List.exists_mem_of_ne_nil merged some
    obtain ⟨behind, near, -⟩ := (own first mem).1
    rw [placed first mem] at behind near
    exact ⟨behind, by omega, merged, some, fun s mem ↦ ⟨placed s mem, (own s mem).2⟩, sown, same⟩
  · by_contra routed
    have near := fitted.lined.near present routed
    omega
  · have near := near a frame accepted mem
    omega

/-- Both sensors take a reading, and that of the first reaches the sink. -/
def oneRow : List Call :=
  [.discover, .discover, .sense fun _ _ ↦ 0, .flushDue 60000000000, .pump]

/-- The row of the first sensor comes from its one reading. -/
theorem rows_of_one_node_oneRow :
    (let start := build lineOfThree (.ofSeed 1)
      let sim := oneRow.foldl call start
      (∀ key tally, sim.results.readings.get? key = some tally →
        1 ≤ key.x.toNat ∧ key.x.toNat ≤ 254 ∧
        ∃ merged : List Sowing, merged ≠ [] ∧
          (∀ s ∈ merged, s.address.toNat = key.x.toNat ∧ s.reading.key = key) ∧
          (merged.map Sowing.entry).Sublist (start.sownAlong oneRow) ∧
          tally = Collect.tallyOver key (merged.map Sowing.reading)) ∧
        (∀ a n, sim.network.nodes.get? a = some n → 255 ≤ a.toNat → n.gradient.parent = none) ∧
        ∀ a frame accepted, (a, Output.offer frame accepted) ∈ start.wantedAlong oneRow →
          a.toNat ≤ 254) ∧
      (oneRow.foldl call (build lineOfThree (.ofSeed 1))).results.readings.keys = [⟨0, 1, 0, 1⟩] ∧
      ((build lineOfThree (.ofSeed 1)).sownAlong oneRow).map Prod.fst = [.ofNat 1, .ofNat 2] :=
  ⟨rows_of_one_node lineOfThree (by decide) (.ofSeed 1) oneRow, by decide +kernel,
    by decide +kernel⟩

end Simulation
end CollectionTree
