import CollectionTree.Proofs.Network.Quieting
import CollectionTree.Proofs.Network.Sightings

/-!
# Networks that report no sightings

Where no node has a detecting job, none gets one, and no turn hands the sink a sighting.
-/

namespace CollectionTree

namespace Node

/-- An open node without a detecting job. -/
structure Sightless (n : Node) : Prop extends n.Able where
  unbound : Detect.jobId ∉ n.bindings.map Prod.fst

namespace Sightless

variable {n n' : Node} (h : n.Sightless)

include h

/-- Whether a node sees anything depends on what is bound to it and on whether it was closed. -/
theorem congr (bindings : n'.bindings = n.bindings) (closed : n'.closed = n.closed) :
    n'.Sightless :=
  ⟨h.toAble.congr bindings closed, bindings ▸ h.unbound⟩

private theorem recordsFor_eq_nil : n.recordsFor Detect.jobId = [] := by
  apply List.eq_nil_iff_forall_not_mem.2
  intro r hr
  obtain ⟨acc, hacc, id, -⟩ := exists_of_mem_recordsFor hr
  have bound : (acc.id, acc.job) ∈ n.bindings := List.mem_map.2 ⟨acc, hacc, rfl⟩
  exact h.unbound (List.mem_map.2 ⟨_, bound, id⟩)

/-- A node without a detecting job holds no sighting. -/
theorem not_mem_sightings (key : Bytes) : key ∉ n.sightings := by
  rw [sightings, h.recordsFor_eq_nil]
  exact List.not_mem_nil

/-- A flush hands nothing over that is not there. -/
theorem flush (radio : Radio) (urgent : Bool) :
    (n.flush radio urgent).state.Sightless ∧ ∀ key, ¬Hands (n.flush radio urgent).outputs key := by
  constructor
  · exact h.congr (bindings_flush h.distinct radio urgent) (flush_keeps h.distinct radio urgent).2
  · intro key
    have step := flushed_flush h.distinct radio urgent
    generalize n.flush radio urgent = reaction at step ⊢
    cases step with
    | consumed sink =>
      intro handed
      exact h.not_mem_sightings key ((hands_consumption h.distinct).1 handed)
    | idle | taken | refused => simp [Hands]

private theorem takingIn (payload : Bytes) : (n.takingIn payload).Sightless :=
  h.congr (n.bindings_takingIn payload) (n.closed_takingIn payload)

end Sightless
end Node

namespace Network

/-- The sink is handed no sighting. -/
def Silent (outputs : List (Address × Output)) : Prop := ∀ key, ¬Handed outputs key

/-- Without outputs the sink is handed nothing. -/
theorem silent_nil : Silent [] := fun _ ↦ not_hands_nil

/-- Two lots of outputs without sightings are one. -/
theorem Silent.append {outputs more : List (Address × Output)} (h : Silent outputs)
    (h' : Silent more) : Silent (outputs ++ more) := by
  intro key handed
  rcases (handed_append outputs more).1 handed with first | later
  · exact h key first
  · exact h' key later

/-- What one node wants done reaches the sink only from that node. -/
theorem silent_map_pair {outputs : List Output} (silent : ∀ key, ¬Node.Hands outputs key)
    (address : Address) : Silent (outputs.map (address, ·)) :=
  fun key handed ↦ silent key ((handed_map_pair address outputs).1 handed)

/-- A line without detecting jobs. -/
structure Sightless (net : Network) : Prop where
  lined : net.Lined
  nodes : ∀ a n, net.nodes.get? a = some n → n.Sightless

namespace Sightless

variable {net : Network} {address : Address} {n : Node} (h : net.Sightless)

include h

/-- A node changes without moving, and gets no detecting job. -/
theorem update (present : net.nodes.get? address = some n) {n' : Node} (sightless : n'.Sightless)
    (gradient : n'.gradient = n.gradient) (medium : Medium) :
    Sightless { net with nodes := net.nodes.insert address n', medium } where
  lined := h.lined.insert present n' gradient medium
  nodes := Table.forall_get?_insert sightless fun a m _ found ↦ h.nodes a m found

/-- After a flush there is still no detecting job, and the sink was handed no sighting. -/
theorem flush (present : net.nodes.get? address = some n) (urgent : Bool) :
    let r := net.settleReaction address (n.flush (net.medium.radio address) urgent)
    r.state.Sightless ∧ Silent r.outputs := by
  intro r
  have here := h.nodes address n present
  obtain ⟨sightless, silent⟩ := here.flush (net.medium.radio address) urgent
  have state : r.state = _ :=
    settleReaction_of_flushed (Node.flushed_flush here.distinct (net.medium.radio address) urgent)
  constructor
  · rw [state]
    exact h.update present sightless
      (Node.flush_keeps here.distinct (net.medium.radio address) urgent).1 _
  · exact silent_map_pair silent address

/-! ## Signals -/

private theorem tell (event : Address × Signal) :
    (net.tell Node.onSignal event).Sightless ∧ Silent (net.toldOutputs Node.onSignal event) := by
  obtain ⟨address, signal⟩ := event
  cases present : net.nodes.get? address with
  | none =>
    rw [Network.tell, acted_of_absent present, toldOutputs_of_absent present]
    exact ⟨h, silent_nil⟩
  | some n =>
    have here := h.nodes address n present
    rw [toldOutputs_of_present present]
    cases signal with
    | received sender payload =>
      have taken := here.takingIn payload
      obtain ⟨sightless, silent⟩ := taken.flush (net.medium.radio address) true
      have stands := (Node.flush_keeps taken.distinct (net.medium.radio address) true).1
      rw [tell_received present here.opened here.distinct, Node.onSignal_received here.opened]
      constructor
      · exact h.update present sightless (stands.trans (n.gradient_takingIn payload)) _
      · exact silent_map_pair silent address
    | sent target retries =>
      rw [tell_sent present here.opened, Node.onSignal_sent here.opened]
      constructor
      · exact h.update present (here.congr n.bindings_confirmed rfl) rfl net.medium
      · exact silent_nil
    | timedOut target retries =>
      rw [tell_timedOut present here.opened, Node.onSignal_timedOut here.opened]
      constructor
      · exact h.update present (here.congr n.bindings_givenUp rfl) rfl net.medium
      · exact silent_nil

private theorem deliver (events : List (Address × Signal)) :
    (net.deliver Node.onSignal events).state.Sightless ∧
      Silent (net.deliver Node.onSignal events).outputs := by
  induction events generalizing net with
  | nil => exact ⟨h, silent_nil⟩
  | cons event rest ih =>
    obtain ⟨told, silent⟩ := h.tell event
    obtain ⟨later, silent'⟩ := ih told
    rw [deliver_cons]
    exact ⟨later, silent.append silent'⟩

private theorem pump : net.pump.state.Sightless ∧ Silent net.pump.outputs := by
  have quiet : net.settledMedium.Sightless := ⟨h.lined.congr (fun _ ↦ rfl) rfl, h.nodes⟩
  exact quiet.deliver net.medium.pump.1

/-- After settling there is still no detecting job, and the sink was handed no sighting. -/
theorem settle (rounds : Nat) :
    (net.settle rounds).state.Sightless ∧ Silent (net.settle rounds).outputs := by
  induction rounds generalizing net with
  | zero => exact ⟨h, silent_nil⟩
  | succ rounds ih =>
    obtain ⟨pumped, silent⟩ := h.pump
    rw [Network.settle]
    split
    · exact ⟨pumped, silent⟩
    · obtain ⟨later, silent'⟩ := ih pumped
      exact ⟨later, silent.append silent'⟩

/-! ## Discovery -/

/-- After a round of discovery there is still no detecting job, and the sink was handed no sighting.
-/
theorem discover : net.discover.state.Sightless ∧ Silent net.discover.outputs := by
  refine discover_induction (P := Sightless) (T := fun _ _ outputs ↦ Silent outputs)
    (fun h ↦ h.lined) (fun h present ↦ (h.nodes _ _ present).opened) (fun _ ↦ silent_nil)
    Silent.append (fun {net address n beacon} h present heard ↦ ?_) h
  have here := h.nodes address n present
  have lined := h.lined.heard present here.opened heard
  obtain ⟨gradient, cycles, board, -, told⟩ := tell_beacon present here.opened beacon
  rw [told] at lined ⊢
  constructor
  · exact ⟨lined, Table.forall_get?_insert (here.congr rfl rfl) fun a m _ found ↦ h.nodes a m found⟩
  · exact silent_map_pair (fun _ ↦ not_hands_onBeacon n beacon) address

end Sightless
end Network
end CollectionTree
