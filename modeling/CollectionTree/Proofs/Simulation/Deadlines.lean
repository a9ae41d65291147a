import CollectionTree.Proofs.Node.Jitter
import CollectionTree.Proofs.Simulation.Forwarding

/-!
# Deadlines

Every node that has a job and is not the sink flushes by the clock: it has a deadline from the
beginning, and gets a new one whenever it is flushed. No other call moves a deadline. `timely_run`
says so of every deployment without losses.
-/

namespace CollectionTree

/-- A node that is not the sink flushes again, as long as it has a job. -/
theorem Node.isSome_nextFlushDelay {n : Node} (inner : n.gradient.isSink = false)
    (jobs : n.accumulators ≠ []) : n.nextFlushDelay.1.isSome = true := by
  have spans : n.accumulators.map (·.interval) ≠ [] := fun none ↦ jobs (List.map_eq_nil_iff.1 none)
  obtain ⟨base, shortest⟩ := Option.isSome_iff_exists.1 (Duration.isSome_shortest spans)
  have clocked : (FlushSchedule.ofRole n.gradient.isSink).base (n.accumulators.map (·.interval)) =
      some base := by
    rw [inner]
    exact shortest
  simp only [nextFlushDelay, FlushSchedule.nextDelay, clocked]
  split <;> rfl

namespace Simulation

/-- A deployment without losses in which every node up to the last one but the sink has a deadline.
-/
structure Timely (size last : Nat) (sim : Simulation) : Prop where
  forwards : sim.network.Forwards size []
  timed : ∀ a : Address, 0 < a.toNat → a.toNat ≤ last → (sim.deadlines.get? a).isSome = true

variable {sim : Simulation} {size last : Nat}

/-! ## One node -/

/-- Flushing a node is an act of the network. -/
theorem network_flushNode (sim : Simulation) (address : Address) (urgent : Bool) :
    (sim.flushNode address urgent).2.network =
      sim.network.acted address fun radio n ↦ n.flush radio urgent := by
  cases present : sim.network.nodes.get? address with
  | none => rw [flushNode_of_absent present, Network.acted_of_absent present]
  | some n =>
    rw [flushNode_of_present present, Network.acted_of_present present]
    rfl

/-- Flushing a node keeps all deadlines. -/
theorem deadlines_flushNode (sim : Simulation) (address : Address) (urgent : Bool) :
    (sim.flushNode address urgent).2.deadlines = sim.deadlines := by
  cases present : sim.network.nodes.get? address with
  | none => rw [flushNode_of_absent present]
  | some n =>
    rw [flushNode_of_present present]
    rfl

private theorem deadlines_watchAt (clock : Address → UInt8 → Nat) (sim : Simulation)
    (address : Address) : (sim.watchAt clock address).deadlines = sim.deadlines := by
  unfold watchAt
  split
  · simp only
    split
    · exact deadlines_flushNode _ address true
    · rfl
  · rfl

private theorem deadlines_senseAmong (clock : Address → UInt8 → Nat) (sim : Simulation)
    (addresses : List Address) :
    (addresses.foldl (senseAt clock) sim).deadlines = sim.deadlines := by
  induction addresses generalizing sim with
  | nil => rfl
  | cons address rest ih =>
    rw [List.foldl_cons, ih]
    exact deadlines_watchAt clock (readAt clock sim address) address

/-- A new deadline for one node changes no other's. -/
theorem deadlines_schedule_of_ne {a address : Address} (other : a ≠ address) (now : Nat) :
    (sim.schedule now address).deadlines.get? a = sim.deadlines.get? a := by
  unfold schedule
  split
  · rfl
  · simp only
    split
    · exact Table.get?_insert_of_ne _ other _
    · rw [Table.get?_erase, if_neg]
      exact fun same ↦ other (Address.toNat_inj.1 same).symm

/-- A node that is not the sink gets a new deadline. -/
theorem isSome_deadline_schedule (forwards : sim.network.Forwards size []) {address : Address}
    (behind : 0 < address.toNat) (there : (sim.network.nodes.get? address).isSome = true)
    (now : Nat) :
    ((sim.schedule now address).deadlines.get? address).isSome = true := by
  obtain ⟨n, present⟩ := Option.isSome_iff_exists.1 there
  have inner := (forwards.lined.isSink_eq_false_iff present).2 behind
  have jobs : n.accumulators ≠ [] := by
    have bound := (forwards.nodes address n present).jobs
    intro none
    rw [Node.bindings, none] at bound
    cases bound
  obtain ⟨delay, drawn⟩ := Option.isSome_iff_exists.1 (Node.isSome_nextFlushDelay inner jobs)
  simp only [schedule, present, drawn, Table.get?_insert_self]
  rfl

/-- Setting a deadline leaves a deployment timely. -/
theorem Timely.schedule (h : sim.Timely size last) (now : Nat) (address : Address) :
    (sim.schedule now address).Timely size last where
  forwards := (invariant_forwards size).schedule h.forwards now address
  timed a behind near := by
    by_cases own : a = address
    · subst own
      cases there : (sim.network.nodes.get? a).isSome with
      | true => exact isSome_deadline_schedule h.forwards behind there now
      | false =>
        rw [schedule_of_absent (by simpa using there)]
        exact h.timed a behind near
    · rw [deadlines_schedule_of_ne own]
      exact h.timed a behind near

/-! ## Every sequence of calls -/

/-- What flushing one node and giving it a new deadline keeps, flushing all that are due keeps. -/
theorem flushDueAmong_induction {Q : Simulation → Prop} (now : Nat)
    (step : ∀ {sim} address, Q sim → Q ((sim.flushNode address false).2.schedule now address))
    (h : Q sim) (addresses : List Address) : Q (flushDueAmong now sim addresses).2 := by
  induction addresses generalizing sim with
  | nil => exact h
  | cons address rest ih =>
    rw [flushDueAmong]
    split
    · exact ih h
    · split
      · exact ih (step address h)
      · exact ih h

/-- Flushing a node leaves a deployment timely. -/
theorem Timely.flushNode (h : sim.Timely size last) (address : Address) (urgent : Bool) :
    (sim.flushNode address urgent).2.Timely size last where
  forwards := (invariant_forwards size).flushNode h.forwards address urgent
  timed := by
    rw [deadlines_flushNode]
    exact h.timed

/-- A call leaves a deployment timely. -/
theorem Timely.call (h : sim.Timely size last) (c : Call) : (sim.call c).Timely size last := by
  have forwards := (invariant_forwards size).call h.forwards c
  cases c with
  | discover => exact ⟨forwards, h.timed⟩
  | sense clock =>
    refine ⟨forwards, ?_⟩
    have same : (sim.call (.sense clock)).deadlines = sim.deadlines :=
      deadlines_senseAmong clock sim sim.sensors
    rw [same]
    exact h.timed
  | flushDue now =>
    exact flushDueAmong_induction now
      (fun address h ↦ (h.flushNode address false).schedule now address) h sim.network.nodes.keys
  | pump => exact ⟨forwards, h.timed⟩

/-! ## From the beginning -/

variable {settings : Settings} {sources : Sources}

/-- Every number below the settings' is a node's. -/
theorem isSome_laidOut (settings : Settings) (sources : Sources) {i : Nat}
    (hi : i < settings.nodes) :
    ((laidOut settings sources).network.nodes.get? (.ofNat i)).isSome = true := by
  have laid (numbers : List Nat) (net : Network)
      (known : i ∈ numbers ∨ (net.nodes.get? (.ofNat i)).isSome = true) :
      ((numbers.foldl (openNode settings sources) net).nodes.get? (.ofNat i)).isSome = true := by
    induction numbers generalizing net with
    | nil => exact known.resolve_left List.not_mem_nil
    | cons j rest ih =>
      apply ih
      by_cases same : Address.ofNat i = .ofNat j
      · rw [same, get?_openNode_self]
        exact .inr rfl
      · rw [get?_openNode_of_ne net same]
        refine known.imp (fun mem ↦ ?_) id
        rcases List.mem_cons.1 mem with rfl | mem
        · exact absurd rfl same
        · exact mem
  exact laid (List.range settings.nodes) _ (.inl (List.mem_range.2 hi))

/-- Whoever is there gets a first deadline. -/
theorem isSome_deadline_schedules {addresses : List Address}
    (forwards : sim.network.Forwards size []) {a : Address} (behind : 0 < a.toNat)
    (there : (sim.network.nodes.get? a).isSome = true)
    (known : a ∈ addresses ∨ (sim.deadlines.get? a).isSome = true) :
    ((addresses.foldl (·.schedule 0) sim).deadlines.get? a).isSome = true := by
  induction addresses generalizing sim with
  | nil => exact known.resolve_left List.not_mem_nil
  | cons address rest ih =>
    have stays : ((sim.schedule 0 address).network.nodes.get? a).isSome = true := by
      cases present : sim.network.nodes.get? address with
      | none =>
        rw [schedule_of_absent present]
        exact there
      | some n =>
        rw [network_schedule present]
        exact Table.isSome_get?_insert there address _
    refine ih ((invariant_forwards size).schedule forwards 0 address) stays ?_
    by_cases own : a = address
    · subst own
      exact .inr (isSome_deadline_schedule forwards behind there 0)
    · rw [deadlines_schedule_of_ne own]
      refine known.imp (fun mem ↦ ?_) id
      exact (List.mem_cons.1 mem).resolve_left own

/-- A deployment that was built is timely after any calls. -/
theorem timely_run (lossless : settings.loss.magnitude = 0)
    (unlimited : settings.tree.ramLimit = none) (small : settings.nodes ≤ 65536)
    (sources : Sources) (calls : List Call) :
    (calls.foldl call (build settings sources)).Timely settings.tree.maxPayload
      (settings.nodes - 1) := by
  have laid := forwards_laidOut lossless unlimited small sources
  have built : (build settings sources).Timely settings.tree.maxPayload (settings.nodes - 1) := by
    refine ⟨forwards_run lossless unlimited small sources [], fun a behind near ↦ ?_⟩
    have own : Address.ofNat a.toNat = a := by
      rw [← Address.toNat_inj, Address.toNat_ofNat a.toNat_lt]
    have there := isSome_laidOut settings sources (i := a.toNat) (by omega)
    rw [own] at there
    rw [build_eq]
    exact isSome_deadline_schedules laid behind there (.inl (Table.mem_keys_iff.2 there))
  exact List.foldlRecOn (motive := fun sim : Simulation ↦
    sim.Timely settings.tree.maxPayload (settings.nodes - 1)) calls _ built fun _ h c _ ↦ h.call c

end Simulation
end CollectionTree
