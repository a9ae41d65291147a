import CollectionTree.Proofs.Network.Burden
import CollectionTree.Proofs.Network.Locality
import CollectionTree.Proofs.Simulation.Conservation
import CollectionTree.Proofs.Simulation.Deadlines
import CollectionTree.Proofs.Simulation.Quieting

/-!
# Rounds that empty the nodes

In a round every node that is due is flushed, and the radio is settled. If all are due, each node
that stores something sends some of it (`Steady.pending_pos`), and whatever is sent comes nearer to
the sink while nothing goes the other way (`Steady.round`). So there are no more rounds to go than
the records have hops: `Steady.rounds`.
-/

namespace CollectionTree
namespace Simulation

/-- Every deadline has come. -/
def Ripe (sim : Simulation) (now : Nat) : Prop :=
  ∀ a deadline, sim.deadlines.get? a = some deadline → deadline ≤ now

/-- Every deadline has come whenever a round begins. -/
def RipeAlong : Simulation → List Nat → Prop
  | _, [] => True
  | sim, now :: later => sim.Ripe now ∧ RipeAlong (sim.step (.flush now)) later

/-- The deployment after a round at each of some moments. -/
def rounds (sim : Simulation) (moments : List Nat) : Simulation :=
  (moments.map Step.flush).foldl step sim

/-- A deployment without losses in which every node knows its distance. -/
structure Steady (size last : Nat) (sim : Simulation) : Prop extends Timely size last sim where
  sinkward : sim.network.Sinkward last last
  standing : sim.network.Standing

/-- Nodes were flushed by the clock. Nothing moved, and what was under way still is. -/
structure Flushes (size last : Nat) (sim sim' : Simulation) : Prop where
  steady : sim'.Steady size last
  burden : sim'.network.burden = sim.network.burden
  flying : ∀ a, (sim.network.medium.inFlight.get? a).isSome = true →
    (sim'.network.medium.inFlight.get? a).isSome = true

variable {sim sim' : Simulation} {size last : Nat} {address : Address} {n : Node}

private theorem Flushes.trans {last' : Simulation} (h : sim.Flushes size last sim')
    (h' : sim'.Flushes size last last') : sim.Flushes size last last' where
  steady := h'.steady
  burden := h'.burden.trans h.burden
  flying a flying := h'.flying a (h.flying a flying)

/-! ## One node -/

private theorem Steady.flushNode (few : last < pumpRounds) (h : sim.Steady size last)
    (address : Address) :
    sim.Flushes size last (sim.flushNode address false).2 := by
  have timely := h.toTimely.flushNode address false
  have sinkward := (invariant_sinkward few).flushNode h.sinkward address false
  cases present : sim.network.nodes.get? address with
  | none =>
    rw [flushNode_of_absent present]
    exact ⟨h, rfl, fun _ flying ↦ flying⟩
  | some n =>
    have distinct := (h.forwards.nodes address n present).distinct
    have standing := h.standing.flush present distinct false
    have burden := h.forwards.burden_flush present false
    rw [flushNode_of_present present] at timely sinkward ⊢
    refine ⟨⟨timely, sinkward, standing⟩, burden, fun a flying ↦ ?_⟩
    show ((sim.network.settleReaction address _).state.medium.inFlight.get? a).isSome = true
    rw [Network.settleReaction_of_flushed (Node.flushed_flush distinct _ false)]
    exact Medium.isSome_get?_carrying _ flying address _

private theorem Steady.schedule (few : last < pumpRounds) (h : sim.Steady size last) (now : Nat)
    (address : Address) : sim.Flushes size last (sim.schedule now address) := by
  have timely := h.toTimely.schedule now address
  have sinkward := (invariant_sinkward few).schedule h.sinkward now address
  cases present : sim.network.nodes.get? address with
  | none =>
    rw [schedule_of_absent present]
    exact ⟨h, rfl, fun _ flying ↦ flying⟩
  | some n =>
    have gradient : n.nextFlushDelay.2.gradient = n.gradient := rfl
    have same : n.nextFlushDelay.2.burden = n.burden := rfl
    have replaced := Network.burden_insert present n.nextFlushDelay.2 sim.network.board
      sim.network.medium
    have standing := h.standing.insert present gradient sim.network.board sim.network.medium
    rw [← network_schedule present now] at replaced standing
    refine ⟨⟨timely, sinkward, standing⟩, by omega, fun a flying ↦ ?_⟩
    rw [network_schedule present]
    exact flying

private theorem get?_flushNode_of_ne {a : Address} (other : a ≠ address) (urgent : Bool) :
    (sim.flushNode address urgent).2.network.nodes.get? a = sim.network.nodes.get? a := by
  rw [network_flushNode]
  exact congrArg Network.Site.node ((Network.local_acted address _).elsewhere sim.network a other)

private theorem get?_schedule_of_ne {a : Address} (other : a ≠ address) (now : Nat) :
    (sim.schedule now address).network.nodes.get? a = sim.network.nodes.get? a := by
  cases present : sim.network.nodes.get? address with
  | none => rw [schedule_of_absent present]
  | some n =>
    rw [network_schedule present]
    exact Table.get?_insert_of_ne _ other _

/-! ## One round -/

private theorem Steady.flushDueAmong (few : last < pumpRounds) (h : sim.Steady size last)
    (now : Nat) (addresses : List Address) :
    sim.Flushes size last (Simulation.flushDueAmong now sim addresses).2 := by
  refine flushDueAmong_induction (Q := fun sim' ↦ sim.Flushes size last sim') now ?_ ?_ addresses
  · intro sim' address flushes
    have flushed := flushes.steady.flushNode few address
    exact (flushes.trans flushed).trans (flushed.steady.schedule few now address)
  · exact ⟨h, rfl, fun _ flying ↦ flying⟩

/-- A node that stores something sends when its deadline has come. -/
theorem Steady.sends (few : last < pumpRounds) (roomy : 21 ≤ size) (h : sim.Steady size last)
    (present : sim.network.nodes.get? address = some n) (inner : n.gradient.isSink = false)
    (full : n.contents ≠ []) {now deadline : Nat} (due : sim.deadlines.get? address = some deadline)
    (ripe : deadline ≤ now) {addresses : List Address} (mem : address ∈ addresses) :
    ((Simulation.flushDueAmong now sim addresses).2.network.medium.inFlight.get? address).isSome =
      true := by
  induction addresses generalizing sim with
  | nil => cases mem
  | cons b rest ih =>
    rw [Simulation.flushDueAmong]
    by_cases own : b = address
    · subst own
      have flushed := h.flushNode few b
      have scheduled := flushed.steady.schedule few now b
      simp only [due, if_pos ripe]
      apply (scheduled.steady.flushDueAmong few now rest).flying
      apply scheduled.flying
      rw [flushNode_of_present present]
      exact h.forwards.sends h.standing roomy present inner full
    · have later : address ∈ rest := (List.mem_cons.1 mem).resolve_left fun same ↦ own same.symm
      have other : address ≠ b := fun same ↦ own same.symm
      cases sim.deadlines.get? b with
      | none => exact ih h present due later
      | some first =>
        by_cases early : first ≤ now
        · have flushed := h.flushNode few b
          have scheduled := flushed.steady.schedule few now b
          simp only [if_pos early]
          apply ih scheduled.steady ?_ ?_ later
          · rw [get?_schedule_of_ne other, get?_flushNode_of_ne other, present]
          · rw [deadlines_schedule_of_ne other, deadlines_flushNode, due]
        · simp only [if_neg early]
          exact ih h present due later

/-- If every deadline has come and something is stored away from the sink, frames come under way. -/
theorem Steady.pending_pos (few : last < pumpRounds) (roomy : 21 ≤ size) (h : sim.Steady size last)
    {now : Nat} (ripe : sim.Ripe now) (present : sim.network.nodes.get? address = some n)
    (inner : n.gradient.isSink = false) (full : n.contents ≠ []) :
    0 < (sim.flushDue now).2.network.medium.pending := by
  have behind := (h.forwards.lined.isSink_eq_false_iff present).1 inner
  obtain ⟨deadline, due⟩ := Option.isSome_iff_exists.1
    (h.timed address behind (h.sinkward.able address n present).2)
  have mem : address ∈ sim.network.nodes.keys := by
    apply Table.mem_keys_iff.2
    rw [Table.contains, present]
    rfl
  have flying := h.sends few roomy present inner full due (ripe address deadline due) mem
  apply Nat.pos_of_ne_zero
  intro quiet
  have idle := (Medium.pending_eq_zero_iff _).1 quiet address
  have nothing : (sim.flushDue now).2.network.medium.inFlight.get? address ≠ none :=
    Option.isSome_iff_ne_none.1 flying
  exact nothing idle

/-- After a round nothing is under way, and the records are nearer to the sink by as many hops as
frames were sent, at least. -/
theorem Steady.round (few : last < pumpRounds) (h : sim.Steady size last) (now : Nat) :
    (sim.step (.flush now)).Steady size last ∧
      (sim.step (.flush now)).network.medium.pending = 0 ∧
      (sim.step (.flush now)).network.burden + (sim.flushDue now).2.network.medium.pending ≤
        sim.network.burden := by
  have flushed : sim.Flushes size last (sim.flushDue now).2 :=
    h.flushDueAmong few now sim.network.nodes.keys
  have timely := flushed.steady.toTimely.call .pump
  have sinkward := (invariant_sinkward few).call flushed.steady.sinkward .pump
  obtain ⟨r, quiets, -, pumped⟩ := exists_pump_eq few flushed.steady.sinkward
  have settled : sim.step (.flush now) = (sim.flushDue now).2.continueWith r :=
    congrArg Prod.snd pumped
  obtain ⟨standing, less⟩ := flushed.steady.forwards.burden_quiets quiets flushed.steady.standing
  refine ⟨⟨timely, sinkward, ?_⟩, ?_, ?_⟩
  · rw [settled]
    exact standing
  · rw [settled]
    exact (Medium.pending_eq_zero_iff _).2 quiets.idle
  · rw [settled, ← flushed.burden]
    exact less

/-! ## All rounds -/

/-- Each round takes at least one hop away, until there is none left. -/
theorem Steady.rounds (few : last < pumpRounds) (roomy : 21 ≤ size) (h : sim.Steady size last)
    {moments : List Nat} (ripe : sim.RipeAlong moments) :
    (sim.rounds moments).Steady size last ∧
      (sim.rounds moments).network.burden ≤ sim.network.burden - moments.length := by
  induction moments generalizing sim with
  | nil => exact ⟨h, Nat.le_refl _⟩
  | cons now later ih =>
    obtain ⟨first, ripe⟩ := ripe
    obtain ⟨steady, -, less⟩ := h.round few now
    obtain ⟨settled, less'⟩ := ih steady ripe
    refine ⟨settled, ?_⟩
    show ((sim.step (.flush now)).rounds later).network.burden ≤ _
    rw [List.length_cons]
    rcases Nat.eq_zero_or_pos sim.network.burden with none | loaded
    · omega
    · obtain ⟨a, n, present, inner, full⟩ := h.forwards.exists_contents_of_burden_pos loaded
      have sent := h.pending_pos few roomy first present inner full
      omega

end Simulation
end CollectionTree
