import CollectionTree.Proofs.Network.Forwarding
import CollectionTree.Proofs.Network.Quieting

/-!
# How far the records have to go

The burden of a network is the sum of the hops that every stored record is away from the sink. A
flush leaves it as it is. Where nothing is lost and every node knows its distance, every arrival
takes each of the records in the frame at least one hop nearer, so a pump takes at least as much
away as frames were under way: `Forwards.burden_pump`.
-/

namespace CollectionTree

/-- The hops that a node's records have still to go, all together. -/
def Node.burden (n : Node) : Nat := n.gradient.hop.toNat * n.contents.length

namespace Network

/-- The hops that all stored records have still to go. -/
def burden (net : Network) : Nat := (net.nodes.values.map Node.burden).sum

/-- Every node knows its distance. -/
def Standing (net : Network) : Prop :=
  ∀ a n, net.nodes.get? a = some n → n.gradient = lineGradient a ∧ a.toNat < 255

variable {net : Network} {address sender : Address} {n m : Node} {frame : Outgoing}
  {waiting : List (Address × Outgoing)} {size : Nat}

/-- Putting a node into the place of another exchanges their burdens, in whatever board and medium.
-/
theorem burden_insert (present : net.nodes.get? address = some n) (n' : Node) (board : Board)
    (medium : Medium) :
    burden { net with nodes := net.nodes.insert address n', board, medium } + n.burden =
      net.burden + n'.burden :=
  Table.sum_values_insert Node.burden present n'

/-- A node's records are among all. -/
theorem burden_le (present : net.nodes.get? address = some n) : n.burden ≤ net.burden := by
  have replaced := burden_insert present { n with accumulators := [] } net.board net.medium
  have nothing : Node.burden { n with accumulators := [] } = 0 := Nat.mul_zero _
  omega

/-! ## Standing -/

/-- On a line whose nodes are all routed every node knows its distance. -/
theorem Lined.standing_of_isRouted (h : net.Lined)
    (routed : ∀ a n, net.nodes.get? a = some n → n.gradient.isRouted = true) : net.Standing := by
  intro a n present
  rcases h.standing a n present with ⟨unrouted, -⟩ | placed
  · have knows := routed a n present
    rw [unrouted] at knows
    cases knows
  · exact placed

namespace Standing

variable (h : net.Standing)

include h

private theorem hop (present : net.nodes.get? address = some n) :
    n.gradient.hop.toNat = address.toNat := by
  obtain ⟨stands, near⟩ := h address n present
  rw [stands, toNat_hop_lineGradient near]

private theorem isRouted (present : net.nodes.get? address = some n) :
    n.gradient.isRouted = true := by
  obtain ⟨stands, -⟩ := h address n present
  rw [stands, lineGradient]
  split
  · rfl
  · rfl

/-- A node may be replaced by one that stands where it stood. -/
theorem insert (present : net.nodes.get? address = some n) {n' : Node}
    (gradient : n'.gradient = n.gradient) (board : Board) (medium : Medium) :
    Standing { net with nodes := net.nodes.insert address n', board, medium } := by
  apply Table.forall_get?_insert
  · rw [gradient]
    exact h address n present
  · exact fun a m _ found ↦ h a m found

/-- A flush moves no node. -/
theorem flush (present : net.nodes.get? address = some n) (distinct : n.DistinctIds)
    (urgent : Bool) :
    (net.settleReaction address (n.flush (net.medium.radio address) urgent)).state.Standing := by
  rw [settleReaction_of_flushed (Node.flushed_flush distinct _ urgent)]
  exact h.insert present (Node.flush_keeps distinct (net.medium.radio address) urgent).1 net.board _

end Standing

/-! ## Flushing -/

/-- A flush moves nothing. -/
theorem Forwards.burden_flush (h : net.Forwards size []) (present : net.nodes.get? address = some n)
    (urgent : Bool) :
    (net.settleReaction address (n.flush (net.medium.radio address) urgent)).state.burden =
      net.burden := by
  have here := h.nodes address n present
  have after := (here.flush rfl (h.willing present) urgent).1
  obtain ⟨drained, kept⟩ := here.contents_flush (net.medium.radio address) urgent after
  have stands := (Node.flush_keeps here.distinct (net.medium.radio address) urgent).1
  have same : (n.flush (net.medium.radio address) urgent).state.burden = n.burden := by
    rw [Node.burden, Node.burden, stands]
    cases sink : n.gradient.isSink with
    | true => rw [drained sink, h.emptied address n present sink]
    | false => rw [kept sink]
  have replaced := burden_insert present (n.flush (net.medium.radio address) urgent).state net.board
    (net.medium.carrying address
      (Node.takenFrame? (n.flush (net.medium.radio address) urgent).outputs))
  rw [settleReaction_of_flushed (Node.flushed_flush here.distinct _ urgent)]
  omega

/-- A node that stores something sends some of it when it is flushed, unless a frame of it is under
way already. -/
theorem Forwards.sends (h : net.Forwards size []) (standing : net.Standing) (roomy : 21 ≤ size)
    (present : net.nodes.get? address = some n) (inner : n.gradient.isSink = false)
    (some : n.contents ≠ []) :
    ((net.settleReaction address
      (n.flush (net.medium.radio address) false)).state.medium.inFlight.get? address).isSome =
        true := by
  have here := h.nodes address n present
  rw [settleReaction_of_flushed (Node.flushed_flush here.distinct _ false)]
  show ((net.medium.carrying address _).inFlight.get? address).isSome = true
  rw [Medium.get?_carrying]
  cases flying : net.medium.inFlight.get? address with
  | some frame => rw [Option.isSome_or, Option.isSome_some, Bool.or_true]
  | none =>
    rw [flying] at here
    have free := Medium.busy_radio_of_free flying
    rw [Option.or_none]
    exact Node.Forwards.sends here inner (standing.isRouted present) free
      (h.willing present) roomy some

/-! ## Arrivals -/

/-- A node that hears from another one stores no more than it did and what arrived. -/
theorem Passing.length_le (h : net.Passing size sender frame m n) :
    ((n.takingIn frame.payload).flush (net.medium.radio frame.target) true).state.contents.length ≤
      n.contents.length + Node.cargo frame := by
  obtain ⟨drained, kept⟩ := h.taken.contents_flush (net.medium.radio frame.target) true h.relayed
  have length := h.idle.length_takingIn_le h.taken
  cases sink : (n.takingIn frame.payload).gradient.isSink with
  | true =>
    rw [drained sink]
    exact Nat.zero_le _
  | false =>
    rw [kept sink]
    exact length

/-- What arrives has one hop less to go. -/
theorem Passing.burden_lt (h : net.Passing size sender frame m n) (standing : net.Standing) :
    (net.passed (sender, frame)).Standing ∧
      (net.passed (sender, frame)).burden + 1 ≤ net.burden := by
  let flushed := (n.takingIn frame.payload).flush (net.medium.radio frame.target) true
  have stands : flushed.state.gradient = n.gradient :=
    (Node.flush_keeps h.taken.distinct (net.medium.radio frame.target) true).1.trans
      (n.gradient_takingIn frame.payload)
  let told : Network := { net with nodes := net.nodes.insert sender m.confirmed }
  have near : told.nodes.get? frame.target = some n := h.near_confirmed
  have kept : m.confirmed.gradient = m.gradient := rfl
  have confirmed : told.Standing := standing.insert h.far kept net.board net.medium
  rw [h.state]
  refine ⟨confirmed.insert near stands net.board _, ?_⟩
  -- The sender loses what the frame carried, and the receiver gets at most as much.
  have lost := h.sent.length_confirmed
  have cargo : 0 < Node.cargo frame := h.sent.cargo_pos h.hops.loaded
  have gained : flushed.state.contents.length ≤ n.contents.length + Node.cargo frame := h.length_le
  have farther : m.gradient.hop.toNat = n.gradient.hop.toNat + 1 := by
    rw [standing.hop h.far, standing.hop h.near, h.hops.next]
  have less : m.burden = m.confirmed.burden + m.gradient.hop.toNat * Node.cargo frame := by
    rw [Node.burden, Node.burden, kept, ← lost, Nat.mul_add]
  have more : flushed.state.burden ≤ n.burden + n.gradient.hop.toNat * Node.cargo frame := by
    rw [Node.burden, Node.burden, stands, ← Nat.mul_add]
    exact Nat.mul_le_mul_left _ gained
  have hops : m.gradient.hop.toNat * Node.cargo frame =
      n.gradient.hop.toNat * Node.cargo frame + Node.cargo frame := by
    rw [farther, Nat.add_mul, Nat.one_mul]
  have first : told.burden + m.burden = net.burden + m.confirmed.burden :=
    burden_insert h.far m.confirmed net.board net.medium
  have second := burden_insert near flushed.state told.board
    (net.medium.carrying frame.target (Node.takenFrame? flushed.outputs))
  show burden { told with
    nodes := told.nodes.insert frame.target flushed.state
    medium := net.medium.carrying frame.target (Node.takenFrame? flushed.outputs) } + 1 ≤ net.burden
  omega

/-! ## Whole turns -/

/-- A pump takes at least as much away as frames were under way. -/
theorem Forwards.burden_pump (h : net.Forwards size []) (standing : net.Standing) :
    net.pump.state.Standing ∧ net.pump.state.burden + net.medium.pending ≤ net.burden := by
  obtain ⟨-, later, less⟩ := h.pump_induction (P := fun net' waiting _ ↦
      net'.Standing ∧ net'.burden + net.medium.pending ≤ net.burden + waiting.length)
    (fun passing _ before ↦ by
      obtain ⟨standing, less⟩ := passing.burden_lt before.1
      have total := before.2
      rw [List.length_cons] at total
      exact ⟨standing, by omega⟩) [] ⟨standing, Nat.le_refl _⟩
  exact ⟨later, less⟩

/-- So does pumping until the radio is quiet. -/
theorem Forwards.burden_quiets
    {last : Reaction (List (List (Address × Signal))) Network (Address × Output)}
    (quiets : net.Quiets last) (h : net.Forwards size []) (standing : net.Standing) :
    last.state.Standing ∧ last.state.burden + net.medium.pending ≤ net.burden := by
  induction quiets with
  | quiet silent => exact h.burden_pump standing
  | @round net last told more ih =>
    obtain ⟨first, less⟩ := h.burden_pump standing
    obtain ⟨later, less'⟩ := ih h.pump first
    exact ⟨later, by show last.state.burden + _ ≤ _; omega⟩

/-! ## Nothing left -/

/-- Where something has a way to go, a node that is not the sink stores it. -/
theorem Forwards.exists_contents_of_burden_pos (h : net.Forwards size [])
    (loaded : 0 < net.burden) :
    ∃ a n, net.nodes.get? a = some n ∧ n.gradient.isSink = false ∧ n.contents ≠ [] := by
  by_contra nothing
  refine absurd loaded (Nat.not_lt.2 (Nat.le_of_eq ?_))
  apply Table.sum_values_eq_zero
  intro a n present
  have empty : n.contents = [] := by
    cases sink : n.gradient.isSink with
    | true => exact h.emptied a n present sink
    | false =>
      by_contra full
      exact nothing ⟨a, n, present, sink, full⟩
  rw [Node.burden, empty]
  rfl

/-- Where nothing has any way to go, nothing is stored. -/
theorem Forwards.contents_eq_nil (h : net.Forwards size []) (standing : net.Standing)
    (nothing : net.burden = 0) (present : net.nodes.get? address = some n) : n.contents = [] := by
  cases sink : n.gradient.isSink with
  | true => exact h.emptied address n present sink
  | false =>
    have behind : 0 < address.toNat := (h.lined.isSink_eq_false_iff present).1 sink
    have none : n.gradient.hop.toNat * n.contents.length = 0 := by
      have among : n.burden ≤ net.burden := burden_le present
      rw [Node.burden] at among
      omega
    rw [standing.hop present] at none
    rcases Nat.mul_eq_zero.1 none with first | empty
    · omega
    · exact List.eq_nil_of_length_eq_zero empty

end Network
end CollectionTree
