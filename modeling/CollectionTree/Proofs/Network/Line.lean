import CollectionTree.Proofs.Network.Steps

/-!
# Discovery along a line

On a line every node learns its distance from the node before it, whatever was announced when: a
node that has a parent stands one hop behind it, so frames only ever move toward the sink. `Lined`
is the invariant, and `Lined.heard` says that a beacon keeps it.
-/

namespace CollectionTree

/-- Where the node at an address of the line stands once it knows its distance. -/
def lineGradient (address : Address) : Gradient :=
  if address.toNat = 0 then .sink
  else ⟨some (.ofNat (address.toNat - 1)), address.toNat.toUInt8, false⟩

/-- One address comes right behind the other. -/
def Beside (a b : Address) : Prop := a.toNat + 1 = b.toNat ∨ b.toNat + 1 = a.toNat

/-- Whoever hears whom comes right before or behind. -/
def Board.Straight (board : Board) : Prop :=
  ∀ a neighbors, board.links.get? a = some neighbors → ∀ b ∈ neighbors.keys, Beside a b

/-- A node of the line is as many hops from the sink as its address says. -/
theorem toNat_hop_lineGradient {address : Address} (near : address.toNat < 255) :
    (lineGradient address).hop.toNat = address.toNat := by
  unfold lineGradient
  split
  · next first => simp [first, Gradient.sink]
  · simp
    omega

private theorem eq_unroutedHop_iff {hop : UInt8} : hop = unroutedHop ↔ hop.toNat = 255 := by
  rw [← UInt8.toNat_inj]
  rfl

namespace Network

/-- The node at an address knows its distance. -/
def Routed (net : Network) (address : Address) : Prop :=
  ∃ n, net.nodes.get? address = some n ∧ n.gradient.hop ≠ unroutedHop

/-- A hop count that the node at an address may announce. -/
def Credible (net : Network) (address : Address) (hop : UInt8) : Prop :=
  hop = unroutedHop ∨ net.Routed address ∧ hop.toNat = address.toNat + 1

/-- Nodes know nothing yet or stand where they are on the line, those before them do too, and what
is announced is true. -/
structure Lined (net : Network) : Prop where
  standing : ∀ a n, net.nodes.get? a = some n →
    n.gradient = .unrouted ∧ 0 < a.toNat ∨ n.gradient = lineGradient a ∧ a.toNat < 255
  upward : ∀ a, net.Routed a → 0 < a.toNat → net.Routed (.ofNat (a.toNat - 1))
  announced : ∀ a hop, net.board.announcedBy a = some hop → net.Credible a hop
  straight : net.board.Straight

variable {net net' : Network} {address : Address} {n : Node}

private theorem Credible.mono {hop : UInt8} (h : net.Credible address hop)
    (routed : net.Routed address → net'.Routed address) : net'.Credible address hop :=
  h.imp id (And.imp_left routed)

/-- Where the nodes stand and what the board knows is all that counts. -/
theorem Lined.congr (h : net.Lined)
    (gradients : ∀ a, (net'.nodes.get? a).map (·.gradient) = (net.nodes.get? a).map (·.gradient))
    (board : net'.board = net.board) : net'.Lined := by
  have routed (a : Address) : net'.Routed a ↔ net.Routed a := by
    have standing (net : Network) : net.Routed a ↔
        ∃ g, (net.nodes.get? a).map (·.gradient) = some g ∧ g.hop ≠ unroutedHop := by
      constructor
      · rintro ⟨n, present, routed⟩
        exact ⟨n.gradient, by simp [present], routed⟩
      · rintro ⟨g, found, routed⟩
        obtain ⟨n, present, rfl⟩ := Option.map_eq_some_iff.1 found
        exact ⟨n, present, routed⟩
    rw [standing, standing, gradients]
  constructor
  · intro a n' present
    have same := gradients a
    rw [present, Option.map_some] at same
    obtain ⟨n, present, same⟩ := Option.map_eq_some_iff.1 same.symm
    rw [← same]
    exact h.standing a n present
  · intro a
    rw [routed, routed]
    exact h.upward a
  · intro a hop announced
    rw [board] at announced
    exact (h.announced a hop announced).mono (routed a).2
  · rw [board]
    exact h.straight

/-- A node changes, but not where it stands. -/
theorem Lined.insert (h : net.Lined) (present : net.nodes.get? address = some n) (n' : Node)
    (gradient : n'.gradient = n.gradient) (medium : Medium) :
    Lined { net with nodes := net.nodes.insert address n', medium } := by
  refine h.congr (fun a ↦ ?_) rfl
  by_cases own : a = address
  · subst own
    simp [present, gradient]
  · rw [Table.get?_insert_of_ne _ own]

/-- A parent is one of the nodes and nearer to the sink. -/
theorem Lined.parent (h : net.Lined) (present : net.nodes.get? address = some n)
    {parent : Address} (route : n.gradient.parent = some parent) :
    parent.toNat < address.toNat ∧ (net.nodes.get? parent).isSome := by
  rcases h.standing address n present with ⟨unrouted, -⟩ | ⟨standing, near⟩
  · rw [unrouted] at route
    cases route
  · have routed : net.Routed address := by
      refine ⟨n, present, fun none ↦ ?_⟩
      rw [standing, eq_unroutedHop_iff, toNat_hop_lineGradient near] at none
      omega
    rw [standing, lineGradient] at route
    split at route
    · cases route
    · next behind =>
      obtain rfl := Option.some.inj route
      obtain ⟨m, present, -⟩ := h.upward address routed (by omega)
      have before : (Address.ofNat (address.toNat - 1)).toNat = address.toNat - 1 :=
        Address.toNat_ofNat (by omega)
      rw [before, present]
      exact ⟨by omega, rfl⟩

/-- The sink is the node at the beginning of the line. -/
theorem Lined.isSink_eq_false_iff (h : net.Lined) (present : net.nodes.get? address = some n) :
    n.gradient.isSink = false ↔ 0 < address.toNat := by
  rcases h.standing address n present with ⟨unrouted, behind⟩ | ⟨standing, -⟩
  · simp [unrouted, Gradient.unrouted, behind]
  · rw [standing, lineGradient]
    split
    · next first => simp [Gradient.sink, first]
    · next behind => simp [Nat.pos_of_ne_zero behind]

/-! ## Beacons -/

/-- What a node may hear in a round. -/
def Heard (net : Network) (address : Address) : Beacon → Prop
  | .heard neighbor hop => Beside address neighbor ∧ net.Credible neighbor hop
  | .tick => True

/-- What a round tells was announced by neighbours. -/
theorem Lined.heard_of_mem_round (h : net.Lined) {event : Address × Beacon}
    (mem : event ∈ net.board.round) : net.Heard event.1 event.2 := by
  obtain ⟨a, beacon⟩ := event
  cases beacon with
  | heard neighbor hop =>
    obtain ⟨neighbors, linked, -, near, announced⟩ := (Board.heard_mem_round_iff ..).1 mem
    exact ⟨h.straight a neighbors linked neighbor near, h.announced neighbor hop announced⟩
  | tick => exact trivial

/-- A node that adopts a neighbour stands right behind it. -/
theorem Lined.adopted (h : net.Lined) (present : net.nodes.get? address = some n)
    {neighbor : Address} {hop : UInt8} (heard : net.Heard address (.heard neighbor hop))
    (better : n.gradient.improvedBy hop = true) :
    { n.gradient with parent := some neighbor, hop } = lineGradient address ∧
      address.toNat < 255 ∧ net.Routed (.ofNat (address.toNat - 1)) := by
  obtain ⟨beside, credible⟩ := heard
  have below : hop.toNat < n.gradient.hop.toNat := (n.gradient.improvedBy_iff hop).1 better
  have most := n.gradient.hop.toNat_lt
  rcases credible with none | ⟨routed, count⟩
  · rw [eq_unroutedHop_iff] at none
    omega
  · rcases h.standing address n present with ⟨unrouted, behind⟩ | ⟨standing, near⟩
    · rcases beside with after | before
      · -- The neighbour behind cannot know its distance before this node does.
        have own := h.upward neighbor routed (by omega)
        have same : Address.ofNat (neighbor.toNat - 1) = address := by
          rw [← Address.toNat_inj, Address.toNat_ofNat (by have := neighbor.toNat_lt; omega)]
          omega
        obtain ⟨m, present', routed'⟩ := same ▸ own
        obtain rfl : m = n := Option.some.inj (present'.symm.trans present)
        rw [unrouted] at routed'
        exact absurd rfl routed'
      · have same : Address.ofNat (address.toNat - 1) = neighbor := by
          rw [← Address.toNat_inj, Address.toNat_ofNat (by have := address.toNat_lt; omega)]
          omega
        have distance : hop = address.toNat.toUInt8 := by
          rw [← UInt8.toNat_inj, Nat.toUInt8, UInt8.toNat_ofNat']
          omega
        refine ⟨?_, by omega, same ▸ routed⟩
        rw [unrouted, lineGradient, if_neg (by omega), same, distance]
        rfl
    · rw [standing, toNat_hop_lineGradient near] at below
      rcases beside with after | before
      · omega
      · omega

/-- A node takes its place on the line and announces it. -/
theorem Lined.placed (h : net.Lined) (near : address.toNat < 255)
    (before : net.Routed (.ofNat (address.toNat - 1))) {n : Node}
    (standing : n.gradient = lineGradient address) :
    Lined { net with
      nodes := net.nodes.insert address n
      board := net.board.announce address n.gradient.advertised } := by
  have own : Routed { net with
      nodes := net.nodes.insert address n
      board := net.board.announce address n.gradient.advertised } address := by
    refine ⟨n, Table.get?_insert_self .., fun none ↦ ?_⟩
    rw [standing, eq_unroutedHop_iff, toNat_hop_lineGradient near] at none
    omega
  have mono (a : Address) (routed : net.Routed a) : Routed { net with
      nodes := net.nodes.insert address n
      board := net.board.announce address n.gradient.advertised } a := by
    by_cases same : a = address
    · exact same ▸ own
    · obtain ⟨m, present, known⟩ := routed
      exact ⟨m, (net.nodes.get?_insert_of_ne same n).trans present, known⟩
  constructor
  · apply Table.forall_get?_insert
    · exact .inr ⟨standing, near⟩
    · exact fun a m _ present ↦ h.standing a m present
  · intro a routed behind
    by_cases same : a = address
    · subst same
      exact mono _ before
    · obtain ⟨m, present, known⟩ := routed
      rw [Table.get?_insert_of_ne _ same] at present
      exact mono _ (h.upward a ⟨m, present, known⟩ behind)
  · intro a hop announced
    by_cases same : a = address
    · subst same
      rw [Board.announcedBy, Board.announce, Table.get?_modify_self] at announced
      obtain ⟨old, -, rfl⟩ := Option.map_eq_some_iff.1 announced
      have count := n.gradient.toNat_advertised
      rw [standing, toNat_hop_lineGradient near, ← standing] at count
      by_cases last : a.toNat = 254
      · refine .inl (eq_unroutedHop_iff.2 ?_)
        omega
      · refine .inr ⟨own, ?_⟩
        omega
    · rw [Board.announcedBy, Board.announce, Table.get?_modify_of_ne _ same] at announced
      exact (h.announced a hop announced).mono (mono a)
  · exact h.straight

/-- No node forgets its distance. -/
theorem Routed.tell {a : Address} (routed : net.Routed a)
    (present : net.nodes.get? address = some n) (opened : n.closed = false) (beacon : Beacon) :
    (net.tell (fun n _ beacon ↦ n.onBeacon beacon) (address, beacon)).Routed a := by
  have placed {m : Node} {board : Board} (nearer : m.gradient.hop.toNat ≤ n.gradient.hop.toNat) :
      Routed { net with nodes := net.nodes.insert address m, board } a := by
    obtain ⟨m', present', known⟩ := routed
    by_cases own : a = address
    · subst own
      obtain rfl : m' = n := Option.some.inj (present'.symm.trans present)
      refine ⟨m, Table.get?_insert_self .., ?_⟩
      have most := m'.gradient.hop.toNat_lt
      rw [Ne, eq_unroutedHop_iff] at known ⊢
      omega
    · exact ⟨m', (net.nodes.get?_insert_of_ne own m).trans present', known⟩
  rw [Network.tell, acted_of_present present]
  cases beacon with
  | tick =>
    rw [Node.onBeacon_tick opened]
    exact placed (Nat.le_refl _)
  | heard neighbor hop =>
    have nearer := n.gradient.toNat_hop_consider neighbor hop
    rw [Node.onBeacon_heard opened]
    split
    · exact placed (by simp only; omega)
    · exact placed (by simp only; omega)

private theorem Heard.mono {beacon : Beacon} (h : net.Heard address beacon)
    (routed : ∀ a, net.Routed a → net'.Routed a) : net'.Heard address beacon := by
  cases beacon with
  | heard neighbor hop => exact ⟨h.1, h.2.mono (routed neighbor)⟩
  | tick => exact trivial

/-- Hearing a neighbour keeps the line. -/
theorem Lined.heard (h : net.Lined) (present : net.nodes.get? address = some n)
    (opened : n.closed = false) {beacon : Beacon} (heard : net.Heard address beacon) :
    (net.tell (fun n _ beacon ↦ n.onBeacon beacon) (address, beacon)).Lined := by
  rw [tell, acted_of_present present]
  cases beacon with
  | tick =>
    rw [Node.onBeacon_tick opened]
    exact h.insert present { n with counters := n.counters.addCycle } rfl net.medium
  | heard neighbor hop =>
    rw [Node.onBeacon_heard opened, Gradient.consider]
    split
    · next better =>
      obtain ⟨standing, near, before⟩ := h.adopted present heard better
      exact h.placed near before (n := { n with
        gradient := { n.gradient with parent := some neighbor, hop } }) standing
    · exact h.insert present n rfl net.medium

/-! ## A whole round -/

/-- What is kept and what is related by every beacon that a node of the line may hear is so by a
whole round. Nobody forgets a distance, so what could be heard at its beginning can be heard
throughout. -/
theorem discover_induction {P : Network → Prop}
    {T : Network → Network → List (Address × Output) → Prop}
    (lined : ∀ {net}, P net → net.Lined)
    (opened : ∀ {net a n}, P net → net.nodes.get? a = some n → n.closed = false)
    (refl : ∀ {net}, P net → T net net [])
    (trans : ∀ {net mid last outputs more}, T net mid outputs → T mid last more →
      T net last (outputs ++ more))
    (beacon : ∀ {net a n beacon}, P net → net.nodes.get? a = some n → net.Heard a beacon →
      P (net.tell (fun n _ beacon ↦ n.onBeacon beacon) (a, beacon)) ∧
        T net (net.tell (fun n _ beacon ↦ n.onBeacon beacon) (a, beacon))
          ((n.onBeacon beacon).outputs.map (a, ·)))
    (h : P net) : P net.discover.state ∧ T net net.discover.state net.discover.outputs := by
  have heard : ∀ event ∈ net.board.round, net.Heard event.1 event.2 :=
    fun event mem ↦ (lined h).heard_of_mem_round mem
  unfold discover
  generalize net.board.round = events at heard
  induction events generalizing net with
  | nil => exact ⟨h, refl h⟩
  | cons event rest ih =>
    obtain ⟨address, heardFirst⟩ := event
    have first := heard (address, heardFirst) List.mem_cons_self
    have others : ∀ e ∈ rest, net.Heard e.1 e.2 :=
      fun e he ↦ heard e (List.mem_cons_of_mem _ he)
    simp only [deliver_cons]
    cases present : net.nodes.get? address with
    | none =>
      rw [tell, acted_of_absent present, toldOutputs_of_absent present]
      exact ih h others
    | some n =>
      obtain ⟨kept, moved⟩ := beacon h present first
      have later := ih kept fun e he ↦
        (others e he).mono fun a routed ↦ routed.tell present (opened h present) heardFirst
      rw [toldOutputs_of_present present]
      exact ⟨later.1, trans moved later.2⟩

end Network
end CollectionTree
