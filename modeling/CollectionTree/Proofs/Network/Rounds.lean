import CollectionTree.Proofs.Network.Descent
import CollectionTree.Proofs.Network.Line

/-!
# What a round of discovery does

In a round a node hears its neighbours in ascending order of addresses, each as it announced itself
when the round began. So where a node stands after a round can be told from what was announced
before it: `gradientAt?_discover`. Neighbours are mutual on boards that are built link by link:
`Mutual`.
-/

namespace CollectionTree

namespace Board

/-- The neighbours of a node; none if the board does not know it. -/
def around (board : Board) (a : Address) : OrderedSet Address := (board.links.get? a).getD .empty

/-- The first node hears the second. -/
def Hears (board : Board) (a b : Address) : Prop := b ∈ (board.around a).keys

/-- Nodes hear each other, and none hears itself. -/
structure Mutual (board : Board) : Prop where
  symm : ∀ a b, board.Hears a b → board.Hears b a
  irrefl : ∀ a, ¬board.Hears a a

/-- The hop count that is heard from a node; 255 if it announces none. -/
def said (board : Board) (a : Address) : UInt8 := (board.announcedBy a).getD unroutedHop

/-- A board is straight if whoever hears another is beside it. -/
theorem straight_iff {board : Board} :
    board.Straight ↔ ∀ a b, board.Hears a b → Beside a b := by
  constructor
  · intro straight a b hears
    rw [Hears, around] at hears
    cases known : board.links.get? a with
    | none =>
      rw [known] at hears
      cases hears
    | some neighbors =>
      rw [known] at hears
      exact straight a neighbors known b hears
  · intro beside a neighbors known b near
    apply beside
    rw [Hears, around, known]
    exact near

/-- Registering a node changes nothing about who hears whom. -/
theorem hears_register (board : Board) (node a b : Address) :
    (board.register node).Hears a b ↔ board.Hears a b := by
  have same : (board.register node).around a = board.around a := by
    rw [around, register, Table.alter]
    by_cases own : a = node
    · subst own
      rw [Table.get?_insert_self]
      rfl
    · rw [Table.get?_insert_of_ne _ own, around]
  rw [Hears, Hears, same]

/-- One more link lets one node hear one other. -/
theorem hears_addLink (board : Board) (a b x y : Address) :
    Hears { board with links := addLink board.links a b } x y ↔
      x = a ∧ y = b ∨ board.Hears x y := by
  rw [Hears, Hears, around, around, addLink, Table.alter]
  by_cases own : x = a
  · subst own
    rw [Table.get?_insert_self, Option.getD_some, OrderedSet.add, Table.mem_keys_insert]
    simp
  · rw [Table.get?_insert_of_ne _ own]
    simp [own]

/-- A node is refused a link to itself. -/
theorem connect_self (board : Board) (a : Address) :
    board.connect a a = .error (.selfLink a) :=
  if_pos rfl

/-- A link that is granted is one between two nodes, and lets each hear the other. -/
theorem hears_connect {board linked : Board} {a b : Address}
    (connected : board.connect a b = .ok linked) :
    a ≠ b ∧ linked.announced = board.announced ∧
      ∀ x y, linked.Hears x y ↔ x = a ∧ y = b ∨ x = b ∧ y = a ∨ board.Hears x y := by
  unfold Board.connect at connected
  split at connected
  · cases connected
  · next apart =>
    obtain rfl := Except.ok.inj connected
    refine ⟨apart, rfl, fun x y ↦ ?_⟩
    apply (hears_addLink { board with links := addLink board.links a b } b a x y).trans
    rw [hears_addLink]
    exact or_left_comm

/-- A link keeps nodes hearing each other and none itself. -/
theorem Mutual.connect {board linked : Board} (h : board.Mutual) {a b : Address}
    (connected : board.connect a b = .ok linked) : linked.Mutual := by
  obtain ⟨apart, -, hears⟩ := hears_connect connected
  constructor
  · intro x y
    rw [hears, hears]
    rintro (⟨rfl, rfl⟩ | ⟨rfl, rfl⟩ | before)
    · exact .inr (.inl ⟨rfl, rfl⟩)
    · exact .inl ⟨rfl, rfl⟩
    · exact .inr (.inr (h.symm x y before))
  · intro x
    rw [hears]
    rintro (⟨rfl, same⟩ | ⟨rfl, same⟩ | own)
    · exact apart same
    · exact apart same.symm
    · exact h.irrefl x own

private theorem mem_keys_lineNeighbors_iff {n i : Nat} (small : n ≤ 65536) (inside : i < n)
    (b : Address) :
    b ∈ (lineNeighbors n i).keys ↔ b.toNat < n ∧ Beside (.ofNat i) b := by
  have own : (Address.ofNat i).toNat = i := Address.toNat_ofNat (by omega)
  have here {j : Nat} (small : j < 65536) : b = .ofNat j ↔ b.toNat = j := by
    rw [← Address.toNat_inj, Address.toNat_ofNat small]
  have none : b ∉ (Table.empty : OrderedSet Address).keys := List.not_mem_nil
  have before : b ∈ (if 0 < i then Table.empty.insert (.ofNat (i - 1)) () else .empty :
      OrderedSet Address).keys ↔ b.toNat + 1 = i := by
    split
    · rw [Table.mem_keys_insert, here (by omega), or_iff_left none]
      omega
    · rw [iff_false_left none]
      omega
  rw [lineNeighbors, Beside, own]
  split
  · rw [OrderedSet.add, Table.mem_keys_insert, here (by omega), before]
    omega
  · rw [before]
    omega

private theorem around_line {n : Nat} (small : n ≤ 65536) (a : Address) :
    (line n).around a = if a.toNat < n then lineNeighbors n a.toNat else .empty := by
  have from' (indices : List Nat) (inside : ∀ i ∈ indices, i < n) :
      (indices.foldr (fun i links ↦ links.insert (.ofNat i) (lineNeighbors n i))
        (.empty : Table Address (OrderedSet Address))).get? a =
        if a.toNat ∈ indices then some (lineNeighbors n a.toNat) else none := by
    induction indices with
    | nil => rfl
    | cons i rest ih =>
      have own : (Address.ofNat i).toNat = i :=
        Address.toNat_ofNat (by have := inside i List.mem_cons_self; omega)
      rw [List.foldr_cons]
      by_cases same : a = .ofNat i
      · subst same
        rw [Table.get?_insert_self, own, if_pos List.mem_cons_self]
      · have other : a.toNat ≠ i := by
          rw [← Address.toNat_inj, own] at same
          exact same
        rw [Table.get?_insert_of_ne _ same, ih fun j hj ↦ inside j (List.mem_cons_of_mem _ hj)]
        simp [other]
  rw [around, line, from' (List.range n) fun i hi ↦ List.mem_range.1 hi]
  simp only [List.mem_range]
  split <;> rfl

/-- On a line of nodes those hear each other that are beside each other. -/
theorem hears_line_iff {n : Nat} (small : n ≤ 65536) (a b : Address) :
    (line n).Hears a b ↔ a.toNat < n ∧ b.toNat < n ∧ Beside a b := by
  have same : Address.ofNat a.toNat = a := Address.toNat_inj.1 (Address.toNat_ofNat a.toNat_lt)
  rw [Hears, around_line small]
  split
  · next inside =>
    rw [mem_keys_lineNeighbors_iff small inside, same]
    simp [inside]
  · next outside =>
    simp only [outside, false_and, iff_false]
    exact List.not_mem_nil

/-- On a line of nodes hearing is mutual. -/
theorem mutual_line {n : Nat} (small : n ≤ 65536) : (line n).Mutual := by
  constructor
  · intro a b
    rw [hears_line_iff small, hears_line_iff small]
    rintro ⟨first, second, beside⟩
    exact ⟨second, first, beside.symm⟩
  · intro a
    rw [hears_line_iff small]
    rintro ⟨-, -, beside⟩
    rcases beside with same | same <;> omega

end Board

/-! ## What is heard -/

/-- Where a node stands after it heard some neighbours in order. -/
def Gradient.hearing (said : Address → UInt8) (g : Gradient) (neighbors : List Address) :
    Gradient :=
  neighbors.foldl (fun g neighbor ↦ (g.consider neighbor (said neighbor)).2) g

/-- Where a node at an address stands after it was told what is for it among some events. -/
def Gradient.told (address : Address) (g : Gradient) (events : List (Address × Beacon)) :
    Gradient :=
  events.foldl (fun g event ↦ if event.1 = address then g.after event.2 else g) g

private theorem Gradient.told_of_forall_ne {address : Address} {events : List (Address × Beacon)}
    (others : ∀ event ∈ events, event.1 ≠ address) (g : Gradient) : g.told address events = g := by
  induction events with
  | nil => rfl
  | cons event rest ih =>
    rw [told, List.foldl_cons, if_neg (others event List.mem_cons_self)]
    exact ih fun e he ↦ others e (List.mem_cons_of_mem _ he)

private theorem Gradient.told_append (address : Address) (g : Gradient)
    (events more : List (Address × Beacon)) :
    g.told address (events ++ more) = (g.told address events).told address more :=
  List.foldl_append

/-- A hop count of 255 says nothing. -/
theorem Gradient.consider_unroutedHop (g : Gradient) (neighbor : Address) :
    (g.consider neighbor unroutedHop).2 = g := by
  have most := g.hop.toNat_lt
  have all : unroutedHop.toNat = 255 := rfl
  rw [consider_of_le (by omega)]

private theorem Gradient.told_ticks (address : Address) (g : Gradient) (nodes : List Address) :
    g.told address (nodes.map fun node ↦ (node, .tick)) = g := by
  induction nodes with
  | nil => rfl
  | cons node rest ih =>
    rw [List.map_cons, told, List.foldl_cons, after, ite_self]
    exact ih

namespace Board

private theorem told_heardBy {board : Board} {address : Address}
    (started : board.announced.contains address = true)
    (neighbors : OrderedSet Address) (g : Gradient) :
    g.told address (board.heardBy address neighbors) = g.hearing board.said neighbors.keys := by
  rw [heardBy, if_pos started]
  induction neighbors.keys generalizing g with
  | nil => rfl
  | cons neighbor rest ih =>
    rw [Gradient.hearing, List.foldl_cons, ← Gradient.hearing, ← ih]
    cases announced : board.announcedBy neighbor with
    | none =>
      rw [List.filterMap_cons_none (by rw [announced]; rfl), said, announced, Option.getD_none,
        Gradient.consider_unroutedHop]
    | some hop =>
      rw [List.filterMap_cons_some (by rw [announced]; rfl), said, announced, Option.getD_some,
        Gradient.told, List.foldl_cons, if_pos rfl]
      rfl

private theorem fst_of_mem_heardBy {board : Board} {address : Address}
    {neighbors : OrderedSet Address}
    {event : Address × Beacon} (mem : event ∈ board.heardBy address neighbors) :
    event.1 = address := by
  obtain ⟨-, neighbor, -, hop, -, rfl⟩ := mem_heardBy_iff.1 mem
  rfl

/-- A round tells a node of its neighbours in ascending order. -/
theorem told_round {board : Board} {address : Address}
    (started : board.announced.contains address = true) (g : Gradient) :
    g.told address board.round = g.hearing board.said (board.around address).keys := by
  have from' {entries : List (Address × OrderedSet Address)} (ascending : Table.Ascending entries) :
      g.told address (entries.flatMap fun e ↦ board.heardBy e.1 e.2) =
        g.hearing board.said ((Table.lookup address entries).getD .empty).keys := by
    induction entries with
    | nil => rfl
    | cons head rest ih =>
      obtain ⟨k, neighbors⟩ := head
      rw [List.flatMap_cons, Gradient.told_append]
      by_cases own : k = address
      · subst own
        rw [told_heardBy started, Table.lookup_cons_self, Option.getD_some]
        apply Gradient.told_of_forall_ne
        intro event mem
        obtain ⟨entry, later, mem⟩ := List.mem_flatMap.1 mem
        have behind := (List.pairwise_cons.1 ascending).1 entry later
        rw [fst_of_mem_heardBy mem]
        exact fun same ↦ Nat.ne_of_gt behind (congrArg Ranked.rank same)
      · have others : ∀ event ∈ board.heardBy k neighbors, event.1 ≠ address :=
          fun event mem ↦ fst_of_mem_heardBy mem ▸ own
        rw [Gradient.told_of_forall_ne others, ih ascending.tail,
          Table.lookup_cons_of_ne (Ne.symm own)]
  rw [round, Gradient.told_append, Gradient.told_ticks, from' board.links.ascending]
  rfl

end Board

/-! ## One round -/

namespace Network

/-- Where the node at an address stands. -/
def gradientAt? (net : Network) (a : Address) : Option Gradient :=
  (net.nodes.get? a).map (·.gradient)

/-- All nodes are open, and what they announce is true. -/
structure Running (net : Network) : Prop where
  opened : ∀ a n, net.nodes.get? a = some n → n.closed = false
  truthful : net.Truthful

/-- The network after so many rounds of which the nodes were told at once. -/
def discovered (net : Network) : Nat → Network
  | 0 => net
  | rounds + 1 => (net.discovered rounds).discover.state

variable {net : Network}

private theorem Running.tell (h : net.Running) (event : Address × Beacon) :
    (net.tell (fun n _ beacon ↦ n.onBeacon beacon) event).Running := by
  obtain ⟨address, beacon⟩ := event
  cases present : net.nodes.get? address with
  | none =>
    rw [Network.tell, acted_of_absent present]
    exact h
  | some n =>
    have puts := puts_onBeacon h.truthful present beacon
    refine ⟨?_, puts.truthful h.truthful⟩
    rw [puts.nodes]
    apply Table.forall_get?_insert
    · exact (n.closed_onBeacon beacon).trans (h.opened address n present)
    · exact fun a m _ present ↦ h.opened a m present

private theorem gradientAt?_tell (h : net.Running) (event : Address × Beacon) (v : Address) :
    (net.tell (fun n _ beacon ↦ n.onBeacon beacon) event).gradientAt? v =
      (net.gradientAt? v).map fun g ↦ if event.1 = v then g.after event.2 else g := by
  obtain ⟨address, beacon⟩ := event
  cases present : net.nodes.get? address with
  | none =>
    rw [Network.tell, acted_of_absent present]
    by_cases own : address = v
    · subst own
      simp [gradientAt?, present]
    · simp [own]
  | some n =>
    have puts := puts_onBeacon h.truthful present beacon
    rw [gradientAt?, puts.nodes]
    by_cases own : address = v
    · subst own
      rw [Table.get?_insert_self, Option.map_some,
        Node.gradient_onBeacon (h.opened address n present)]
      simp [gradientAt?, present]
    · rw [Table.get?_insert_of_ne _ (Ne.symm own)]
      simp [own, gradientAt?, Function.comp_def]

private theorem links_tell (h : net.Running) (event : Address × Beacon) :
    (net.tell (fun n _ beacon ↦ n.onBeacon beacon) event).board.links = net.board.links := by
  obtain ⟨address, beacon⟩ := event
  cases present : net.nodes.get? address with
  | none => rw [Network.tell, acted_of_absent present]
  | some n =>
    have opened := h.opened address n present
    rw [Network.tell, acted_of_present present]
    cases beacon with
    | tick =>
      rw [Node.onBeacon_tick opened]
      rfl
    | heard neighbor hop =>
      rw [Node.onBeacon_heard opened]
      split <;> rfl

/-- Telling events keeps what is known of a running network, and each node reacts to what it is
told. -/
theorem Running.tellAll (h : net.Running) (events : List (Address × Beacon)) :
    let last := events.foldl (Network.tell fun n _ beacon ↦ n.onBeacon beacon) net
    last.Running ∧ last.board.links = net.board.links ∧
      ∀ v, last.gradientAt? v = (net.gradientAt? v).map (·.told v events) := by
  induction events generalizing net with
  | nil => exact ⟨h, rfl, fun v ↦ by simp [Gradient.told]⟩
  | cons event rest ih =>
    obtain ⟨running, links, gradients⟩ := ih (h.tell event)
    refine ⟨running, links.trans (links_tell h event), fun v ↦ ?_⟩
    rw [List.foldl_cons, gradients, gradientAt?_tell h, Option.map_map]
    rfl

/-- A round of discovery leaves the network running. -/
theorem Running.discover (h : net.Running) : net.discover.state.Running := by
  rw [state_discover]
  exact (h.tellAll net.board.round).1

/-- A round of discovery keeps the links. -/
theorem links_discover (h : net.Running) : net.discover.state.board.links = net.board.links := by
  rw [state_discover]
  exact (h.tellAll net.board.round).2.1

/-- In a round every node hears its neighbours as they announced themselves before it. -/
theorem gradientAt?_discover (h : net.Running) (v : Address) :
    net.discover.state.gradientAt? v =
      (net.gradientAt? v).map (·.hearing net.board.said (net.board.around v).keys) := by
  rw [state_discover, (h.tellAll net.board.round).2.2 v]
  cases present : net.nodes.get? v with
  | none => simp [gradientAt?, present]
  | some n =>
    have started : net.board.announced.contains v = true := by
      have announced := h.truthful v
      rw [present, Option.bind_some, Node.announcement, h.opened v n present] at announced
      rw [Table.contains]
      rw [Board.announcedBy] at announced
      simp [announced]
    simp only [gradientAt?, present, Option.map_some, Board.told_round started]

end Network
end CollectionTree
