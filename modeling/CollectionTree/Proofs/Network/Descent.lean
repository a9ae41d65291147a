import CollectionTree.Proofs.Network.Steps

/-!
# Parents are nearer to the sink

Rounds of discovery tell what was announced when they took place. The nodes learn of it later, in
any order, again and again, or never. What a node announces only ever falls, so what was told at any
time is no less than what is announced now, and a node that takes a neighbour as parent stands
behind it for good. `Sound` is the invariant, and `descent_run` says what follows for every run.
-/

namespace CollectionTree

/-- The hop count that a node announces, unless it was closed. -/
def Node.announcement (n : Node) : Option UInt8 :=
  if n.closed then none else some n.gradient.advertised

/-- Where a node stands after a beacon. -/
def Gradient.after (g : Gradient) : Beacon → Gradient
  | .heard neighbor hop => (g.consider neighbor hop).2
  | .tick => g

private theorem Gradient.toNat_hop_after_le (g : Gradient) (beacon : Beacon) :
    (g.after beacon).hop.toNat ≤ g.hop.toNat := by
  cases beacon with
  | heard neighbor hop =>
    rw [after, toNat_hop_consider]
    omega
  | tick => exact Nat.le_refl _

private theorem Node.onBeacon_of_closed {n : Node} (closed : n.closed = true) (beacon : Beacon) :
    n.onBeacon beacon = ⟨(), n, []⟩ :=
  if_pos closed

/-- A beacon moves an open node as far as it says. -/
theorem Node.gradient_onBeacon {n : Node} (opened : n.closed = false) (beacon : Beacon) :
    (n.onBeacon beacon).state.gradient = n.gradient.after beacon := by
  cases beacon with
  | heard neighbor hop =>
    rw [Node.onBeacon_heard opened, Gradient.after]
  | tick =>
    rw [Node.onBeacon_tick opened, Gradient.after]

/-- A beacon opens and closes no node. -/
theorem Node.closed_onBeacon (n : Node) (beacon : Beacon) :
    (n.onBeacon beacon).state.closed = n.closed := by
  unfold onBeacon
  split
  · rfl
  · cases beacon <;> rfl

namespace Network

/-- Open nodes announce one hop more than they are away from the sink, and nobody else announces
anything. -/
def Truthful (net : Network) : Prop :=
  ∀ a, net.board.announcedBy a = (net.nodes.get? a).bind Node.announcement

/-- One node is put into its place, and the board comes to say what it announces. -/
structure Puts (net net' : Network) (address : Address) (n : Node) : Prop where
  nodes : net'.nodes = net.nodes.insert address n
  announced : net'.board.announcedBy address = n.announcement
  others : ∀ a, a ≠ address → net'.board.announcedBy a = net.board.announcedBy a

/-- Nodes stay, and none comes to be farther from the sink. -/
def Advances (net net' : Network) : Prop :=
  ∀ a n, net.nodes.get? a = some n →
    ∃ n', net'.nodes.get? a = some n' ∧ n'.gradient.hop.toNat ≤ n.gradient.hop.toNat

/-- The neighbour announces this hop count at most. -/
def Covers (net : Network) (neighbor : Address) (hop : UInt8) : Prop :=
  ∃ n, net.nodes.get? neighbor = some n ∧ n.gradient.advertised.toNat ≤ hop.toNat

/-- A node that stands here knows its distance if it has a parent, and the parent is nearer. -/
def Behind (net : Network) (g : Gradient) : Prop :=
  ∀ p, g.parent = some p → 1 ≤ g.hop.toNat ∧ g.hop.toNat ≤ 254 ∧
    ∃ n, net.nodes.get? p = some n ∧ n.gradient.hop.toNat < g.hop.toNat

variable {net net' : Network} {address : Address} {n n' : Node}

private theorem Advances.refl (net : Network) : net.Advances net :=
  fun _ n present ↦ ⟨n, present, Nat.le_refl _⟩

private theorem Advances.trans {last : Network} (h : net.Advances net') (h' : net'.Advances last) :
    net.Advances last := by
  intro a n present
  obtain ⟨mid, there, nearer⟩ := h a n present
  obtain ⟨n', present', further⟩ := h' a mid there
  exact ⟨n', present', further.trans nearer⟩

private theorem Covers.mono {neighbor : Address} {hop : UInt8} (h : net.Covers neighbor hop)
    (advances : net.Advances net') : net'.Covers neighbor hop := by
  obtain ⟨n, present, most⟩ := h
  obtain ⟨n', present', nearer⟩ := advances neighbor n present
  refine ⟨n', present', ?_⟩
  rw [Gradient.toNat_advertised] at most ⊢
  omega

private theorem Behind.mono {g : Gradient} (h : net.Behind g) (advances : net.Advances net') :
    net'.Behind g := by
  intro p route
  obtain ⟨least, most, n, present, below⟩ := h p route
  obtain ⟨n', present', nearer⟩ := advances p n present
  exact ⟨least, most, n', present', by omega⟩

private theorem Puts.advances (puts : net.Puts net' address n')
    (nearer : ∀ n, net.nodes.get? address = some n →
      n'.gradient.hop.toNat ≤ n.gradient.hop.toNat) : net.Advances net' := by
  intro a n present
  rw [puts.nodes]
  by_cases own : a = address
  · subst own
    exact ⟨n', Table.get?_insert_self .., nearer n present⟩
  · exact ⟨n, (net.nodes.get?_insert_of_ne own n').trans present, Nat.le_refl _⟩

/-- What is announced stays true when a node changes that announces what it should. -/
theorem Puts.truthful (puts : net.Puts net' address n') (h : net.Truthful) : net'.Truthful := by
  intro a
  rw [puts.nodes]
  by_cases own : a = address
  · subst own
    rw [puts.announced, Table.get?_insert_self]
    rfl
  · rw [puts.others a own, Table.get?_insert_of_ne _ own]
    exact h a

/-- A node that hears a neighbour and takes it as parent stands behind it. -/
theorem behind_after {g : Gradient} (h : net.Behind g) {beacon : Beacon}
    (covers : ∀ neighbor hop, beacon = .heard neighbor hop → net.Covers neighbor hop) :
    net.Behind (g.after beacon) := by
  cases beacon with
  | tick => exact h
  | heard neighbor hop =>
    rw [Gradient.after]
    by_cases better : hop.toNat < g.hop.toNat
    · have most := g.hop.toNat_lt
      obtain ⟨n, present, announced⟩ := covers neighbor hop rfl
      rw [Gradient.toNat_advertised] at announced
      rw [Gradient.consider_of_lt better]
      -- What is better than something is less than 255, where announcing does not saturate.
      intro p route
      obtain rfl := Option.some.inj route
      exact ⟨by simp only; omega, by simp only; omega, n, present, by simp only; omega⟩
    · rw [Gradient.consider_of_le (Nat.not_lt.1 better)]
      exact h

/-! ## What is put -/

/-- Opening a node puts it into its place, and the board says what it announces. -/
theorem puts_openNode (net : Network) (address : Address) (isSink : Bool) (config : NodeConfig)
    (source : Source) :
    net.Puts (net.openNode address isSink config source) address
      (Node.opened address isSink config source).state where
  nodes := rfl
  announced := Table.get?_insert_self ..
  others := fun _ other ↦ Table.get?_insert_of_ne _ other _

private theorem puts_close (h : net.Truthful) (present : net.nodes.get? address = some n) :
    net.Puts (net.acted address fun _ n ↦ n.close) address n.close.state := by
  rw [acted_of_present present]
  cases closed : n.closed with
  | true =>
    have same : n.close = ⟨(), n, []⟩ := if_pos closed
    rw [same]
    refine ⟨rfl, ?_, fun _ _ ↦ rfl⟩
    exact (h address).trans (by simp [present])
  | false =>
    rw [Node.close_of_running closed]
    refine ⟨rfl, ?_, ?_⟩
    · exact (net.board.announced.get?_erase address address).trans (if_pos rfl)
    · intro a other
      apply (net.board.announced.get?_erase address a).trans
      exact if_neg fun same ↦ other (Table.rank_inj.1 same).symm

/-- Telling a node what it hears puts it into its place, and the board says what it announces. -/
theorem puts_onBeacon (h : net.Truthful) (present : net.nodes.get? address = some n)
    (beacon : Beacon) :
    net.Puts (net.tell (fun n _ beacon ↦ n.onBeacon beacon) (address, beacon)) address
      (n.onBeacon beacon).state := by
  have said := h address
  rw [present, Option.bind_some] at said
  rw [tell, acted_of_present present]
  cases closed : n.closed with
  | true =>
    rw [Node.onBeacon_of_closed closed]
    exact ⟨rfl, said, fun _ _ ↦ rfl⟩
  | false =>
    rw [Node.announcement, closed] at said
    cases beacon with
    | tick =>
      rw [Node.onBeacon_tick closed]
      exact ⟨rfl, said.trans (by simp [Node.announcement, closed]), fun _ _ ↦ rfl⟩
    | heard neighbor hop =>
      rw [Node.onBeacon_heard closed, Gradient.consider]
      split
      · refine ⟨rfl, ?_, fun a other ↦ Table.get?_modify_of_ne _ other _⟩
        rw [Board.announcedBy] at said
        apply (Table.get?_modify_self _ address _).trans
        simp [said, Node.announcement, closed]
      · exact ⟨rfl, said.trans (by simp [Node.announcement, closed]), fun _ _ ↦ rfl⟩

end Network

namespace Network

/-- The parent that the node at an address knows. -/
def parentOf? (net : Network) (a : Address) : Option Address :=
  (net.nodes.get? a).bind (·.gradient.parent)

/-- Where so many steps from parent to parent lead, if there are that many. -/
def upward (net : Network) : Nat → Address → Option Address
  | 0, a => some a
  | steps + 1, a => (net.parentOf? a).bind (net.upward steps)

/-- Every node that has a parent stands behind it. -/
def Descends (net : Network) : Prop :=
  ∀ a n, net.nodes.get? a = some n → net.Behind n.gradient

variable {net : Network}

private theorem upward_add (net : Network) (first more : Nat) (a : Address) :
    net.upward (first + more) a = (net.upward first a).bind (net.upward more) := by
  induction first generalizing a with
  | zero => simp [upward]
  | succ first ih =>
    rw [Nat.succ_add, upward, upward]
    cases net.parentOf? a with
    | none => rfl
    | some p => exact ih p

/-- Each step from parent to parent leads to a node that is nearer to the sink. -/
theorem Descends.hop_lt (h : net.Descends) {a b : Address} {n : Node}
    (present : net.nodes.get? a = some n) {steps : Nat}
    (leads : net.upward (steps + 1) a = some b) :
    ∃ m, net.nodes.get? b = some m ∧ m.gradient.hop.toNat < n.gradient.hop.toNat := by
  induction steps generalizing a n with
  | zero =>
    obtain ⟨p, route, same⟩ := Option.bind_eq_some_iff.1 leads
    obtain rfl := Option.some.inj same
    rw [parentOf?, present, Option.bind_some] at route
    obtain ⟨-, -, m, present', below⟩ := h a n present p route
    exact ⟨m, present', below⟩
  | succ steps ih =>
    obtain ⟨p, route, further⟩ := Option.bind_eq_some_iff.1 leads
    rw [parentOf?, present, Option.bind_some] at route
    obtain ⟨-, -, m, present', below⟩ := h a n present p route
    obtain ⟨last, there, nearer⟩ := ih present' further
    exact ⟨last, there, nearer.trans below⟩

/-- Whoever goes from parent to parent never comes back. -/
theorem Descends.upward_ne (h : net.Descends) {a b : Address} {i j : Nat} (later : i < j)
    (visited : net.upward i a = some b) : net.upward j a ≠ some b := by
  intro again
  obtain ⟨steps, rfl⟩ := Nat.exists_eq_add_of_lt later
  rw [Nat.add_assoc, upward_add, visited, Option.bind_some] at again
  have start := again
  rw [upward] at start
  obtain ⟨p, route, -⟩ := Option.bind_eq_some_iff.1 start
  obtain ⟨n, present, -⟩ := Option.bind_eq_some_iff.1 route
  obtain ⟨m, present', below⟩ := h.hop_lt present again
  obtain rfl := Option.some.inj (present'.symm.trans present)
  exact absurd below (Nat.lt_irrefl _)

end Network

/-- A network, and what rounds of discovery told so far. -/
structure Discovery where
  network : Network
  told : List (Address × Beacon) := []

namespace Discovery

/-- What may happen while nodes discover each other. -/
inductive Act where
  /-- A node is opened, unless there is one at the address. -/
  | join (address : Address) (isSink : Bool) (config : NodeConfig) (source : Source)
  /-- The node at an address is closed. -/
  | leave (address : Address)
  /-- Two nodes come to hear each other, unless they are one. -/
  | connect (a b : Address)
  /-- A round of discovery takes place. -/
  | round
  /-- A node learns of something that it was told at some time. -/
  | deliver (event : Address × Beacon)

/-- Nobody is there, and it is known who will hear whom. -/
def start (medium : Medium) (links : Table Address (OrderedSet Address)) : Discovery where
  network := { medium, board := { links } }

/-- What comes of an act. -/
def step (d : Discovery) : Act → Discovery
  | .join address isSink config source =>
    match d.network.nodes.get? address with
    | some _ => d
    | none => { d with network := d.network.openNode address isSink config source }
  | .leave address => { d with network := d.network.acted address fun _ n ↦ n.close }
  | .connect a b =>
    match d.network.connect a b with
    | .ok network => { d with network }
    | .error _ => d
  | .round => { d with told := d.told ++ d.network.board.round }
  | .deliver event =>
    if event ∈ d.told then
      { d with network := (d.network.deliver (fun n _ beacon ↦ n.onBeacon beacon) [event]).state }
    else d

/-- What comes of some acts. -/
def run (d : Discovery) (acts : List Act) : Discovery := acts.foldl step d

/-- What is announced is true, nothing was told that is nearer to the sink than what is announced,
and parents are nearer than their nodes. -/
structure Sound (d : Discovery) : Prop where
  truthful : d.network.Truthful
  told : ∀ a neighbor hop, (a, .heard neighbor hop) ∈ d.told → d.network.Covers neighbor hop
  descends : d.network.Descends

variable {d : Discovery} {net : Network} {address : Address} {n n' : Node}

private theorem sound_start (medium : Medium) (links : Table Address (OrderedSet Address)) :
    (start medium links).Sound :=
  ⟨fun _ ↦ rfl, fun _ _ _ mem ↦ (List.not_mem_nil mem).elim, fun _ _ none ↦ by cases none⟩

/-- A node may be put into its place if it is not farther from the sink and stands behind its
parent. -/
theorem Sound.put (h : d.Sound) (puts : d.network.Puts net address n')
    (nearer : ∀ n, d.network.nodes.get? address = some n →
      n'.gradient.hop.toNat ≤ n.gradient.hop.toNat)
    (behind : d.network.Behind n'.gradient) : Sound { d with network := net } := by
  have advances := puts.advances nearer
  refine ⟨puts.truthful h.truthful, fun a b hop mem ↦ (h.told a b hop mem).mono advances, ?_⟩
  rw [Network.Descends, puts.nodes]
  apply Table.forall_get?_insert
  · exact behind.mono advances
  · exact fun a n _ present ↦ (h.descends a n present).mono advances

/-- What a round tells is what is announced. -/
theorem Sound.covers_of_mem_round (h : d.Sound) {a neighbor : Address} {hop : UInt8}
    (mem : (a, .heard neighbor hop) ∈ d.network.board.round) : d.network.Covers neighbor hop := by
  obtain ⟨-, -, -, -, announced⟩ := (Board.heard_mem_round_iff ..).1 mem
  rw [h.truthful] at announced
  obtain ⟨n, present, said⟩ := Option.bind_eq_some_iff.1 announced
  unfold Node.announcement at said
  split at said
  · cases said
  · obtain rfl := Option.some.inj said
    exact ⟨n, present, Nat.le_refl _⟩

/-- Every act keeps the invariant, and brings no node farther from the sink. -/
theorem Sound.step (h : d.Sound) (act : Act) :
    (d.step act).Sound ∧ d.network.Advances (d.step act).network := by
  cases act with
  | join address isSink config source =>
    simp only [Discovery.step]
    split
    · exact ⟨h, .refl _⟩
    · next absent =>
      have puts := d.network.puts_openNode address isSink config source
      have nearer : ∀ n, d.network.nodes.get? address = some n →
          (Node.opened address isSink config source).state.gradient.hop.toNat ≤
            n.gradient.hop.toNat := by
        intro n present
        rw [absent] at present
        cases present
      refine ⟨h.put puts nearer ?_, puts.advances nearer⟩
      intro p route
      cases isSink <;> cases route
  | leave address =>
    simp only [Discovery.step]
    cases present : d.network.nodes.get? address with
    | none =>
      rw [Network.acted_of_absent present]
      exact ⟨h, .refl _⟩
    | some n =>
      have puts := Network.puts_close h.truthful present
      have same := n.gradient_close
      have nearer : ∀ m, d.network.nodes.get? address = some m →
          n.close.state.gradient.hop.toNat ≤ m.gradient.hop.toNat := by
        intro m present'
        obtain rfl := Option.some.inj (present.symm.trans present')
        rw [same]
      exact ⟨h.put puts nearer (same ▸ h.descends address n present), puts.advances nearer⟩
  | connect a b =>
    simp only [Discovery.step, Network.connect, Board.connect]
    split
    · next linked =>
      split at linked
      · cases linked
      · obtain rfl := Except.ok.inj linked
        exact ⟨⟨h.truthful, h.told, h.descends⟩, .refl _⟩
    · exact ⟨h, .refl _⟩
  | round =>
    refine ⟨⟨h.truthful, ?_, h.descends⟩, .refl _⟩
    intro a neighbor hop mem
    rcases List.mem_append.1 mem with mem | mem
    · exact h.told a neighbor hop mem
    · exact h.covers_of_mem_round mem
  | deliver event =>
    obtain ⟨address, beacon⟩ := event
    simp only [Discovery.step]
    split
    · next told =>
      rw [Network.state_deliver, List.foldl_cons, List.foldl_nil]
      cases present : d.network.nodes.get? address with
      | none =>
        rw [Network.tell, Network.acted_of_absent present]
        exact ⟨h, .refl _⟩
      | some n =>
        have puts := Network.puts_onBeacon h.truthful present beacon
        have behind := h.descends address n present
        have covers : ∀ neighbor hop, beacon = .heard neighbor hop →
            d.network.Covers neighbor hop := by
          rintro neighbor hop rfl
          exact h.told address neighbor hop told
        have moved : (n.onBeacon beacon).state.gradient = n.gradient ∨
            (n.onBeacon beacon).state.gradient = n.gradient.after beacon := by
          cases closed : n.closed with
          | true => exact .inl (congrArg (·.state.gradient) (Node.onBeacon_of_closed closed beacon))
          | false => exact .inr (Node.gradient_onBeacon closed beacon)
        have nearer : ∀ m, d.network.nodes.get? address = some m →
            (n.onBeacon beacon).state.gradient.hop.toNat ≤ m.gradient.hop.toNat := by
          intro m present'
          obtain rfl := Option.some.inj (present.symm.trans present')
          rcases moved with same | after
          · rw [same]
          · rw [after]
            exact n.gradient.toNat_hop_after_le beacon
        refine ⟨h.put puts nearer ?_, puts.advances nearer⟩
        rcases moved with same | after
        · exact same ▸ behind
        · exact after ▸ Network.behind_after behind covers
    · exact ⟨h, .refl _⟩

private theorem Sound.run (h : d.Sound) (acts : List Act) :
    (d.run acts).Sound ∧ d.network.Advances (d.run acts).network := by
  induction acts generalizing d with
  | nil => exact ⟨h, .refl _⟩
  | cons act rest ih =>
    obtain ⟨kept, advances⟩ := h.step act
    obtain ⟨last, further⟩ := ih kept
    exact ⟨last, advances.trans further⟩

/-- Whoever hears whom, and in whatever order nodes come and go, rounds take place, and nodes learn
of what they were told: a node that has a parent has a hop count from 1 to 254, its parent has a
smaller one, and going from parent to parent never leads back; hop counts never rise; and an open
node announces one hop more than its own, up to 255. -/
theorem descent_run (medium : Medium) (links : Table Address (OrderedSet Address))
    (acts : List Act) :
    let net := ((start medium links).run acts).network
    (∀ a n p, net.nodes.get? a = some n → n.gradient.parent = some p →
      1 ≤ n.gradient.hop.toNat ∧ n.gradient.hop.toNat ≤ 254 ∧
        ∃ m, net.nodes.get? p = some m ∧ m.gradient.hop.toNat < n.gradient.hop.toNat) ∧
    (∀ a b i j, i < j → net.upward i a = some b → net.upward j a ≠ some b) ∧
    (∀ more, net.Advances ((start medium links).run (acts ++ more)).network) ∧
    (∀ a n, net.nodes.get? a = some n → n.closed = false →
      ∃ hop, net.board.announcedBy a = some hop ∧
        hop.toNat = min 255 (n.gradient.hop.toNat + 1)) := by
  intro net
  obtain ⟨sound, -⟩ := (sound_start medium links).run acts
  refine ⟨fun a n p present ↦ sound.descends a n present p, fun a b i j later ↦
    sound.descends.upward_ne later, fun more ↦ ?_, fun a n present opened ↦ ?_⟩
  · rw [Discovery.run, List.foldl_append]
    exact (sound.run more).2
  · refine ⟨n.gradient.advertised, ?_, n.gradient.toNat_advertised⟩
    rw [sound.truthful, present]
    simp [Node.announcement, opened]

end Discovery
end CollectionTree
