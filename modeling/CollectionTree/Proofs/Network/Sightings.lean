import CollectionTree.Proofs.Network.Completion
import CollectionTree.Proofs.Network.Gathering
import CollectionTree.Proofs.Node.Sightings

/-!
# Sightings in a network

No step of a network loses a sighting or makes one up. What a frame carries is held by its receiver
before its sender lets go of it, and the receiver is another node, nearer to the sink. While a frame
waits for its fate to be told, nothing else is under way from its sender, so what it carries is all
that the sender lets go of: `Sights.delivered`. No order of steps is assumed.
-/

namespace CollectionTree
namespace Network

/-- The node at an address holds a sighting and is not the sink. -/
def HeldAt (net : Network) (address : Address) (key : Bytes) : Prop :=
  ∃ n, net.nodes.get? address = some n ∧ n.gradient.isSink = false ∧ key ∈ n.sightings

/-- Some node that is not the sink holds a sighting. -/
def Held (net : Network) (key : Bytes) : Prop := ∃ address, net.HeldAt address key

/-- Some node, perhaps the sink, holds a sighting. -/
def Known (net : Network) (key : Bytes) : Prop :=
  ∃ address n, net.nodes.get? address = some n ∧ key ∈ n.sightings

/-- The sink is handed a sighting. -/
def Handed (outputs : List (Address × Output)) (key : Bytes) : Prop :=
  Node.Hands (outputs.map Prod.snd) key

/-- From one network to another no sighting is lost and none is made up. -/
structure Moves (net net' : Network) (outputs : List (Address × Output)) : Prop where
  kept : ∀ key, net.Held key → net'.Held key ∨ Handed outputs key
  found : ∀ key, net'.Known key ∨ Handed outputs key → net.Known key

/-- A deployment whose frames in `waiting` left the medium but are not settled yet. Nothing is under
way from their senders. -/
structure Sights (net : Network) (waiting : List (Address × Outgoing)) : Prop where
  accounted : net.Accounted waiting
  lined : net.Lined
  watches : ∀ a n, net.nodes.get? a = some n → n.Watches
  waits : ∀ a frame, Table.lookup a waiting = some frame →
    net.Transit a frame ∧ net.medium.inFlight.get? a = none
  flies : ∀ a frame, net.medium.inFlight.get? a = some frame → net.Transit a frame

variable {net net' : Network} {address sender : Address} {n : Node} {frame : Outgoing}
  {waiting : List (Address × Outgoing)} {key : Bytes}

/-- A sighting is handed over in two lots of outputs if it is in one of them. -/
theorem handed_append (outputs more : List (Address × Output)) :
    Handed (outputs ++ more) key ↔ Handed outputs key ∨ Handed more key := by
  simp [Handed, Node.Hands, exists_or]

/-- A network hands a sighting over if one of its nodes does. -/
theorem handed_map_pair (address : Address) (outputs : List Output) :
    Handed (outputs.map (address, ·)) key ↔ Node.Hands outputs key := by
  simp [Handed, Function.comp_def]

/-- Without outputs no sighting is handed over. -/
theorem not_hands_nil : ¬Node.Hands [] key := by simp [Node.Hands]

/-! ## One node -/

private theorem Moves.refl (net : Network) : net.Moves net [] where
  kept _ held := .inl held
  found _ mem := mem.elim id fun handed ↦ absurd handed not_hands_nil

private theorem Moves.trans {last : Network} {outputs more : List (Address × Output)}
    (h : net.Moves net' outputs) (h' : net'.Moves last more) :
    net.Moves last (outputs ++ more) where
  kept key held := by
    rw [handed_append]
    rcases h.kept key held with held | handed
    · exact (h'.kept key held).imp id .inr
    · exact .inr (.inl handed)
  found key mem := by
    rw [handed_append] at mem
    rcases mem with known | handed | handed
    · exact h.found key (.inl (h'.found key (.inl known)))
    · exact h.found key (.inr handed)
    · exact h.found key (.inl (h'.found key (.inr handed)))

private theorem heldAt_insert_of_ne {a : Address} (other : a ≠ address) (n' : Node) (board : Board)
    (medium : Medium) :
    HeldAt { net with nodes := net.nodes.insert address n', board, medium } a key ↔
      net.HeldAt a key := by
  rw [HeldAt, HeldAt, Table.get?_insert_of_ne _ other]

private theorem heldAt_insert_self (n' : Node) (board : Board) (medium : Medium) :
    HeldAt { net with nodes := net.nodes.insert address n', board, medium } address key ↔
      n'.gradient.isSink = false ∧ key ∈ n'.sightings := by
  simp [HeldAt]

/-- What is known after a node changed is held by that node or was known before. -/
theorem Known.of_insert {n' : Node} {board : Board} {medium : Medium}
    (known : Known { net with nodes := net.nodes.insert address n', board, medium } key) :
    key ∈ n'.sightings ∨ net.Known key := by
  obtain ⟨a, m, present, mem⟩ := known
  by_cases own : a = address
  · subst own
    rw [Table.get?_insert_self] at present
    obtain rfl := Option.some.inj present
    exact .inl mem
  · rw [Table.get?_insert_of_ne _ own] at present
    exact .inr ⟨a, m, present, mem⟩

/-- A node changes and hands on what it does not keep. -/
theorem Moves.insert (present : net.nodes.get? address = some n) {n' : Node}
    {outputs : List Output}
    (kept : ∀ key ∈ n.sightings, n.gradient.isSink = false →
      n'.gradient.isSink = false ∧ key ∈ n'.sightings ∨ Node.Hands outputs key)
    (found : ∀ key, key ∈ n'.sightings ∨ Node.Hands outputs key → net.Known key) (board : Board)
    (medium : Medium) :
    net.Moves { net with nodes := net.nodes.insert address n', board, medium }
      (outputs.map (address, ·)) where
  kept key held := by
    obtain ⟨a, held⟩ := held
    by_cases own : a = address
    · subst own
      obtain ⟨m, present', inner, mem⟩ := held
      obtain rfl := Option.some.inj (present'.symm.trans present)
      rcases kept key mem inner with stays | handed
      · exact .inl ⟨a, (heldAt_insert_self n' board medium).2 stays⟩
      · exact .inr ((handed_map_pair a outputs).2 handed)
    · exact .inl ⟨a, (heldAt_insert_of_ne own n' board medium).2 held⟩
  found key mem := by
    rcases mem with known | handed
    · exact known.of_insert.elim (fun mem ↦ found key (.inl mem)) id
    · exact found key (.inr ((handed_map_pair address outputs).1 handed))

/-- A node changes, but not in what it holds or whether it is the sink, and hands nothing on. -/
theorem Moves.same (present : net.nodes.get? address = some n) {n' : Node}
    (isSink : n'.gradient.isSink = n.gradient.isSink) (sightings : n'.sightings = n.sightings)
    {outputs : List Output} (silent : ∀ key, ¬Node.Hands outputs key) (board : Board)
    (medium : Medium) :
    net.Moves { net with nodes := net.nodes.insert address n', board, medium }
      (outputs.map (address, ·)) := by
  refine Moves.insert present (fun key mem inner ↦ ?_) (fun key mem ↦ ?_) board medium
  · exact .inl ⟨isSink.trans inner, sightings ▸ mem⟩
  · rcases mem with mem | handed
    · exact ⟨address, n, present, sightings ▸ mem⟩
    · exact absurd handed (silent key)

/-! ## Steps of one node -/

/-- A change at one node that leaves it where it stands, with no frame of it waiting afterwards. -/
theorem Sights.update {waiting' : List (Address × Outgoing)} (h : net.Sights waiting)
    (present : net.nodes.get? address = some n) {n' : Node} {medium : Medium}
    (gradient : n'.gradient = n.gradient) (watches : n'.Watches)
    (accounted : Accounted { net with nodes := net.nodes.insert address n', medium } waiting')
    (settled : Table.lookup address waiting' = none)
    (lookup : ∀ a, a ≠ address → Table.lookup a waiting' = Table.lookup a waiting)
    (flying : ∀ a, a ≠ address → medium.inFlight.get? a = net.medium.inFlight.get? a)
    (flies : ∀ frame, medium.inFlight.get? address = some frame → net.Transit address frame) :
    Sights { net with nodes := net.nodes.insert address n', medium } waiting' where
  accounted := accounted
  lined := h.lined.insert present n' gradient medium
  watches := by
    apply Table.forall_get?_insert
    · exact watches
    · exact fun a m _ found ↦ h.watches a m found
  waits a frame found := by
    have other : a ≠ address := by
      rintro rfl
      rw [settled] at found
      cases found
    rw [lookup a other] at found
    obtain ⟨transit, free⟩ := h.waits a frame found
    exact ⟨transit.insert address n' net.board medium, (flying a other).trans free⟩
  flies a frame found := by
    by_cases own : a = address
    · subst own
      exact (flies frame found).insert a n' net.board medium
    · rw [flying a own] at found
      exact (h.flies a frame found).insert address n' net.board medium

/-- A node that took something in, or nothing, is flushed while no frame of it waits. -/
theorem Sights.flushed (h : net.Sights waiting) (present : net.nodes.get? address = some n)
    (settled : Table.lookup address waiting = none) {m : Node} (gradient : m.gradient = n.gradient)
    (watches : m.Watches) (opened : m.closed = false) (urgent : Bool) :
    let flushed := m.flush (net.medium.radio address) urgent
    let net' : Network := { net with
      nodes := net.nodes.insert address flushed.state
      medium := net.medium.carrying address (Node.takenFrame? flushed.outputs) }
    net'.Accounted waiting → net'.Sights waiting ∧ m.Passes flushed ∧
      flushed.state.gradient = n.gradient := by
  intro flushed net' accounted
  have passes : m.Passes flushed := watches.passes opened (net.medium.radio address) urgent
  have stands : flushed.state.gradient = n.gradient :=
    (Node.flush_keeps watches.distinct (net.medium.radio address) urgent).1.trans gradient
  refine ⟨?_, passes, stands⟩
  refine h.update present stands passes.watches accounted settled (fun _ _ ↦ rfl)
    (fun a own ↦ net.medium.get?_carrying_of_ne own _) fun frame found ↦ ?_
  rw [Medium.get?_carrying] at found
  cases taken : Node.takenFrame? flushed.outputs with
  | none =>
    rw [taken] at found
    exact h.flies address frame found
  | some sent =>
    rw [taken] at found
    obtain rfl : sent = frame := Option.some.inj found
    obtain ⟨route, fits⟩ := passes.sends sent taken
    obtain ⟨toward, receiver⟩ := h.lined.parent present (gradient ▸ route)
    exact ⟨toward, by rw [present]; rfl, receiver, fits⟩

/-- A turn of the network that loses no sighting and makes none up. -/
structure Relays {α : Type} (net : Network) (r : Reaction α Network (Address × Output)) :
    Prop where
  sights : r.state.Sights []
  moves : net.Moves r.state r.outputs

/-- A flush relays sightings. -/
theorem Sights.flush (h : net.Sights []) (present : net.nodes.get? address = some n)
    (urgent : Bool) :
    net.Relays (net.settleReaction address (n.flush (net.medium.radio address) urgent)) := by
  have here := h.accounted.nodes address n present
  have watches := h.watches address n present
  have accounted := h.accounted.flush address urgent
  rw [acted_flush present watches.distinct] at accounted
  obtain ⟨sights, passes, stands⟩ := h.flushed present rfl rfl watches here.opened urgent accounted
  have state := settleReaction_of_flushed
    (Node.flushed_flush watches.distinct (net.medium.radio address) urgent)
  refine ⟨state ▸ sights, state ▸ ?_⟩
  refine Moves.insert present (fun key mem _ ↦ ?_) (fun key mem ↦ ?_) net.board _
  · exact (passes.kept key mem).imp (fun stays ↦ ⟨stands ▸ stays.1, stays.2⟩) id
  · exact ⟨address, n, present, passes.found key mem⟩

/-- A node changes by itself, and no frame of it comes or goes. -/
theorem Sights.modify (h : net.Sights []) (present : net.nodes.get? address = some n)
    {change : Node → Node} (gradient : (change n).gradient = n.gradient)
    (watches : (change n).Watches) (accounted : (net.modifyNode address change).Accounted []) :
    (net.modifyNode address change).Sights [] := by
  rw [modifyNode, Table.modify_of_present present] at accounted ⊢
  exact h.update present gradient watches accounted rfl (fun _ _ ↦ rfl) (fun _ _ ↦ rfl)
    (h.flies address)

/-! ## Facts and delays -/

/-- A fact leaves the sightings of a deployment in order. -/
theorem Sights.sow (h : net.Sights []) (present : net.nodes.get? address = some n) (id : UInt8)
    (elapsed : Nat) (fact value : Bytes) :
    (net.modifyNode address fun n ↦ (n.sow id elapsed fact value).2).Sights [] :=
  h.modify present (n.sow_keeps id elapsed fact value).1
    ((h.watches address n present).sow id elapsed fact value)
    (h.accounted.sow address id elapsed fact value)

/-- A fact for another job has nothing to do with sightings. -/
theorem Moves.sow_of_ne (present : net.nodes.get? address = some n) {id : UInt8}
    (other : Detect.jobId ≠ id) (elapsed : Nat) (fact value : Bytes) :
    net.Moves (net.modifyNode address fun n ↦ (n.sow id elapsed fact value).2) [] := by
  have gradient := (n.sow_keeps id elapsed fact value).1
  rw [modifyNode, Table.modify_of_present present]
  exact Moves.same present (congrArg Gradient.isSink gradient)
    (Node.sightings_sow_of_ne other elapsed fact value) (fun _ ↦ not_hands_nil) net.board net.medium

/-- A node that is not the sink holds what its detecting job makes of a fact, and what it held
before. -/
theorem Sights.held_sow (h : net.Sights []) (present : net.nodes.get? address = some n)
    (inner : n.gradient.isSink = false) {elapsed : Nat} {fact value : Bytes}
    (mem : net.Held key ∨ key ∈ (n.sighted elapsed fact value).map Record.key) :
    (net.modifyNode address fun n ↦ (n.sow Detect.jobId elapsed fact value).2).Held key := by
  have sown : key ∈ (n.sow Detect.jobId elapsed fact value).2.sightings ↔
      key ∈ n.sightings ∨ key ∈ (n.sighted elapsed fact value).map Record.key :=
    ((h.watches address n present).learns_sow elapsed fact value).mem_sightings
  have stands := (n.sow_keeps Detect.jobId elapsed fact value).1
  rw [modifyNode, Table.modify_of_present present]
  have here (mem : key ∈ n.sightings ∨ key ∈ (n.sighted elapsed fact value).map Record.key) :
      Held { net with
        nodes := net.nodes.insert address (n.sow Detect.jobId elapsed fact value).2 } key :=
    ⟨address, (heldAt_insert_self _ net.board net.medium).2
      ⟨(congrArg Gradient.isSink stands).trans inner, sown.2 mem⟩⟩
  rcases mem with ⟨a, held⟩ | made
  · by_cases own : a = address
    · subst own
      obtain ⟨m, present', -, mem⟩ := held
      obtain rfl := Option.some.inj (present'.symm.trans present)
      exact here (.inl mem)
    · exact ⟨a, (heldAt_insert_of_ne own _ net.board net.medium).2 held⟩
  · exact here (.inr made)

/-- What is known after a fact was given to the detecting job was known before, or is made of it. -/
theorem Sights.known_sow (h : net.Sights []) (present : net.nodes.get? address = some n)
    {elapsed : Nat} {fact value : Bytes}
    (known : (net.modifyNode address fun n ↦
      (n.sow Detect.jobId elapsed fact value).2).Known key) :
    net.Known key ∨ key ∈ (n.sighted elapsed fact value).map Record.key := by
  rw [modifyNode, Table.modify_of_present present] at known
  rcases known.of_insert with mem | known
  · have before := ((h.watches address n present).learns_sow elapsed fact value).mem_sightings.1 mem
    exact before.imp (fun mem ↦ ⟨address, n, present, mem⟩) id
  · exact .inl known

/-- A node that draws its next delay. -/
theorem Sights.nextFlushDelay (h : net.Sights []) (present : net.nodes.get? address = some n) :
    (net.modifyNode address fun _ ↦ n.nextFlushDelay.2).Sights [] ∧
      net.Moves (net.modifyNode address fun _ ↦ n.nextFlushDelay.2) [] := by
  have watches := h.watches address n present
  have here : n.nextFlushDelay.2.Accounted none (net.medium.inFlight.get? address) :=
    (h.accounted.nodes address n present).congr rfl rfl rfl
  refine ⟨h.modify present rfl (watches.congr rfl (watches.books.congr rfl rfl)) ?_, ?_⟩
  · rw [modifyNode, Table.modify_of_present present]
    exact h.accounted.insert present n.nextFlushDelay.2 none here net.board
  · rw [modifyNode, Table.modify_of_present present]
    have isSink : n.nextFlushDelay.2.gradient.isSink = n.gradient.isSink := rfl
    exact Moves.same present isSink rfl (fun _ ↦ not_hands_nil) net.board net.medium

/-! ## Settled frames -/

/-- What a waiting frame carries is held by its sender. -/
theorem Sights.known_of_carried (h : net.Sights ((sender, frame) :: waiting))
    (carried : key ∈ carriedKeys (some frame) Detect.jobId) : net.Known key := by
  obtain ⟨transit, -⟩ := h.waits sender frame (Table.lookup_cons_self ..)
  obtain ⟨n, present⟩ := Option.isSome_iff_exists.1 transit.sender
  have here := h.accounted.nodes sender n present
  rw [Table.lookup_cons_self] at here
  obtain ⟨r, hr, -, rfl⟩ := Node.mem_pendingKeys.1 ((here.marks Detect.jobId key).2 (.inl carried))
  exact ⟨sender, n, present, List.mem_map.2 ⟨r, hr, rfl⟩⟩

/-- What arrives is held by the receiver from then on, or the receiver is the sink and hands it
over. -/
theorem Sights.received (h : net.Sights ((sender, frame) :: waiting))
    (ascending : Table.Ascending ((sender, frame) :: waiting)) :
    let event : Address × Signal := (frame.target, .received sender frame.payload)
    (net.tell Node.onSignal event).Sights ((sender, frame) :: waiting) ∧
      net.Moves (net.tell Node.onSignal event) (net.toldOutputs Node.onSignal event) ∧
      ∀ key ∈ carriedKeys (some frame) Detect.jobId,
        (net.tell Node.onSignal event).HeldAt frame.target key ∨
          Handed (net.toldOutputs Node.onSignal event) key := by
  intro event
  obtain ⟨transit, -⟩ := h.waits sender frame (Table.lookup_cons_self ..)
  obtain ⟨n, present⟩ := Option.isSome_iff_exists.1 transit.receiver
  -- Frames are settled in ascending order of senders, so the receiver's own frame came before.
  have settled : Table.lookup frame.target ((sender, frame) :: waiting) = none :=
    ascending.lookup_of_lt transit.toward
  have opened := (h.accounted.nodes frame.target n present).opened
  have watches := h.watches frame.target n present
  have taken := watches.takingIn transit.fits
  have held (key : Bytes) : key ∈ (n.takingIn frame.payload).sightings ↔
      key ∈ n.sightings ∨ key ∈ carriedKeys (some frame) Detect.jobId := by
    rw [(watches.learns_takingIn transit.fits).mem_sightings, Store.map_key_arrivals]
    rfl
  have accounted := h.accounted.received frame.target sender frame.payload
  rw [tell_received present opened watches.distinct] at accounted
  obtain ⟨sights, passes, stands⟩ := h.flushed present settled
    (n.gradient_takingIn frame.payload) taken ((n.closed_takingIn frame.payload).trans opened)
    true accounted
  rw [tell_received present opened watches.distinct, toldOutputs_of_present present,
    Node.onSignal_received opened]
  generalize (n.takingIn frame.payload).flush (net.medium.radio frame.target) true = flushed
    at sights passes stands ⊢
  have goes (key : Bytes) (mem : key ∈ (n.takingIn frame.payload).sightings) :
      flushed.state.gradient.isSink = false ∧ key ∈ flushed.state.sightings ∨
        Node.Hands flushed.outputs key := by
    refine (passes.kept key mem).imp (fun stays ↦ ⟨?_, stays.2⟩) id
    rw [stands, ← n.gradient_takingIn frame.payload]
    exact stays.1
  refine ⟨sights, Moves.insert present (fun key mem _ ↦ ?_) (fun key mem ↦ ?_) _ _, ?_⟩
  · exact goes key ((held key).2 (.inl mem))
  · rcases (held key).1 (passes.found key mem) with mem | carried
    · exact ⟨frame.target, n, present, mem⟩
    · exact h.known_of_carried carried
  · intro key carried
    rw [heldAt_insert_self, handed_map_pair]
    exact goes key ((held key).2 (.inr carried))

/-- The first waiting frame is settled. -/
theorem Sights.settled (h : net.Sights ((sender, frame) :: waiting))
    (ascending : Table.Ascending ((sender, frame) :: waiting))
    (present : net.nodes.get? sender = some n) {n' : Node} (settled : n.SettledAs n')
    (gradient : n'.gradient = n.gradient) (watches : n'.Watches) :
    Sights { net with nodes := net.nodes.insert sender n' } waiting := by
  obtain ⟨-, free⟩ := h.waits sender frame (Table.lookup_cons_self ..)
  refine h.update present gradient watches (h.accounted.settled ascending present free settled)
    ascending.lookup_tail ?_ (fun _ _ ↦ rfl) (h.flies sender)
  exact fun a own ↦ (Table.lookup_cons_of_ne own frame waiting).symm

/-- The sender of a delivered frame lets go of what it carried, and of nothing else. -/
theorem Sights.sent (h : net.Sights ((sender, frame) :: waiting))
    (ascending : Table.Ascending ((sender, frame) :: waiting)) (retries : Nat) :
    let event : Address × Signal := (sender, .sent frame.target retries)
    (net.tell Node.onSignal event).Sights waiting ∧
      net.toldOutputs Node.onSignal event = [] ∧
      (∀ key, (net.tell Node.onSignal event).Known key → net.Known key) ∧
      ∀ a key, net.HeldAt a key → (net.tell Node.onSignal event).HeldAt a key ∨
        a = sender ∧ key ∈ carriedKeys (some frame) Detect.jobId := by
  intro event
  obtain ⟨transit, free⟩ := h.waits sender frame (Table.lookup_cons_self ..)
  obtain ⟨n, present⟩ := Option.isSome_iff_exists.1 transit.sender
  have here := h.accounted.nodes sender n present
  rw [Table.lookup_cons_self, free] at here
  have watches := h.watches sender n present
  rw [tell_sent present here.opened, toldOutputs_of_present present,
    Node.onSignal_sent here.opened]
  refine ⟨h.settled ascending present (.inl rfl) rfl watches.confirmed, rfl, ?_, ?_⟩
  · intro key known
    refine known.of_insert.elim (fun mem ↦ ?_) id
    exact ⟨sender, n, present, Node.mem_sightings_confirmed.1 mem⟩
  · intro a key held
    by_cases own : a = sender
    · subst own
      obtain ⟨m, present', inner, mem⟩ := held
      obtain rfl := Option.some.inj (present'.symm.trans present)
      rcases Node.mem_sightings_confirmed.2 mem with stays | pending
      · exact .inl ((heldAt_insert_self m.confirmed net.board net.medium).2 ⟨inner, stays⟩)
      · have carried := (here.marks Detect.jobId key).1 pending
        exact .inr ⟨rfl, by simpa using carried⟩
    · exact .inl ((heldAt_insert_of_ne own n.confirmed net.board net.medium).2 held)

/-- A frame that is delivered hands its sightings from its sender to its receiver. -/
theorem Sights.delivered (h : net.Sights ((sender, frame) :: waiting))
    (ascending : Table.Ascending ((sender, frame) :: waiting)) (retries : Nat) :
    let arrival : Address × Signal := (frame.target, .received sender frame.payload)
    let confirmation : Address × Signal := (sender, .sent frame.target retries)
    let arrived := net.tell Node.onSignal arrival
    (arrived.tell Node.onSignal confirmation).Sights waiting ∧
      arrived.toldOutputs Node.onSignal confirmation = [] ∧
      net.Moves (arrived.tell Node.onSignal confirmation)
        (net.toldOutputs Node.onSignal arrival) := by
  intro arrival confirmation arrived
  obtain ⟨transit, -⟩ := h.waits sender frame (Table.lookup_cons_self ..)
  obtain ⟨h₁, moves, landed⟩ := h.received ascending
  obtain ⟨h₂, silent, found, lets⟩ := h₁.sent ascending retries
  refine ⟨h₂, silent, fun key held ↦ ?_, fun key mem ↦ ?_⟩
  · rcases moves.kept key held with ⟨a, held⟩ | handed
    · rcases lets a key held with stays | ⟨-, carried⟩
      · exact .inl ⟨a, stays⟩
      · -- What the sender lets go of has landed, and not at the sender itself.
        rcases landed key carried with held | handed
        · rcases lets frame.target key held with stays | ⟨same, -⟩
          · exact .inl ⟨frame.target, stays⟩
          · exact absurd transit.toward (by rw [same]; exact Nat.lt_irrefl _)
        · exact .inr handed
    · exact .inr handed
  · exact moves.found key (mem.imp (found key) id)

/-- The sender of a frame that was given up keeps what it holds. -/
theorem Sights.timedOut (h : net.Sights ((sender, frame) :: waiting))
    (ascending : Table.Ascending ((sender, frame) :: waiting)) (retries : Nat) :
    let event : Address × Signal := (sender, .timedOut frame.target retries)
    (net.tell Node.onSignal event).Sights waiting ∧
      net.toldOutputs Node.onSignal event = [] ∧ net.Moves (net.tell Node.onSignal event) [] := by
  intro event
  obtain ⟨transit, -⟩ := h.waits sender frame (Table.lookup_cons_self ..)
  obtain ⟨n, present⟩ := Option.isSome_iff_exists.1 transit.sender
  have opened := (h.accounted.nodes sender n present).opened
  have watches := h.watches sender n present
  rw [tell_timedOut present opened, toldOutputs_of_present present,
    Node.onSignal_timedOut opened]
  have isSink : n.givenUp.gradient.isSink = n.gradient.isSink := rfl
  exact ⟨h.settled ascending present (.inr rfl) rfl watches.givenUp, rfl,
    Moves.same present isSink n.sightings_givenUp (fun _ ↦ not_hands_nil) net.board net.medium⟩

/-! ## Whole turns -/

private theorem Relays.refl {α : Type} (h : net.Sights []) (answer : α) :
    net.Relays ⟨answer, net, []⟩ :=
  ⟨h, .refl net⟩

private theorem Relays.trans {α β γ : Type} {first : Reaction α Network (Address × Output)}
    {last : Reaction β Network (Address × Output)} (h : net.Relays first)
    (h' : first.state.Relays last) (answer : γ) :
    net.Relays ⟨answer, last.state, first.outputs ++ last.outputs⟩ :=
  ⟨h'.sights, h.moves.trans h'.moves⟩

/-- All signals of settled frames are told. -/
theorem Sights.settles {signals : List (Address × Signal)} (settles : Settles waiting signals)
    (h : net.Sights waiting) (ascending : Table.Ascending waiting) :
    net.Relays (net.deliver Node.onSignal signals) := by
  induction settles generalizing net with
  | done => exact .refl h ()
  | @delivered sender frame rest signals retries more ih =>
    obtain ⟨sights, silent, moves⟩ := h.delivered ascending retries
    have later := ih sights ascending.tail
    rw [deliver_cons, deliver_cons, silent]
    exact ⟨later.sights, moves.trans later.moves⟩
  | @givenUp sender frame rest signals retries more ih =>
    obtain ⟨sights, silent, moves⟩ := h.timedOut ascending retries
    have later := ih sights ascending.tail
    rw [deliver_cons, silent]
    exact ⟨later.sights, moves.trans later.moves⟩

/-- What was under way is waiting once the medium has settled it. -/
theorem Sights.settledMedium (h : net.Sights []) :
    net.settledMedium.Sights net.medium.inFlight.entries where
  accounted := h.accounted.settledMedium
  lined := h.lined.congr (fun _ ↦ rfl) rfl
  watches := h.watches
  waits a frame found := by
    have transit := h.flies a frame found
    exact ⟨⟨transit.toward, transit.sender, transit.receiver, transit.fits⟩,
      get?_settledMedium net a⟩
  flies a frame found := by
    rw [get?_settledMedium] at found
    cases found

private theorem Sights.pump (h : net.Sights []) : net.Relays net.pump := by
  have told := h.settledMedium.settles net.medium.settles_pump net.medium.inFlight.ascending
  exact ⟨told.sights, told.moves.kept, told.moves.found⟩

/-- Settling relays sightings. -/
theorem Sights.settle (h : net.Sights []) (rounds : Nat) : net.Relays (net.settle rounds) := by
  induction rounds generalizing net with
  | zero => exact .refl h _
  | succ rounds ih =>
    have first := h.pump
    rw [Network.settle]
    split
    · exact ⟨first.sights, first.moves⟩
    · exact first.trans (ih first.sights) _

/-! ## Discovery -/

/-- Beacons want nothing handed to the sink. -/
theorem not_hands_onBeacon (n : Node) (beacon : Beacon) :
    ¬Node.Hands (n.onBeacon beacon).outputs key := by
  rintro ⟨value, mem⟩
  unfold Node.onBeacon at mem
  split at mem
  · cases mem
  · split at mem
    · simp only at mem
      split at mem <;> simp at mem
    · cases mem

private theorem Sights.beacon (h : net.Sights []) (present : net.nodes.get? address = some n)
    {beacon : Beacon} (heard : net.Heard address beacon) :
    let net' := net.tell (fun n _ beacon ↦ n.onBeacon beacon) (address, beacon)
    net'.Sights [] ∧ net.Moves net' ((n.onBeacon beacon).outputs.map (address, ·)) := by
  intro net'
  have opened := (h.accounted.nodes address n present).opened
  have watches := h.watches address n present
  have accounted := h.accounted.beacon (address, beacon)
  have lined := h.lined.heard present opened heard
  obtain ⟨gradient, cycles, board, isSink, after⟩ := tell_beacon present opened beacon
  rw [after] at lined accounted
  simp only [net', after]
  have stays : Node.sightings { n with
      gradient, counters := { n.counters with cycles } } = n.sightings := rfl
  refine ⟨⟨accounted, lined, ?_, (fun _ _ found ↦ nomatch found), ?_⟩,
    Moves.same present isSink stays (fun _ ↦ not_hands_onBeacon n beacon) board net.medium⟩
  · apply Table.forall_get?_insert
    · exact watches.congr rfl (watches.books.congr rfl rfl)
    · exact fun a m _ found ↦ h.watches a m found
  · exact fun a frame found ↦ (h.flies a frame found).insert address _ board net.medium

/-- A round of discovery relays sightings. -/
theorem Sights.discover (h : net.Sights []) : net.Relays net.discover := by
  obtain ⟨sights, moves⟩ := discover_induction (P := fun net ↦ net.Sights []) (T := Moves)
    (fun h ↦ h.lined) (fun h present ↦ (h.accounted.nodes _ _ present).opened)
    (fun _ ↦ .refl _) .trans (fun h present heard ↦ h.beacon present heard) h
  exact ⟨sights, moves⟩

end Network
end CollectionTree
