import CollectionTree.Proofs.Network.Completion

/-!
# Steps of different nodes

A node sees nothing of the network but itself and its own radio, and what it wants done concerns its
own places on the medium and the board. So of steps at different addresses none makes a difference
to the other, and they may be taken in either order: `act?_comm`.
-/

namespace CollectionTree
namespace Network

/-! ## Sites -/

/-- What there is at an address: the node, its radio, its frame under way, and what it announces. -/
structure Site where
  node : Option Node
  opened : Option Unit
  frame : Option Outgoing
  announced : Option UInt8

/-- What there is at an address of a network. -/
def site (net : Network) (address : Address) : Site where
  node := net.nodes.get? address
  opened := net.medium.opened.get? address
  frame := net.medium.inFlight.get? address
  announced := net.board.announced.get? address

/-- What belongs to no address: the draws, the loss and the counts of the medium, and who hears
whom. -/
structure Common where
  source : Source
  loss : Chance
  stats : MediumStats
  links : Table Address (OrderedSet Address)

/-- What belongs to no address of a network. -/
def common (net : Network) : Common :=
  ⟨net.medium.source, net.medium.loss, net.medium.stats, net.board.links⟩

variable {net net' : Network} {address other : Address}

/-- A network is what it has in common and what there is at every address. -/
theorem ext_site (common : net.common = net'.common) (sites : ∀ a, net.site a = net'.site a) :
    net = net' := by
  obtain ⟨⟨source, loss, opened, inFlight, stats⟩, ⟨announced, links⟩, nodes⟩ := net
  obtain ⟨⟨source', loss', opened', inFlight', stats'⟩, ⟨announced', links'⟩, nodes'⟩ := net'
  obtain ⟨rfl, rfl, rfl, rfl⟩ := Common.mk.inj common
  have sites (a : Address) := Site.mk.inj (sites a)
  obtain rfl : nodes = nodes' := Table.ext_get? fun a ↦ (sites a).1
  obtain rfl : opened = opened' := Table.ext_get? fun a ↦ (sites a).2.1
  obtain rfl : inFlight = inFlight' := Table.ext_get? fun a ↦ (sites a).2.2.1
  obtain rfl : announced = announced' := Table.ext_get? fun a ↦ (sites a).2.2.2
  rfl

/-- A node sees of the medium only what there is at its own address. -/
theorem radio_eq_of_site_eq (same : net.site address = net'.site address) :
    net.medium.radio address = net'.medium.radio address := by
  obtain ⟨-, opened, frame, -⟩ := Site.mk.inj same
  have busy : net.medium.isBusy address = net'.medium.isBusy address := congrArg Option.isSome frame
  have contains : net.medium.opened.contains address = net'.medium.opened.contains address :=
    congrArg Option.isSome opened
  rw [Medium.radio, Medium.radio, busy]
  congr 1
  funext offered
  rw [Bool.eq_iff_iff, Medium.submit_isOk_iff, Medium.submit_isOk_iff, busy, contains]

/-! ## Changes at one address -/

/-- A change that concerns one address only: it leaves everything else alone, and what it makes of
this address depends on nothing else. -/
structure Local (address : Address) (change : Network → Network) : Prop where
  common : ∀ net, (change net).common = net.common
  elsewhere : ∀ net other, other ≠ address → (change net).site other = net.site other
  here : ∀ net net', net.site address = net'.site address →
    (change net).site address = (change net').site address

namespace Local

variable {f g : Network → Network}

private theorem refl (address : Address) : Local address fun net ↦ net :=
  ⟨fun _ ↦ rfl, fun _ _ _ ↦ rfl, fun _ _ same ↦ same⟩

private theorem comp (hf : Local address f) (hg : Local address g) :
    Local address fun net ↦ g (f net) where
  common net := (hg.common (f net)).trans (hf.common net)
  elsewhere net other differ :=
    (hg.elsewhere (f net) other differ).trans (hf.elsewhere net other differ)
  here _ _ same := hg.here _ _ (hf.here _ _ same)

/-- Changes that concern different addresses may be made in either order. -/
theorem comm (hf : Local address f) (hg : Local other g) (differ : address ≠ other)
    (net : Network) : f (g net) = g (f net) := by
  refine ext_site ?_ fun a ↦ ?_
  · rw [hf.common, hg.common, hg.common, hf.common]
  -- What the one change makes of its own address it makes of it before and after the other.
  · by_cases own : a = address
    · subst own
      rw [hg.elsewhere (f net) a differ]
      exact hf.here _ _ (hg.elsewhere net a differ)
    · rw [hf.elsewhere (g net) a own]
      by_cases its : a = other
      · subst its
        exact hg.here _ _ (hf.elsewhere net a own).symm
      · rw [hg.elsewhere net a its, hg.elsewhere (f net) a its, hf.elsewhere net a own]

end Local

/-- A node takes a new state. -/
theorem local_insert (address : Address) (n : Node) :
    Local address fun net ↦ { net with nodes := net.nodes.insert address n } where
  common _ := rfl
  elsewhere _ _ differ := by simp [site, Table.get?_insert_of_ne _ differ]
  here _ _ same := by
    obtain ⟨-, opened, frame, announced⟩ := Site.mk.inj same
    simp [site, opened, frame, announced]

/-! ## Carrying out what a node wants done -/

/-- What carrying out what a node wants done makes of its own site. -/
def Site.perform (s : Site) : Output → Site
  | .start hop => { s with announced := some hop }
  | .announce hop => { s with announced := s.announced.map fun _ ↦ hop }
  | .stop => { s with opened := none, frame := none, announced := none }
  | .offer frame _ =>
    if s.opened.isSome ∧ frame.payload ≠ [] ∧ s.frame = none then
      { s with frame := some frame }
    else s
  | .consume _ _ _ => s

/-- A frame comes under way exactly if the radio takes it. -/
theorem perform_offer (net : Network) (address : Address) (frame : Outgoing) (accepted : Bool) :
    net.perform address (.offer frame accepted) =
      if (net.site address).opened.isSome ∧ frame.payload ≠ [] ∧
          (net.site address).frame = none then
        { net with medium := net.medium.carrying address (some frame) }
      else net := by
  have taken : (net.medium.submit address frame).isOk ↔ (net.site address).opened.isSome ∧
      frame.payload ≠ [] ∧ (net.site address).frame = none := by
    have idle : net.medium.isBusy address = false ↔ (net.site address).frame = none := by
      simp [Medium.isBusy, Table.contains, site]
    rw [Medium.submit_isOk_iff, idle]
    rfl
  simp only [← taken, perform]
  split
  · next medium submitted =>
    have ok : (net.medium.submit address frame).isOk = true := by
      rw [submitted]
      rfl
    rw [if_pos ok]
    have carried := Medium.submit_of_accepts ok
    rw [submitted] at carried
    rw [Except.ok.inj carried]
  · next cause refused =>
    rw [if_neg]
    rw [refused]
    exact Bool.false_ne_true

private theorem site_perform (net : Network) (address : Address) (output : Output) :
    (net.perform address output).site address = (net.site address).perform output := by
  cases output with
  | start hop => simp [perform, Board.start, site, Site.perform]
  | announce hop => simp [perform, Board.announce, site, Site.perform, Table.get?_modify_self]
  | stop => simp [perform, Board.stop, Medium.detach, site, Site.perform, Table.get?_erase]
  | offer frame accepted =>
    rw [perform_offer, Site.perform]
    split
    · simp [site, Medium.carrying]
    · rfl
  | consume job key value => rfl

private theorem local_perform (address : Address) (output : Output) :
    Local address fun net ↦ net.perform address output where
  common net := by
    cases output with
    | offer frame accepted =>
      rw [perform_offer]
      split <;> rfl
    | start | announce | stop | consume => rfl
  elsewhere net other differ := by
    have apart : address.toNat ≠ other.toNat := fun same ↦ differ (Address.toNat_inj.1 same).symm
    cases output with
    | start hop => simp [perform, Board.start, site, Table.get?_insert_of_ne _ differ]
    | announce hop => simp [perform, Board.announce, site, Table.get?_modify_of_ne _ differ]
    | stop => simp [perform, Board.stop, Medium.detach, site, Table.get?_erase, apart]
    | offer frame accepted =>
      rw [perform_offer]
      split
      · simp [site, Medium.carrying, Table.get?_insert_of_ne _ differ]
      · rfl
    | consume job key value => rfl
  here net net' same := by rw [site_perform, site_perform, same]

private theorem local_performAll (address : Address) (outputs : List Output) :
    Local address fun net ↦ outputs.foldl (·.perform address) net := by
  induction outputs with
  | nil => exact .refl address
  | cons output rest ih => exact (local_perform address output).comp ih

/-! ## Steps of a node -/

/-- What a node may do by itself or be told. -/
inductive LocalStep where
  /-- It is given a fact sensed after so many seconds. -/
  | sow (id : UInt8) (elapsed : Nat) (key value : Bytes)
  /-- It flushes, on a schedule or ahead of it. -/
  | flush (urgent : Bool)
  /-- Its radio tells it something. -/
  | signal (signal : Signal)
  /-- Discovery tells it something. -/
  | beacon (beacon : Beacon)
  /-- It is closed. -/
  | close

/-- What a node answers to a step. -/
inductive LocalAnswer where
  /-- How many records were taken in, or why none. -/
  | sown (stored : Except NodeError Nat)
  /-- Whether a frame was taken. -/
  | flushed (taken : Bool)
  /-- Nothing. -/
  | done

/-- What comes of a step of a node. -/
def LocalStep.react (s : LocalStep) (radio : Radio) (n : Node) :
    Reaction LocalAnswer Node Output :=
  match s with
  | .sow id elapsed key value =>
    let (stored, n) := n.sow id elapsed key value
    ⟨.sown stored, n, []⟩
  | .flush urgent =>
    let flushed := n.flush radio urgent
    ⟨.flushed flushed.answer, flushed.state, flushed.outputs⟩
  | .signal told => ⟨.done, (n.onSignal radio told).state, (n.onSignal radio told).outputs⟩
  | .beacon told => ⟨.done, (n.onBeacon told).state, (n.onBeacon told).outputs⟩
  | .close => ⟨.done, n.close.state, n.close.outputs⟩

variable {α β : Type} {f : Radio → Node → Reaction α Node Output}
  {g : Radio → Node → Reaction β Node Output}

/-- Whether there is a node at an address, what it answers and what it wants done depend on its own
site only. -/
theorem act?_congr (same : net.site address = net'.site address) :
    (net.act? address f).map (fun r ↦ (r.answer, r.outputs)) =
      (net'.act? address f).map fun r ↦ (r.answer, r.outputs) := by
  rw [act?, act?, radio_eq_of_site_eq same, (Site.mk.inj same).1]
  cases net'.nodes.get? address <;> rfl

/-- A step of a node concerns its own address only. -/
theorem local_acted (address : Address) (f : Radio → Node → Reaction α Node Output) :
    Local address fun net ↦ net.acted address f := by
  have step {net : Network} {n : Node} (present : net.nodes.get? address = some n) :
      Local address fun net' ↦
        (net'.settleReaction address (f (net.medium.radio address) n)).state :=
    (local_insert address _).comp (local_performAll address _)
  refine ⟨fun net ↦ ?_, fun net other differ ↦ ?_, fun net net' same ↦ ?_⟩
  · cases present : net.nodes.get? address with
    | none => rw [acted_of_absent present]
    | some n =>
      rw [acted_of_present present]
      exact (step present).common net
  · cases present : net.nodes.get? address with
    | none => rw [acted_of_absent present]
    | some n =>
      rw [acted_of_present present]
      exact (step present).elsewhere net other differ
  · have there := (Site.mk.inj same).1
    cases present : net.nodes.get? address with
    | none =>
      rw [acted_of_absent present, acted_of_absent (there.symm.trans present)]
      exact same
    | some n =>
      rw [acted_of_present present, acted_of_present (there.symm.trans present),
        ← radio_eq_of_site_eq same]
      exact (step present).here net net' same

/-- A node's step finds at its own address what it finds there after steps of other nodes. -/
theorem act?_acted_of_ne (differ : address ≠ other) (net : Network)
    (f : Radio → Node → Reaction α Node Output) (g : Radio → Node → Reaction β Node Output) :
    ((net.acted other g).act? address f).map (fun r ↦ (r.answer, r.outputs)) =
      (net.act? address f).map fun r ↦ (r.answer, r.outputs) :=
  act?_congr ((local_acted other g).elsewhere net address differ)

private theorem acted_of_act? {r : Reaction α Network (Address × Output)}
    (acts : net.act? address f = some r) : net.acted address f = r.state := by
  simp [acted, acts]

/-- Steps of two nodes may be taken in either order. Each of them has the same answer and wants the
same done as if it came first, both orders lead to one network, and so to the same signals of the
next pump and the same events of the next round. -/
theorem act?_comm {n m : Node} (differ : address ≠ other)
    (present : net.nodes.get? address = some n) (present' : net.nodes.get? other = some m)
    (s t : LocalStep) :
    ∃ first second last last',
      net.act? address s.react = some first ∧ first.state.act? other t.react = some last ∧
      net.act? other t.react = some second ∧ second.state.act? address s.react = some last' ∧
      last'.answer = first.answer ∧ last'.outputs = first.outputs ∧
      last.answer = second.answer ∧ last.outputs = second.outputs ∧
      last.state = last'.state ∧ last.state.pump.answer = last'.state.pump.answer ∧
      last.state.board.round = last'.state.board.round := by
  have acts {net : Network} {a : Address} {n : Node} (present : net.nodes.get? a = some n)
      (s : LocalStep) : ∃ r, net.act? a s.react = some r := by simp [act?, present]
  obtain ⟨first, one⟩ := acts present s
  obtain ⟨second, two⟩ := acts present' t
  have own := act?_acted_of_ne differ net s.react t.react
  have its := act?_acted_of_ne differ.symm net t.react s.react
  rw [acted_of_act? two, one] at own
  rw [acted_of_act? one, two] at its
  obtain ⟨last', three, same⟩ := Option.map_eq_some_iff.1 own
  obtain ⟨last, four, same'⟩ := Option.map_eq_some_iff.1 its
  obtain ⟨answer, outputs⟩ := Prod.mk.inj same
  obtain ⟨answer', outputs'⟩ := Prod.mk.inj same'
  have states := (local_acted other t.react).comm (local_acted address s.react) differ.symm net
  rw [acted_of_act? one, acted_of_act? two, acted_of_act? three, acted_of_act? four] at states
  exact ⟨first, second, last, last', one, four, two, three, answer, outputs, answer', outputs',
    states, by rw [states], by rw [states]⟩

/-- A value waits at node 1, which knows its way to the sink. -/
def waitingLine : Network :=
  (routed [.sow (.ofNat 1) 1 0 [97] [1]]).foldl step alarmLine

/-- Node 1 sends while its parent is closed; the radio takes the frame all the same. -/
theorem act?_comm_waitingLine :
    (∃ first second last last',
      waitingLine.act? (.ofNat 1) (LocalStep.flush false).react = some first ∧
      first.state.act? (.ofNat 2) LocalStep.close.react = some last ∧
      waitingLine.act? (.ofNat 2) LocalStep.close.react = some second ∧
      second.state.act? (.ofNat 1) (LocalStep.flush false).react = some last' ∧
      last'.answer = first.answer ∧ last'.outputs = first.outputs ∧
      last.answer = second.answer ∧ last.outputs = second.outputs ∧
      last.state = last'.state ∧ last.state.pump.answer = last'.state.pump.answer ∧
      last.state.board.round = last'.state.board.round) ∧
    ((waitingLine.act? (.ofNat 1) (LocalStep.flush false).react).map fun r ↦ r.outputs) =
      some [(.ofNat 1, .offer ⟨.ofNat 2, [0, 1, 1, 6, 1, 1, 97, 1], 4⟩ true)] := by
  have present (a : Address) (there : (waitingLine.nodes.get? a).isSome = true) :
      ∃ n, waitingLine.nodes.get? a = some n := Option.isSome_iff_exists.1 there
  obtain ⟨n, one⟩ := present (.ofNat 1) (by decide +kernel)
  obtain ⟨m, two⟩ := present (.ofNat 2) (by decide +kernel)
  exact ⟨act?_comm (by decide) one two (.flush false) .close, by decide +kernel⟩

end Network
end CollectionTree
