import CollectionTree.Proofs.Network.Forwarding
import CollectionTree.Proofs.Network.Quieting
import CollectionTree.Proofs.Network.Sightings
import CollectionTree.Proofs.Node.Alerts

/-!
# Sightings on their way to the sink

Where nothing is lost, every urgent sighting is on its way in a frame of its own. With every arrival
it moves one node nearer to the sink or is handed over there (`Rush.passing`), so once nothing is
under way, the sink was handed all of them: `Rush.quiets`.
-/

namespace CollectionTree
namespace Network

/-- A line without losses on which every node knows its distance and every urgent sighting is on its
way, alone in its frame. -/
structure Rush (size : Nat) (net : Network) (waiting : List (Address × Outgoing)) : Prop
    extends Forwards size net waiting where
  routed : ∀ a n, net.nodes.get? a = some n → n.gradient.isRouted = true
  watches : ∀ a n, net.nodes.get? a = some n → n.Watches
  swift : ∀ a n, net.nodes.get? a = some n → n.Swift
  waitsAlert : ∀ e ∈ waiting, Node.Alert e.2
  fliesAlert : ∀ a frame, net.medium.inFlight.get? a = some frame → Node.Alert frame

/-- A frame that waits or is under way carries a sighting. -/
def OnWay (net : Network) (waiting : List (Address × Outgoing)) (key : Bytes) : Prop :=
  (∃ e ∈ waiting, key ∈ carriedKeys (some e.2) Detect.jobId) ∨
    ∃ a frame, net.medium.inFlight.get? a = some frame ∧
      key ∈ carriedKeys (some frame) Detect.jobId

variable {net : Network} {address sender : Address} {n m : Node} {frame : Outgoing}
  {waiting waiting' : List (Address × Outgoing)} {size : Nat} {key : Bytes}

/-! ## One node -/

/-- A change at one node that leaves no urgent sighting behind. -/
theorem Rush.update (h : net.Rush size waiting) (present : net.nodes.get? address = some n)
    {n' : Node} (gradient : n'.gradient = n.gradient) (watches : n'.Watches) (swift : n'.Swift)
    {sent : Option Outgoing} (alert : ∀ f, sent = some f → Node.Alert f)
    (waits : ∀ e ∈ waiting', e ∈ waiting)
    (forwards : Forwards size { net with
      nodes := net.nodes.insert address n'
      medium := net.medium.carrying address sent } waiting') :
    Rush size { net with
      nodes := net.nodes.insert address n'
      medium := net.medium.carrying address sent } waiting' where
  toForwards := forwards
  routed := by
    apply Table.forall_get?_insert
    · rw [gradient]
      exact h.routed address n present
    · exact fun a m _ found ↦ h.routed a m found
  watches := by
    apply Table.forall_get?_insert
    · exact watches
    · exact fun a m _ found ↦ h.watches a m found
  swift := by
    apply Table.forall_get?_insert
    · exact swift
    · exact fun a m _ found ↦ h.swift a m found
  waitsAlert e he := h.waitsAlert e (waits e he)
  fliesAlert a f found := by
    by_cases own : a = address
    · subst own
      rw [Medium.get?_carrying] at found
      cases sent with
      | none => exact h.fliesAlert a f found
      | some frame => exact Option.some.inj found ▸ alert frame rfl
    · rw [Medium.get?_carrying_of_ne _ own] at found
      exact h.fliesAlert a f found

/-- A node changes that has no urgent sighting and sends nothing. -/
theorem Rush.insert (h : net.Rush size waiting) (present : net.nodes.get? address = some n)
    {n' : Node} (gradient : n'.gradient = n.gradient) (watches : n'.Watches) (swift : n'.Swift)
    (waits : ∀ e ∈ waiting', e ∈ waiting)
    (forwards : Forwards size { net with nodes := net.nodes.insert address n' } waiting') :
    Rush size { net with nodes := net.nodes.insert address n' } waiting' := by
  have nothing (f : Outgoing) (sent : none = some f) : Node.Alert f := nomatch sent
  exact h.update present gradient watches swift nothing waits forwards

/-- What was on its way still is after a frame came under way from a node that had none. -/
theorem OnWay.carrying (h : net.OnWay waiting key) (free : net.medium.inFlight.get? address = none)
    (nodes : Table Address Node) (board : Board) (sent : Option Outgoing) :
    OnWay { net with nodes, board, medium := net.medium.carrying address sent } waiting key := by
  refine h.imp id ?_
  rintro ⟨a, f, found, carried⟩
  have own : a ≠ address := by
    rintro rfl
    rw [free] at found
    cases found
  exact ⟨a, f, (net.medium.get?_carrying_of_ne own sent).trans found, carried⟩

/-- When a node without frames learns of one sighting at most and is flushed, the sighting is on its
way afterwards or was handed over, and so is everything that was on its way before. -/
theorem Rush.flushed (h : net.Rush size waiting) (roomy : 9 ≤ size)
    (present : net.nodes.get? address = some n) (settled : Table.lookup address waiting = none)
    (free : net.medium.inFlight.get? address = none)
    (nearer : ∀ e ∈ waiting, address.toNat + 1 < e.1.toNat) (gradient : m.gradient = n.gradient)
    (forwards : m.Forwards size none) (watches : m.Watches) {candidates : List Record}
    (learns : n.Learns candidates m) (single : candidates.length ≤ 1) :
    let flushed := m.flush (net.medium.radio address) true
    let net' : Network := { net with
      nodes := net.nodes.insert address flushed.state
      medium := net.medium.carrying address (Node.takenFrame? flushed.outputs) }
    net'.Rush size waiting ∧ (∀ key, net.OnWay waiting key → net'.OnWay waiting key) ∧
      ∀ key, Store.urgentAbout key candidates = true →
        net'.OnWay waiting key ∨ Node.Hands flushed.outputs key := by
  intro flushed net'
  have here := h.nodes address n present
  rw [settled, free] at here
  have idle : (net.medium.radio address).busy = false := Medium.busy_radio_of_free free
  have kept : net'.Forwards size waiting :=
    h.toForwards.flushed present settled nearer gradient (free ▸ forwards) true
  have passes : m.Passes flushed := watches.passes forwards.opened (net.medium.radio address) true
  have stands : flushed.state.gradient = n.gradient :=
    (Node.flush_keeps forwards.distinct (net.medium.radio address) true).1.trans gradient
  obtain ⟨swift, alert, goes⟩ := learns.passesOn ((h.swift address n present).slow here) forwards
    watches (gradient ▸ h.routed address n present) idle (h.willing present) roomy single
  refine ⟨h.update present stands passes.watches swift alert (fun _ he ↦ he) kept,
    fun key before ↦ before.carrying free _ net.board _, fun key urgent ↦ ?_⟩
  rcases goes key urgent with ⟨f, taken, carried⟩ | handed
  · refine .inl (.inr ⟨address, f, ?_, carried⟩)
    show (net.medium.carrying address (Node.takenFrame? flushed.outputs)).inFlight.get? address = _
    rw [Medium.get?_carrying, taken]
    rfl
  · exact .inr handed

/-! ## Facts -/

/-- A fact for another job has nothing to do with sightings. -/
theorem Rush.sow_of_ne (h : net.Rush size []) (present : net.nodes.get? address = some n)
    (inner : n.gradient.isSink = false) {id : UInt8} (other : Detect.jobId ≠ id) (elapsed : Nat)
    (fact value : Bytes) :
    Rush size { net with
      nodes := net.nodes.insert address (n.sow id elapsed fact value).2 } [] := by
  have swift : (n.sow id elapsed fact value).2.Swift := by
    intro r hr
    rw [n.recordsFor_sow_of_ne other] at hr
    exact h.swift address n present r hr
  exact h.insert present (n.sow_keeps id elapsed fact value).1
    ((h.watches address n present).sow id elapsed fact value) swift (fun _ he ↦ he)
    (h.toForwards.sow present inner id elapsed fact value)

/-- A node without frames sees something and reports it at once. -/
theorem Rush.report (h : net.Rush size []) (roomy : 9 ≤ size)
    (present : net.nodes.get? address = some n) (free : net.medium.inFlight.get? address = none)
    (elapsed : Nat) (fact value : Bytes) :
    let m := (n.sow Detect.jobId elapsed fact value).2
    let r := settleReaction { net with nodes := net.nodes.insert address m } address
      (m.flush (net.medium.radio address) true)
    r.state.Rush size [] ∧
      (∀ key, net.OnWay [] key ∨ key ∈ (n.sighted elapsed fact value).map Record.key →
        r.state.OnWay [] key ∨ Handed r.outputs key) ∧
      ∀ a, a ≠ address → r.state.medium.inFlight.get? a = net.medium.inFlight.get? a := by
  intro m r
  have here := h.nodes address n present
  have watches := h.watches address n present
  have idle : n.Forwards size none := by
    rw [free] at here
    exact here
  have single : (n.sighted elapsed fact value).length ≤ 1 := by
    rw [watches.sighted_eq]
    exact Detect.length_map_le elapsed fact value
  have stands : m.gradient = n.gradient := (n.sow_keeps Detect.jobId elapsed fact value).1
  have sown : m.Forwards size none := idle.sow Detect.jobId elapsed fact value
  obtain ⟨rush, stays, comes⟩ :=
    h.flushed roomy present rfl free (fun _ he ↦ nomatch he) stands sown
    (watches.sow Detect.jobId elapsed fact value) (watches.learns_sow elapsed fact value) single
  have state : r.state = { net with
      nodes := net.nodes.insert address (m.flush (net.medium.radio address) true).state
      medium := net.medium.carrying address
        (Node.takenFrame? (m.flush (net.medium.radio address) true).outputs) } := by
    have step : (settleReaction { net with nodes := net.nodes.insert address m } address
        (m.flush (net.medium.radio address) true)).state = _ :=
      settleReaction_of_flushed (Node.flushed_flush sown.distinct (net.medium.radio address) true)
    rw [Table.insert_insert] at step
    exact step
  rw [state]
  refine ⟨rush, fun key known ↦ ?_, fun a own ↦ net.medium.get?_carrying_of_ne own _⟩
  rcases known with onWay | made
  · exact .inl (stays key onWay)
  · have urgent : Store.urgentAbout key (n.sighted elapsed fact value) = true := by
      obtain ⟨seen, same⟩ := watches.exists_seen elapsed fact value
      rw [same] at made ⊢
      obtain ⟨c, hc, about⟩ := List.mem_map.1 made
      obtain ⟨d, -, rfl⟩ := List.mem_map.1 hc
      exact Store.urgentAbout_iff.2 ⟨d.record, hc, about, rfl⟩
    exact (comes key urgent).imp id (handed_map_pair address _).2

/-! ## A frame arrives -/

private theorem Rush.confirmed (h : net.Rush size ((sender, frame) :: waiting))
    (ascending : Table.Ascending ((sender, frame) :: waiting))
    (far : net.nodes.get? sender = some m) (sent : m.Forwards size (some frame)) :
    Rush size { net with nodes := net.nodes.insert sender m.confirmed } waiting :=
  h.insert far rfl (h.watches sender m far).confirmed (h.swift sender m far).confirmed.swift
    (fun _ he ↦ List.mem_cons_of_mem _ he) (h.toForwards.confirmed ascending far sent)

/-- With every arrival what was on its way is on its way still, or the sink is handed it. -/
theorem Rush.passing (h : net.Rush size ((sender, frame) :: waiting)) (roomy : 9 ≤ size)
    (ascending : Table.Ascending ((sender, frame) :: waiting))
    (passing : net.Passing size sender frame m n) :
    (net.passed (sender, frame)).Rush size waiting ∧
      ∀ key, net.OnWay ((sender, frame) :: waiting) key →
        (net.passed (sender, frame)).OnWay waiting key ∨
          Handed (net.passedOutputs (sender, frame)) key := by
  have alert : Node.Alert frame := h.waitsAlert (sender, frame) List.mem_cons_self
  have confirmed := h.confirmed ascending passing.far passing.sent
  have watches := h.watches frame.target n passing.near
  have few : (Store.arrivals frame.payload Detect.jobId).length ≤ 1 := by
    have single := alert.single
    simpa [Store.arrivals, carriedKeys] using single
  obtain ⟨rush, stays, comes⟩ := confirmed.flushed roomy passing.near_confirmed
    (passing.hops.settled ascending) passing.free (passing.hops.nearer ascending)
    (n.gradient_takingIn frame.payload) passing.taken (watches.takingIn passing.hops.fits)
    (watches.learns_takingIn passing.hops.fits) few
  rw [passing.state, passing.outputs]
  refine ⟨rush, fun key onWay ↦ ?_⟩
  rw [handed_map_pair]
  rcases onWay with ⟨e, he, carried⟩ | flying
  · rcases List.mem_cons.1 he with rfl | he
    · exact comes key ((Store.urgentAbout_arrivals ..).2 ⟨alert.urgent, carried⟩)
    · exact .inl (stays key (.inl ⟨e, he, carried⟩))
  · exact .inl (stays key (.inr flying))

/-! ## Whole turns -/

private theorem Rush.settledMedium (h : net.Rush size []) :
    net.settledMedium.Rush size net.medium.inFlight.entries where
  toForwards := h.toForwards.settledMedium
  routed := h.routed
  watches := h.watches
  swift := h.swift
  waitsAlert e he := h.fliesAlert e.1 e.2 (net.medium.inFlight.get?_of_mem he)
  fliesAlert a frame found := by
    rw [get?_settledMedium] at found
    cases found

private theorem Rush.pump (h : net.Rush size []) (roomy : 9 ≤ size) :
    net.pump.state.Rush size [] ∧ ∀ key, net.OnWay [] key →
      net.pump.state.OnWay [] key ∨ Handed net.pump.outputs key := by
  have start (key : Bytes) (onWay : net.OnWay [] key) :
      net.settledMedium.OnWay net.medium.inFlight.entries key ∨ Handed [] key := by
    rcases onWay with ⟨e, he, -⟩ | ⟨a, frame, found, carried⟩
    · cases he
    · exact .inl (.inl ⟨(a, frame), Table.mem_of_lookup found, carried⟩)
  exact (h.toForwards.pump_induction (P := fun net' waiting past ↦
      net'.Rush size waiting ∧ ∀ key, net.OnWay [] key → net'.OnWay waiting key ∨ Handed past key)
    (fun passing ascending before ↦ by
      obtain ⟨rush, moves⟩ := before.1.passing roomy ascending passing
      refine ⟨rush, fun key onWay ↦ ?_⟩
      rw [handed_append]
      rcases before.2 key onWay with onWay | handed
      · exact (moves key onWay).imp id .inr
      · exact .inr (.inl handed)) [] ⟨h.settledMedium, start⟩).2

/-- Once nothing is under way, the sink was handed everything that was on its way, and nothing
urgent is left. -/
theorem Rush.quiets {last : Reaction (List (List (Address × Signal))) Network (Address × Output)}
    (quiets : net.Quiets last) (h : net.Rush size []) (roomy : 9 ≤ size) :
    last.state.Rush size [] ∧ ∀ key, net.OnWay [] key → Handed last.outputs key := by
  have gone (key : Bytes) : ¬last.state.OnWay [] key := by
    rintro (⟨e, he, -⟩ | ⟨a, frame, found, -⟩)
    · cases he
    · rw [quiets.idle a] at found
      cases found
  have kept : last.state.Rush size [] ∧ ∀ key, net.OnWay [] key →
      last.state.OnWay [] key ∨ Handed last.outputs key := by
    clear gone
    induction quiets with
    | quiet silent => exact h.pump roomy
    | round told more ih =>
      obtain ⟨rush, first⟩ := h.pump roomy
      obtain ⟨rush', later⟩ := ih rush
      refine ⟨rush', fun key onWay ↦ ?_⟩
      rw [handed_append]
      rcases first key onWay with onWay | handed
      · exact (later key onWay).imp id .inr
      · exact .inr (.inl handed)
  exact ⟨kept.1, fun key onWay ↦ (kept.2 key onWay).resolve_left (gone key)⟩

/-- Where nothing is under way, nothing urgent is stored. -/
theorem Rush.isUrgent_eq_false (h : net.Rush size [])
    (idle : ∀ a, net.medium.inFlight.get? a = none) (present : net.nodes.get? address = some n) :
    ∀ acc ∈ n.accumulators, ∀ r ∈ acc.records, r.isUrgent = false := by
  have here := h.nodes address n present
  rw [idle] at here
  exact here.isUrgent_eq_false ((h.swift address n present).slow here)

end Network
end CollectionTree
