import CollectionTree.Proofs.Network.Gathering
import CollectionTree.Proofs.Network.Locality
import CollectionTree.Proofs.Network.Quieting
import CollectionTree.Proofs.Node.Counting

/-!
# Frames counted in a network

The medium counts a frame when it settles it, the nodes when they are told. Every frame under way is
from a node and for a node (`Manned`), so none of its signals is lost, and what the nodes counted in
a pump is what the medium counted: `Counted.pump`. Frames that are sent meanwhile are neither
settled nor told of.
-/

namespace CollectionTree

/-- The frames that a medium settled, as nodes count them: those delivered are confirmed to one node
and received by another. -/
def MediumStats.frames (s : MediumStats) : Nat × Nat × Nat := (s.delivered, s.delivered, s.timedOut)

/-- A report is counted as its signals are. -/
theorem MediumStats.frames_count (s : MediumStats) (r : Settlement) :
    (s.count r).frames = s.frames + (r.signals.map fun e ↦ e.2.frames).sum := by
  obtain ⟨sender, frame, fate⟩ := r
  cases fate <;> simp [count, frames, Settlement.signals, Signal.frames]

private theorem MediumStats.frames_countAll (s : MediumStats) (reports : List Settlement) :
    (reports.foldl count s).frames =
      s.frames + ((reports.flatMap Settlement.signals).map fun e ↦ e.2.frames).sum := by
  induction reports generalizing s with
  | nil => exact (add_zero _).symm
  | cons r rest ih =>
    rw [List.foldl_cons, ih, frames_count, List.flatMap_cons, List.map_append, List.sum_append,
      add_assoc]

/-- Two signals tell of a frame that was delivered, and one of a frame that was given up. -/
theorem MediumStats.exists_countAll (s : MediumStats) (reports : List Settlement) :
    ∃ arrived givenUp, (reports.foldl count s).delivered = s.delivered + arrived ∧
      (reports.foldl count s).timedOut = s.timedOut + givenUp ∧
      (reports.flatMap Settlement.signals).length = 2 * arrived + givenUp := by
  induction reports generalizing s with
  | nil => exact ⟨0, 0, rfl, rfl, rfl⟩
  | cons r rest ih =>
    obtain ⟨arrived, givenUp, delivered, timedOut, told⟩ := ih (s.count r)
    obtain ⟨sender, frame, fate⟩ := r
    rw [List.foldl_cons, List.flatMap_cons, List.length_append, told]
    cases fate with
    | arrived retries =>
      refine ⟨arrived + 1, givenUp, delivered.trans ?_, timedOut, ?_⟩
      · simp only [count]
        omega
      · simp only [Settlement.signals, List.length_cons, List.length_nil]
        omega
    | givenUp =>
      refine ⟨arrived, givenUp + 1, delivered, timedOut.trans ?_, ?_⟩
      · simp only [count]
        omega
      · simp only [Settlement.signals, List.length_cons, List.length_nil]
        omega

private theorem Medium.pending_carrying {m : Medium} {sender : Address} {frame : Option Outgoing}
    (free : frame.isSome = true → m.inFlight.get? sender = none) :
    (m.carrying sender frame).pending = m.pending + frame.toList.length := by
  cases frame with
  | none => rfl
  | some frame => exact (Table.perm_entries_insert (free rfl) frame).length_eq

namespace Network

/-- The frames that all nodes counted. -/
def counted (net : Network) : Nat × Nat × Nat :=
  (net.nodes.values.map fun n ↦ n.counters.frames).sum

/-- How many frames were taken in what was wanted done. -/
def issued (outputs : List (Address × Output)) : Nat :=
  (Node.takenFrames (outputs.map Prod.snd)).length

/-- Every frame under way is from a node and for a node. -/
def Manned (net : Network) : Prop :=
  ∀ a frame, net.medium.inFlight.get? a = some frame →
    (net.nodes.get? a).isSome ∧ (net.nodes.get? frame.target).isSome

/-- Frames are counted over two lots of outputs. -/
@[simp] theorem issued_append (outputs more : List (Address × Output)) :
    issued (outputs ++ more) = issued outputs + issued more := by
  simp [issued, Node.takenFrames_append]

private theorem issued_map_pair (address : Address) (outputs : List Output) :
    issued (outputs.map (address, ·)) = (Node.takenFrames outputs).length := by
  simp [issued, Function.comp_def]

/-- From one network to another no node goes, as many frames come under way as were taken, and the
nodes count so many frames. The medium counts none. -/
structure Counts (net net' : Network) (outputs : List (Address × Output))
    (frames : Nat × Nat × Nat) : Prop where
  manned : net'.Manned
  present : ∀ a, (net.nodes.get? a).isSome → (net'.nodes.get? a).isSome
  stats : net'.medium.stats = net.medium.stats
  pending : net'.medium.pending = net.medium.pending + issued outputs
  counted : net'.counted = net.counted + frames

variable {net net' : Network} {address : Address} {n : Node} {last bound : Nat}

private theorem Counts.refl (h : net.Manned) : net.Counts net [] 0 :=
  ⟨h, fun _ ↦ id, rfl, rfl, (add_zero _).symm⟩

private theorem Counts.trans {final : Network} {outputs more : List (Address × Output)}
    {frames frames' : Nat × Nat × Nat} (h : net.Counts net' outputs frames)
    (h' : net'.Counts final more frames') :
    net.Counts final (outputs ++ more) (frames + frames') where
  manned := h'.manned
  present a there := h'.present a (h.present a there)
  stats := h'.stats.trans h.stats
  pending := by rw [h'.pending, h.pending, issued_append, Nat.add_assoc]
  counted := by rw [h'.counted, h.counted, add_assoc]

/-! ## One node -/

/-- A node counts frames without moving, and at most a frame to its parent comes under way. -/
theorem Counts.update (manned : net.Manned) (lined : net.Lined)
    (present : net.nodes.get? address = some n) {n' : Node} {frames : Nat × Nat × Nat}
    (counts : n'.counters.frames = n.counters.frames + frames) {frame : Option Outgoing}
    (toward : ∀ f, frame = some f → n.gradient.parent = some f.target)
    (free : frame.isSome = true → net.medium.inFlight.get? address = none)
    {outputs : List (Address × Output)} (taken : issued outputs = frame.toList.length)
    (board : Board) :
    net.Counts { net with
      nodes := net.nodes.insert address n', board
      medium := net.medium.carrying address frame } outputs frames where
  manned := by
    have stays {a : Address} (there : (net.nodes.get? a).isSome) :
        ((net.nodes.insert address n').get? a).isSome := Table.isSome_get?_insert there address n'
    intro a f found
    by_cases own : a = address
    · subst own
      rw [Medium.get?_carrying] at found
      cases frame with
      | none => exact (manned a f found).imp stays stays
      | some frame =>
        obtain rfl : frame = f := Option.some.inj found
        exact ⟨stays (by rw [present]; rfl), stays (lined.parent present (toward frame rfl)).2⟩
    · rw [Medium.get?_carrying_of_ne _ own] at found
      exact (manned a f found).imp stays stays
  present a there := Table.isSome_get?_insert there address n'
  stats := by cases frame <;> rfl
  pending := (Medium.pending_carrying free).trans (congrArg _ taken.symm)
  counted := by
    have replaced := Table.sum_values_insert (fun n : Node ↦ n.counters.frames) present n'
    rw [counts, ← add_assoc, add_right_comm] at replaced
    exact add_right_cancel replaced

/-- A node counts frames and sends none. -/
theorem Counts.insert (manned : net.Manned) (lined : net.Lined)
    (present : net.nodes.get? address = some n) {n' : Node} {frames : Nat × Nat × Nat}
    (counts : n'.counters.frames = n.counters.frames + frames)
    {outputs : List (Address × Output)} (silent : issued outputs = 0) (board : Board) :
    net.Counts { net with nodes := net.nodes.insert address n', board } outputs frames := by
  have nothing (f : Outgoing) (sent : none = some f) : n.gradient.parent = some f.target :=
    nomatch sent
  have idle (sent : (none : Option Outgoing).isSome = true) :
      net.medium.inFlight.get? address = none := nomatch sent
  exact update manned lined present counts nothing idle silent board

/-- A node that counted frames flushes. -/
theorem Counts.flush (manned : net.Manned) (lined : net.Lined)
    (present : net.nodes.get? address = some n) {m : Node} (gradient : m.gradient = n.gradient)
    {frames : Nat × Nat × Nat} (counts : m.counters.frames = n.counters.frames + frames)
    (distinct : m.DistinctIds) (urgent : Bool) :
    let flushed := m.flush (net.medium.radio address) urgent
    net.Counts { net with
      nodes := net.nodes.insert address flushed.state
      medium := net.medium.carrying address (Node.takenFrame? flushed.outputs) }
      (flushed.outputs.map (address, ·)) frames := by
  intro flushed
  refine update manned lined present ((Node.frames_flush distinct _ urgent).trans counts) ?_ ?_ ?_ _
  · intro f taken
    rw [← gradient]
    exact (Node.sent_of_takenFrame? distinct taken).1
  · intro some
    obtain ⟨frame, taken⟩ := Option.isSome_iff_exists.1 some
    have idle : net.medium.isBusy address = false := Node.free_of_takenFrame? distinct taken
    simpa [Medium.isBusy, Table.contains] using idle
  · rw [issued_map_pair, Node.takenFrames_flush distinct]

/-! ## Signals -/

/-- A node counts the frame that it is told of. -/
theorem Counts.tell (manned : net.Manned) (h : net.Sinkward last bound)
    (there : (net.nodes.get? address).isSome) (signal : Signal) :
    net.Counts (net.tell Node.onSignal (address, signal))
      (net.toldOutputs Node.onSignal (address, signal)) signal.frames := by
  obtain ⟨n, present⟩ := Option.isSome_iff_exists.1 there
  obtain ⟨able, -⟩ := h.able address n present
  rw [toldOutputs_of_present present]
  cases signal with
  | received sender payload =>
    rw [tell_received present able.opened able.distinct, Node.onSignal_received able.opened]
    exact .flush manned h.lined present (n.gradient_takingIn payload) (n.frames_takingIn payload)
      (able.takingIn payload).distinct true
  | sent target retries =>
    rw [tell_sent present able.opened, Node.onSignal_sent able.opened]
    exact .insert manned h.lined present n.frames_confirmed rfl net.board
  | timedOut target retries =>
    rw [tell_timedOut present able.opened, Node.onSignal_timedOut able.opened]
    exact .insert manned h.lined present n.frames_givenUp rfl net.board

private theorem Sinkward.tell (h : net.Sinkward last last) (address : Address) (signal : Signal) :
    (net.tell Node.onSignal (address, signal)).Sinkward last last := by
  cases signal with
  | received sender payload =>
    cases present : net.nodes.get? address with
    | none =>
      rw [Network.tell, acted_of_absent present]
      exact h
    | some n => exact h.received (h.able address n present).2 sender payload
  | sent target retries => exact h.sent address target retries
  | timedOut target retries => exact h.timedOut address target retries

/-- The nodes count all frames that they are told of. -/
theorem Counts.deliver (manned : net.Manned) (h : net.Sinkward last last)
    {signals : List (Address × Signal)} (there : ∀ e ∈ signals, (net.nodes.get? e.1).isSome) :
    net.Counts (net.deliver Node.onSignal signals).state (net.deliver Node.onSignal signals).outputs
      (signals.map fun e ↦ e.2.frames).sum := by
  induction signals generalizing net with
  | nil => exact .refl manned
  | cons event rest ih =>
    obtain ⟨address, signal⟩ := event
    have first := tell manned h (there _ List.mem_cons_self) signal
    rw [deliver_cons, List.map_cons, List.sum_cons]
    exact first.trans (ih first.manned (h.tell address signal) fun e he ↦
      first.present e.1 (there e (List.mem_cons_of_mem _ he)))

/-! ## Whole turns -/

/-- Nodes and medium counted the same, and every frame that was ever taken is under way, delivered
or given up. -/
structure Counted (net : Network) (past : List (Address × Output)) : Prop where
  manned : net.Manned
  agrees : net.counted = net.medium.stats.frames
  issued : net.medium.pending + net.medium.stats.delivered + net.medium.stats.timedOut = issued past

variable {past : List (Address × Output)}

/-- A turn in which no frame is settled. -/
theorem Counted.turn (h : net.Counted past) {outputs : List (Address × Output)}
    (counts : net.Counts net' outputs 0) : net'.Counted (past ++ outputs) where
  manned := counts.manned
  agrees := by rw [counts.counted, counts.stats, add_zero, h.agrees]
  issued := by
    rw [counts.pending, counts.stats, issued_append, ← h.issued]
    omega

/-- The signals of a pump are for nodes. -/
theorem Manned.pump (h : net.Manned) : ∀ e ∈ net.medium.pump.1, (net.nodes.get? e.1).isSome := by
  intro e mem
  rw [net.medium.pump_eq.1] at mem
  obtain ⟨r, hr, mem⟩ := List.mem_flatMap.1 mem
  have flying : r.sending ∈ net.medium.inFlight.entries := by
    rw [← net.medium.map_sending_reports]
    exact List.mem_map.2 ⟨r, hr, rfl⟩
  obtain ⟨sender, receiver⟩ := h r.sender r.frame (net.medium.inFlight.get?_of_mem flying)
  unfold Settlement.signals at mem
  split at mem
  · rcases List.mem_cons.1 mem with rfl | mem
    · exact receiver
    · rw [List.mem_singleton.1 mem]
      exact sender
  · rw [List.mem_singleton.1 mem]
    exact sender

/-- A pump has two signals for each frame that it delivered and one for each that it gave up, and
the nodes count what the medium counts. -/
theorem Counted.pump (h : net.Counted past) (sinkward : net.Sinkward last last) :
    net.pump.state.Counted (past ++ net.pump.outputs) ∧
      ∃ arrived givenUp,
        net.pump.state.medium.stats.delivered = net.medium.stats.delivered + arrived ∧
        net.pump.state.medium.stats.timedOut = net.medium.stats.timedOut + givenUp ∧
        net.pump.answer.length = 2 * arrived + givenUp := by
  have vacant : net.settledMedium.Manned := by
    intro a frame found
    rw [get?_settledMedium] at found
    cases found
  have counts : net.settledMedium.Counts net.pump.state net.pump.outputs
      (net.medium.pump.1.map fun e ↦ e.2.frames).sum :=
    .deliver vacant (sinkward.settledMedium last) h.manned.pump
  obtain ⟨signals, stats⟩ := net.medium.pump_eq
  have settled : net.settledMedium.medium.stats =
      net.medium.reports.foldl MediumStats.count net.medium.stats := stats
  have none : net.settledMedium.medium.pending = 0 := by
    show net.medium.pump.2.inFlight.entries.length = 0
    rw [Medium.inFlight_pump]
    rfl
  have reported : net.medium.reports.length = net.medium.pending := by
    rw [Medium.pending, Table.size, ← net.medium.map_sending_reports, List.length_map]
  refine ⟨⟨counts.manned, ?_, ?_⟩, ?_⟩
  · rw [counts.counted, counts.stats, settled, MediumStats.frames_countAll, ← h.agrees, signals]
    rfl
  · have frames := (MediumStats.countAll_adds net.medium.stats net.medium.reports).2
    have before := h.issued
    rw [counts.pending, counts.stats, settled, none, issued_append]
    omega
  · rw [counts.stats, settled]
    show ∃ arrived givenUp, _ ∧ _ ∧ net.medium.pump.1.length = _
    rw [signals]
    exact MediumStats.exists_countAll net.medium.stats net.medium.reports

private theorem Sinkward.pumped (h : net.Sinkward last last) :
    net.pump.state.Sinkward last last := by
  rw [state_pump]
  refine (h.settledMedium last).settles net.medium.settles_pump fun e he ↦ ?_
  obtain ⟨near, toward⟩ := h.flying e.1 e.2 (net.medium.inFlight.get?_of_mem he)
  omega

/-- Settling keeps the counts. What it delivered and gave up is what it told, two signals for each
frame that arrived and one for each that did not. -/
theorem Counted.settle (h : net.Counted past) (sinkward : net.Sinkward last last) (rounds : Nat) :
    (net.settle rounds).state.Counted (past ++ (net.settle rounds).outputs) ∧
      ∃ arrived givenUp,
        (net.settle rounds).state.medium.stats.delivered = net.medium.stats.delivered + arrived ∧
        (net.settle rounds).state.medium.stats.timedOut = net.medium.stats.timedOut + givenUp ∧
        (net.settle rounds).answer.flatten.length = 2 * arrived + givenUp := by
  induction rounds generalizing net past with
  | zero => exact ⟨(List.append_nil past).symm ▸ h, 0, 0, rfl, rfl, rfl⟩
  | succ rounds ih =>
    obtain ⟨counted, arrived, givenUp, delivered, timedOut, told⟩ := h.pump sinkward
    rw [Network.settle]
    split
    · next silent =>
      rw [List.isEmpty_iff] at silent
      exact ⟨counted, arrived, givenUp, delivered, timedOut, by rw [← told, silent]; rfl⟩
    · obtain ⟨later, more, more', delivered', timedOut', told'⟩ := ih counted sinkward.pumped
      refine ⟨by rwa [List.append_assoc] at later, arrived + more, givenUp + more', ?_, ?_, ?_⟩
      · rw [delivered', delivered, Nat.add_assoc]
      · rw [timedOut', timedOut, Nat.add_assoc]
      · rw [List.flatten_cons, List.length_append, told, told']
        omega

/-- A node counts no frame when discovery tells it something. -/
theorem Counts.beacon (manned : net.Manned) (lined : net.Lined)
    (present : net.nodes.get? address = some n) (opened : n.closed = false) (beacon : Beacon) :
    net.Counts (net.tell (fun n _ beacon ↦ n.onBeacon beacon) (address, beacon))
      ((n.onBeacon beacon).outputs.map (address, ·)) 0 := by
  have silent : issued ((n.onBeacon beacon).outputs.map (address, ·)) = 0 := by
    rw [issued_map_pair, n.takenFrames_onBeacon]
    rfl
  rw [Network.tell, acted_of_present present]
  cases beacon with
  | heard neighbor hop =>
    have counts : Counters.frames { n with
        gradient := (n.gradient.consider neighbor hop).2 }.counters = n.counters.frames + 0 := rfl
    rw [Node.onBeacon_heard opened] at silent ⊢
    by_cases adopted : (n.gradient.consider neighbor hop).1 = true
    · simp only [if_pos adopted] at silent ⊢
      exact insert manned lined present counts silent (net.board.announce address _)
    · simp only [if_neg adopted] at silent ⊢
      exact insert manned lined present counts silent net.board
  | tick =>
    have counts : Counters.frames { n with counters := n.counters.addCycle }.counters =
        n.counters.frames + 0 := rfl
    rw [Node.onBeacon_tick opened] at silent ⊢
    exact insert manned lined present counts silent net.board

/-- A round of discovery keeps the counts, for no frame is sent in it. -/
theorem Counted.discover (h : net.Counted past) (sinkward : net.Sinkward last last) :
    net.discover.state.Counted (past ++ net.discover.outputs) := by
  have told : (net.discover.state.Sinkward last last ∧ net.discover.state.Manned) ∧
      net.Counts net.discover.state net.discover.outputs 0 := by
    refine discover_induction (P := fun net ↦ net.Sinkward last last ∧ net.Manned)
      (T := fun net net' outputs ↦ net.Counts net' outputs 0) (fun h ↦ h.1.lined)
      (fun h present ↦ (h.1.able _ _ present).1.opened) (fun h ↦ .refl h.2)
      (fun first later ↦ by simpa using first.trans later) ?_ ⟨sinkward, h.manned⟩
    intro net a n beacon h present heard
    have counts := Counts.beacon h.2 h.1.lined present (h.1.able a n present).1.opened beacon
    exact ⟨⟨h.1.beacon present heard, counts.manned⟩, counts⟩
  exact h.turn told.2

end Network
end CollectionTree
