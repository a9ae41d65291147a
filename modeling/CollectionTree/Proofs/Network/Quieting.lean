import CollectionTree.Proofs.Network.Line

/-!
# A line becomes quiet

Every frame on a line is for a node nearer to the sink than its sender, and of what a settled radio
tells only an arrival makes a node send. So with every pump the farthest sender comes nearer
(`Sinkward.pump`), and pumping comes to an end after no more rounds than the farthest sender is hops
away (`Sinkward.exists_quiets`). `Quiets` is pumping without a bound on the rounds.
-/

namespace CollectionTree

namespace Node

/-- The node is open, and no two accumulators are bound to one id. -/
structure Able (n : Node) : Prop where
  opened : n.closed = false
  distinct : n.DistinctIds

variable {n n' : Node}

/-- Whether a node is able to send depends on what is bound to it and on whether it was closed. -/
theorem Able.congr (h : n.Able) (bindings : n'.bindings = n.bindings)
    (closed : n'.closed = n.closed) :
    n'.Able :=
  ⟨closed.trans h.opened, (distinctIds_of_bindings_eq bindings).2 h.distinct⟩

private theorem Able.flush (h : n.Able) (radio : Radio) (urgent : Bool) :
    (n.flush radio urgent).state.Able :=
  h.congr (bindings_flush h.distinct radio urgent) (flush_keeps h.distinct radio urgent).2

/-- Taking a payload in leaves a node able to send. -/
theorem Able.takingIn (h : n.Able) (payload : Bytes) : (n.takingIn payload).Able :=
  h.congr (n.bindings_takingIn payload) (n.closed_takingIn payload)

end Node

namespace Network

/-! ## Pumping to the end -/

/-- What comes of pumping until a pump has nothing to tell: the signals of each pump before that
one, the network after it, and what was wanted done. -/
inductive Quiets :
    Network → Reaction (List (List (Address × Signal))) Network (Address × Output) → Prop
  | quiet {net : Network} (silent : net.pump.answer = []) :
      Quiets net ⟨[], net.pump.state, net.pump.outputs⟩
  | round {net : Network}
      {last : Reaction (List (List (Address × Signal))) Network (Address × Output)}
      (told : net.pump.answer ≠ []) (more : Quiets net.pump.state last) :
      Quiets net ⟨net.pump.answer :: last.answer, last.state, net.pump.outputs ++ last.outputs⟩

/-- A bound on the rounds makes no difference unless it is reached. -/
theorem Quiets.settle_eq {net : Network}
    {last : Reaction (List (List (Address × Signal))) Network (Address × Output)}
    (quiets : net.Quiets last) {rounds : Nat} (enough : last.answer.length < rounds) :
    net.settle rounds = last := by
  induction quiets generalizing rounds with
  | quiet silent =>
    obtain ⟨more, rfl⟩ : ∃ more, rounds = more + 1 := ⟨rounds - 1, by omega⟩
    simp [settle, silent]
  | @round net last told more ih =>
    simp only [List.length_cons] at enough
    obtain ⟨fewer, rfl⟩ : ∃ fewer, rounds = fewer + 1 := ⟨rounds - 1, by omega⟩
    have later : net.pump.state.settle fewer = last := ih (by omega)
    simp [settle, told, later]

/-- Nothing is under way once a pump had nothing to tell. -/
theorem Quiets.idle {net : Network}
    {last : Reaction (List (List (Address × Signal))) Network (Address × Output)}
    (quiets : net.Quiets last) (a : Address) : last.state.medium.inFlight.get? a = none := by
  induction quiets with
  | @quiet net silent =>
    have nothing : net.medium.pump.1 = [] := silent
    show net.pump.state.medium.inFlight.get? a = none
    rw [state_pump, nothing]
    exact net.get?_settledMedium a
  | round told more ih => exact ih

/-! ## Toward the sink -/

/-- All nodes of a line up to the last one are able to send, and every frame under way is from a
node up to some bound and for a node nearer to the sink. -/
structure Sinkward (net : Network) (last bound : Nat) : Prop where
  lined : net.Lined
  able : ∀ a n, net.nodes.get? a = some n → n.Able ∧ a.toNat ≤ last
  flying : ∀ a frame, net.medium.inFlight.get? a = some frame →
    a.toNat ≤ bound ∧ frame.target.toNat < a.toNat

variable {net : Network} {address : Address} {n : Node} {last bound : Nat}

private theorem Sinkward.mono (h : net.Sinkward last bound) {bound' : Nat} (le : bound ≤ bound') :
    net.Sinkward last bound' :=
  ⟨h.lined, h.able, fun a frame found ↦
    ⟨(h.flying a frame found).1.trans le, (h.flying a frame found).2⟩⟩

/-- A node changes without moving, and at most a frame to its parent comes under way. -/
theorem Sinkward.update (h : net.Sinkward last bound) (present : net.nodes.get? address = some n)
    {n' : Node} (able : n'.Able) (gradient : n'.gradient = n.gradient) {frame : Option Outgoing}
    (toward : ∀ f, frame = some f → address.toNat ≤ bound ∧ n.gradient.parent = some f.target) :
    Sinkward { net with
      nodes := net.nodes.insert address n'
      medium := net.medium.carrying address frame } last bound where
  lined := h.lined.insert present n' gradient (net.medium.carrying address frame)
  able := by
    refine Table.forall_get?_insert ⟨able, (h.able address n present).2⟩ ?_
    exact fun a m _ present ↦ h.able a m present
  flying := by
    intro a f found
    by_cases own : a = address
    · subst own
      rw [Medium.get?_carrying] at found
      cases frame with
      | none => exact h.flying a f found
      | some frame =>
        obtain rfl : frame = f := Option.some.inj found
        obtain ⟨near, route⟩ := toward frame rfl
        exact ⟨near, (h.lined.parent present route).1⟩
    · rw [Medium.get?_carrying_of_ne _ own] at found
      exact h.flying a f found

/-- A node changes without moving or sending. -/
theorem Sinkward.insert (h : net.Sinkward last bound) (present : net.nodes.get? address = some n)
    {n' : Node} (able : n'.Able) (gradient : n'.gradient = n.gradient) :
    Sinkward { net with nodes := net.nodes.insert address n' } last bound := by
  have nothing (f : Outgoing) (sent : none = some f) :
      address.toNat ≤ bound ∧ n.gradient.parent = some f.target := nomatch sent
  exact h.update present able gradient nothing

/-- A node near enough to the sink flushes. -/
theorem Sinkward.flush (h : net.Sinkward last bound) (present : net.nodes.get? address = some n)
    (near : address.toNat ≤ bound) {n' : Node} (able : n'.Able)
    (gradient : n'.gradient = n.gradient) (urgent : Bool) :
    let flushed := n'.flush (net.medium.radio address) urgent
    Sinkward { net with
      nodes := net.nodes.insert address flushed.state
      medium := net.medium.carrying address (Node.takenFrame? flushed.outputs) } last bound := by
  intro flushed
  have kept := (Node.flush_keeps able.distinct (net.medium.radio address) urgent).1
  refine h.update present (able.flush _ urgent) (kept.trans gradient) fun f taken ↦ ⟨near, ?_⟩
  rw [← gradient]
  exact (Node.sent_of_takenFrame? able.distinct taken).1

/-! ## Signals -/

/-- An arrival may make its receiver send. -/
theorem Sinkward.received (h : net.Sinkward last bound) (near : address.toNat ≤ bound)
    (sender : Address) (payload : Bytes) :
    (net.tell Node.onSignal (address, .received sender payload)).Sinkward last bound := by
  cases present : net.nodes.get? address with
  | none =>
    rw [tell, acted_of_absent present]
    exact h
  | some n =>
    obtain ⟨able, -⟩ := h.able address n present
    rw [tell_received present able.opened able.distinct]
    exact h.flush present near (able.takingIn payload) (n.gradient_takingIn payload) true

/-- No confirmation makes a node send. -/
theorem Sinkward.sent (h : net.Sinkward last bound) (sender target : Address) (retries : Nat) :
    (net.tell Node.onSignal (sender, .sent target retries)).Sinkward last bound := by
  cases present : net.nodes.get? sender with
  | none =>
    rw [tell, acted_of_absent present]
    exact h
  | some n =>
    obtain ⟨able, -⟩ := h.able sender n present
    rw [tell_sent present able.opened]
    exact h.insert present (able.congr n.bindings_confirmed rfl) rfl

/-- No frame that was given up makes a node send. -/
theorem Sinkward.timedOut (h : net.Sinkward last bound) (sender target : Address)
    (retries : Nat) :
    (net.tell Node.onSignal (sender, .timedOut target retries)).Sinkward last bound := by
  cases present : net.nodes.get? sender with
  | none =>
    rw [tell, acted_of_absent present]
    exact h
  | some n =>
    obtain ⟨able, -⟩ := h.able sender n present
    rw [tell_timedOut present able.opened]
    exact h.insert present (able.congr n.bindings_givenUp rfl) rfl

/-- Frames for nodes near enough to the sink make only these send. -/
theorem Sinkward.settles {frames : List (Address × Outgoing)} {signals : List (Address × Signal)}
    (settles : Settles frames signals) (h : net.Sinkward last bound)
    (near : ∀ e ∈ frames, e.2.target.toNat ≤ bound) :
    (signals.foldl (tell Node.onSignal) net).Sinkward last bound := by
  induction settles generalizing net with
  | done => exact h
  | @delivered sender frame rest signals retries more ih =>
    have arrived := h.received (near (sender, frame) List.mem_cons_self) sender frame.payload
    exact ih (arrived.sent sender frame.target retries) fun e he ↦
      near e (List.mem_cons_of_mem _ he)
  | @givenUp sender frame rest signals retries more ih =>
    exact ih (h.timedOut sender frame.target retries) fun e he ↦ near e (List.mem_cons_of_mem _ he)

/-- Whatever the bound was, it holds for a medium with nothing under way. -/
theorem Sinkward.settledMedium (h : net.Sinkward last bound) (bound' : Nat) :
    net.settledMedium.Sinkward last bound' where
  lined := h.lined.congr (fun _ ↦ rfl) rfl
  able := h.able
  flying a frame found := by
    rw [get?_settledMedium] at found
    cases found

/-- With every pump the farthest sender comes nearer. -/
theorem Sinkward.pump (h : net.Sinkward last (bound + 1)) : net.pump.state.Sinkward last bound := by
  rw [state_pump]
  refine (h.settledMedium bound).settles net.medium.settles_pump fun e he ↦ ?_
  obtain ⟨near, toward⟩ := h.flying e.1 e.2 (net.medium.inFlight.get?_of_mem he)
  omega

/-- Where no node but the sink might have sent, nothing is under way. -/
theorem Sinkward.silent (h : net.Sinkward last 0) :
    net.pump.answer = [] ∧ net.pump.state.Sinkward last 0 := by
  have nothing : net.medium.inFlight.entries = [] := by
    rw [List.eq_nil_iff_forall_not_mem]
    intro e he
    obtain ⟨near, toward⟩ := h.flying e.1 e.2 (net.medium.inFlight.get?_of_mem he)
    omega
  have signals : net.medium.pump.1 = [] := by
    rw [Medium.pump, nothing]
    rfl
  refine ⟨signals, ?_⟩
  rw [state_pump, signals]
  exact h.settledMedium 0

/-- Pumping comes to an end, after no more rounds that have something to tell than the farthest
sender may be hops away. -/
theorem Sinkward.exists_quiets (h : net.Sinkward last bound) :
    ∃ r, net.Quiets r ∧ r.answer.length ≤ bound ∧ r.state.Sinkward last bound := by
  induction bound generalizing net with
  | zero =>
    obtain ⟨silent, kept⟩ := h.silent
    exact ⟨_, .quiet silent, Nat.le_refl _, kept⟩
  | succ bound ih =>
    by_cases silent : net.pump.answer = []
    · exact ⟨_, .quiet silent, Nat.zero_le _, h.pump.mono (Nat.le_succ bound)⟩
    · obtain ⟨r, quiets, short, kept⟩ := ih h.pump
      exact ⟨_, .round silent quiets, Nat.succ_le_succ short, kept.mono (Nat.le_succ bound)⟩

/-! ## Discovery -/

/-- A beacon leaves all frames on their way to the sink. -/
theorem Sinkward.beacon (h : net.Sinkward last bound) (present : net.nodes.get? address = some n)
    {beacon : Beacon} (heard : net.Heard address beacon) :
    (net.tell (fun n _ beacon ↦ n.onBeacon beacon) (address, beacon)).Sinkward last bound := by
  obtain ⟨able, within⟩ := h.able address n present
  have lined := h.lined.heard present able.opened heard
  obtain ⟨gradient, cycles, board, -, told⟩ := tell_beacon present able.opened beacon
  rw [told] at lined ⊢
  refine ⟨lined, ?_, h.flying⟩
  refine Table.forall_get?_insert ⟨able.congr rfl rfl, within⟩ ?_
  exact fun b m _ present ↦ h.able b m present

/-- A round of discovery leaves all frames on their way to the sink. -/
theorem Sinkward.discover (h : net.Sinkward last bound) :
    net.discover.state.Sinkward last bound :=
  (discover_induction (P := fun net ↦ net.Sinkward last bound) (T := fun _ _ _ ↦ True)
    (fun h ↦ h.lined) (fun h present ↦ (h.able _ _ present).1.opened) (fun _ ↦ trivial)
    (fun _ _ ↦ trivial) (fun h present heard ↦ ⟨h.beacon present heard, trivial⟩) h).1

end Network
end CollectionTree
