import CollectionTree.Proofs.Network.Steps
import CollectionTree.Proofs.Node.Accounts
import CollectionTree.Workload.Bytewise

/-!
# Which records a completion acts on

While the signals of a pump are told, the frames that it settled are no longer under way, so a node
whose own completion is still to come may have a second frame taken. The completion of the first
then acts on the records of both.

`actsOnOwn_along_iff` says that nothing else goes wrong: along every sequence of actions,
completions act only on what their frames carried exactly if none of them finds a second frame under
way.
-/

namespace CollectionTree

/-- A completion as a node handles it: the frame that it settles, the node before and afterwards,
and whether a second frame was under way from the node by then. -/
structure Completion where
  frame : Outgoing
  before : Node
  after : Node
  busy : Bool

/-- Every record that the completion removes, or whose mark it takes away, was carried by its frame.
-/
def Completion.ActsOnOwn (c : Completion) : Prop :=
  ∀ id, ∀ r ∈ c.before.recordsFor id, r ∉ c.after.recordsFor id →
    ∃ entry ∈ Wire.entriesFor c.frame.payload id, entry.key = r.key

/-- A completion acts on records of its own frame exactly if no second frame is under way. -/
theorem Node.Accounted.actsOnOwn_iff {n n' : Node} {frame : Outgoing} {flying : Option Outgoing}
    (h : n.Accounted (some frame) flying) (settled : n.SettledAs n') :
    Completion.ActsOnOwn ⟨frame, n, n', flying.isSome⟩ ↔ flying.isSome = false := by
  constructor
  · intro own
    cases flying with
    | none => rfl
    | some second =>
      -- A key of the second frame alone belongs to a record that the completion acts on too.
      obtain ⟨id, key, carried, foreign⟩ := h.apart frame second rfl rfl
      obtain ⟨r, hr, marked, rfl⟩ := Node.mem_pendingKeys.1 ((h.marks id key).2 (.inr carried))
      have mine := own id r hr ((settled.not_mem_iff hr).2 marked)
      exact absurd (Node.mem_carriedKeys.2 mine) foreign
  · intro free id r hr gone
    have marked := (settled.not_mem_iff hr).1 gone
    obtain rfl : flying = none := by simpa using free
    have carried := (h.marks id r.key).1 (Node.mem_pendingKeys.2 ⟨r, hr, marked, rfl⟩)
    exact Node.mem_carriedKeys.1 (by simpa using carried)

namespace Network

/-- The completion that a signal is for the node that it is told to, if it is one; `frames` are
those that were settled. -/
def completion? (frames : Table Address Outgoing) (net : Network) (event : Address × Signal) :
    Option Completion :=
  match event.2 with
  | .received _ _ => none
  | .sent _ _ | .timedOut _ _ => do
    let frame ← frames.get? event.1
    let before ← net.nodes.get? event.1
    let after ← (net.tell Node.onSignal event).nodes.get? event.1
    return ⟨frame, before, after, net.medium.isBusy event.1⟩

/-- The completions that are handled while some signals are told. -/
def completionsAmong (frames : Table Address Outgoing) :
    Network → List (Address × Signal) → List Completion
  | _, [] => []
  | net, event :: rest =>
    (net.completion? frames event).toList ++
      completionsAmong frames (net.tell Node.onSignal event) rest

/-- What may be done to a network. -/
inductive Action where
  /-- A node is given a fact sensed after so many seconds. -/
  | sow (address : Address) (id : UInt8) (elapsed : Nat) (key value : Bytes)
  /-- A node flushes, on a schedule or ahead of it. -/
  | flush (address : Address) (urgent : Bool)
  /-- A round of discovery. -/
  | discover
  /-- The medium settles all frames under way, and the nodes are told. -/
  | pump

/-- The network after an action. -/
def step (net : Network) : Action → Network
  | .sow address id elapsed key value =>
    net.modifyNode address fun n ↦ (n.sow id elapsed key value).2
  | .flush address urgent => net.acted address fun radio n ↦ n.flush radio urgent
  | .discover => net.discover.state
  | .pump => net.pump.state

/-- The completions that are handled in an action. -/
def completions (net : Network) : Action → List Completion
  | .pump => completionsAmong net.medium.inFlight net.settledMedium net.medium.pump.1
  | _ => []

/-- The completions that are handled in some actions, one after another. -/
def completionsAlong : Network → List Action → List Completion
  | _, [] => []
  | net, action :: rest => net.completions action ++ completionsAlong (net.step action) rest

/-- Nothing was sent yet, and every node is attached to the medium. -/
structure Fresh (net : Network) : Prop where
  quiet : net.medium.inFlight = .empty
  attached : ∀ address n, net.nodes.get? address = some n →
    net.medium.opened.contains address = true
  unsent : ∀ address n, net.nodes.get? address = some n → n.Unsent

/-- A network without nodes. -/
theorem fresh_of_empty {net : Network} (quiet : net.medium.inFlight = .empty)
    (empty : net.nodes = .empty) : net.Fresh := by
  have none (address : Address) (n : Node) : net.nodes.get? address ≠ some n := by
    simp [empty]
  exact ⟨quiet, fun a n h ↦ absurd h (none a n), fun a n h ↦ absurd h (none a n)⟩

/-- Opening a node keeps a network fresh. -/
theorem Fresh.openNode {net : Network} (fresh : net.Fresh) (address : Address) (isSink : Bool)
    (config : NodeConfig) (source : Source) :
    (net.openNode address isSink config source).Fresh := by
  have opened : (net.openNode address isSink config source).medium.opened =
      net.medium.opened.insert address () := rfl
  have nodes : (net.openNode address isSink config source).nodes =
      net.nodes.insert address (Node.opened address isSink config source).state := rfl
  refine ⟨fresh.quiet, ?_, ?_⟩
  · rw [nodes]
    apply Table.forall_get?_insert
    · simp [opened, Table.contains]
    · intro other n same present
      rw [opened, Table.contains, Table.get?_insert_of_ne _ same]
      exact fresh.attached other n present
  · rw [nodes]
    apply Table.forall_get?_insert
    · exact Node.unsent_opened address isSink config source
    · exact fun other n _ present ↦ fresh.unsent other n present

/-- Binding an empty accumulator whose job keeps keys and marks keeps a network fresh. -/
theorem Fresh.bind {net : Network} (fresh : net.Fresh) (address : Address) {acc : Accumulator}
    (keeps : acc.job.KeepsIdentity) (empty : acc.records = []) :
    (net.modifyNode address fun n ↦ (n.bind acc).toOption.getD n).Fresh := by
  refine ⟨fresh.quiet, fun other n present ↦ ?_, fun other n present ↦ ?_⟩
  · rw [modifyNode, Table.get?_modify] at present
    split at present
    · obtain ⟨before, found, -⟩ := Option.map_eq_some_iff.1 present
      exact fresh.attached other before found
    · exact fresh.attached other n present
  · rw [modifyNode, Table.get?_modify] at present
    split at present
    · obtain ⟨before, found, rfl⟩ := Option.map_eq_some_iff.1 present
      exact (fresh.unsent other before found).bind keeps empty
    · exact fresh.unsent other n present

/-- Every node is accounted for, with the settled frames whose fate is still to be told. -/
structure Accounted (net : Network) (waiting : List (Address × Outgoing)) : Prop where
  nodes : ∀ address n, net.nodes.get? address = some n →
    n.Accounted (Table.lookup address waiting) (net.medium.inFlight.get? address)
  attached : ∀ address n, net.nodes.get? address = some n →
    net.medium.opened.contains address = true

variable {net : Network} {waiting : List (Address × Outgoing)}

/-- Where nothing was sent every node is accounted for. -/
theorem Fresh.accounted (fresh : net.Fresh) : net.Accounted [] where
  nodes address n present := by
    rw [fresh.quiet]
    exact (fresh.unsent address n present).accounted
  attached := fresh.attached

/-- A change at one address, where everything else stays. -/
theorem Accounted.update (h : net.Accounted waiting) (address : Address) {net' : Network}
    {waiting' : List (Address × Outgoing)}
    (nodes : ∀ other, other ≠ address → net'.nodes.get? other = net.nodes.get? other)
    (flying : ∀ other, other ≠ address →
      net'.medium.inFlight.get? other = net.medium.inFlight.get? other)
    (lookup : ∀ other, other ≠ address →
      Table.lookup other waiting' = Table.lookup other waiting)
    (opened : net'.medium.opened = net.medium.opened)
    (here : ∀ n', net'.nodes.get? address = some n' →
      n'.Accounted (Table.lookup address waiting') (net'.medium.inFlight.get? address) ∧
        net.medium.opened.contains address = true) : net'.Accounted waiting' where
  nodes other n present := by
    by_cases same : other = address
    · subst same
      exact (here n present).1
    · rw [nodes other same] at present
      rw [lookup other same, flying other same]
      exact h.nodes other n present
  attached other n present := by
    rw [opened]
    by_cases same : other = address
    · subst same
      exact (here n present).2
    · rw [nodes other same] at present
      exact h.attached other n present

/-- A node takes a new state, and at most its own frame comes under way. -/
theorem Accounted.insert (h : net.Accounted waiting) {address : Address} {n : Node}
    (present : net.nodes.get? address = some n) (n' : Node) (taken : Option Outgoing)
    (accounted : n'.Accounted (Table.lookup address waiting)
      (taken.or (net.medium.inFlight.get? address))) (board : Board) :
    Accounted { net with
      nodes := net.nodes.insert address n', board
      medium := net.medium.carrying address taken } waiting := by
  refine h.update address (fun other differ ↦ net.nodes.get?_insert_of_ne differ n')
    (fun other differ ↦ net.medium.get?_carrying_of_ne differ taken) (fun _ _ ↦ rfl) (by simp)
    fun m found ↦ ⟨?_, h.attached address n present⟩
  simp only [Table.get?_insert_self, Option.some.injEq] at found
  subst found
  rw [Medium.get?_carrying]
  exact accounted

/-- Flushing keeps the accounts. -/
theorem Accounted.flush (h : net.Accounted waiting) (address : Address) (urgent : Bool) :
    (net.acted address fun radio n ↦ n.flush radio urgent).Accounted waiting := by
  cases present : net.nodes.get? address with
  | none => rwa [acted_of_absent present]
  | some n =>
    have here := h.nodes address n present
    rw [acted_flush present here.distinct]
    exact h.insert present _ _ (here.flushed rfl
      (Medium.accepts_of_opened (h.attached address n present))
      (Node.flushed_flush here.distinct _ urgent)) net.board

/-- Hearing a frame keeps the accounts. -/
theorem Accounted.received (h : net.Accounted waiting) (address sender : Address)
    (payload : Bytes) :
    (net.tell Node.onSignal (address, .received sender payload)).Accounted waiting := by
  cases present : net.nodes.get? address with
  | none => rwa [tell, acted_of_absent present]
  | some n =>
    have here := h.nodes address n present
    have taken := here.takingIn payload
    rw [tell_received present here.opened here.distinct]
    exact h.insert present _ _ (taken.flushed rfl
      (Medium.accepts_of_opened (h.attached address n present))
      (Node.flushed_flush taken.distinct _ true)) net.board

/-- Hearing a beacon keeps the accounts. -/
theorem Accounted.beacon (h : net.Accounted waiting) (event : Address × Beacon) :
    (net.tell (fun n _ beacon ↦ n.onBeacon beacon) event).Accounted waiting := by
  obtain ⟨address, beacon⟩ := event
  cases present : net.nodes.get? address with
  | none => rwa [tell, acted_of_absent present]
  | some n =>
    have here := h.nodes address n present
    obtain ⟨gradient, cycles, board, isSink, after⟩ := tell_beacon present here.opened beacon
    rw [after]
    refine h.insert present { n with gradient, counters := { n.counters with cycles } } none ?_
      board
    exact here.congr rfl rfl isSink

/-- A fact keeps the accounts. -/
theorem Accounted.sow (h : net.Accounted waiting) (address : Address) (id : UInt8)
    (elapsed : Nat) (key value : Bytes) :
    (net.modifyNode address fun n ↦ (n.sow id elapsed key value).2).Accounted waiting := by
  refine h.update address (fun other differ ↦ net.nodes.get?_modify_of_ne differ _)
    (fun _ _ ↦ rfl) (fun _ _ ↦ rfl) rfl fun m found ↦ ?_
  rw [modifyNode, Table.get?_modify_self] at found
  obtain ⟨n, present, rfl⟩ := Option.map_eq_some_iff.1 found
  exact ⟨(h.nodes address n present).sow id elapsed key value, h.attached address n present⟩

/-! ## One pump -/

/-- Either every completion finds no second frame under way and acts on its own records, or some
completion finds one and does not. -/
inductive Verdict (completions : List Completion) (safe : Prop) : Prop
  | own (all : ∀ c ∈ completions, c.busy = false ∧ c.ActsOnOwn) (after : safe)
  | foreign (c : Completion) (mem : c ∈ completions) (busy : c.busy = true)
      (notOwn : ¬c.ActsOnOwn)

private theorem Verdict.mono {completions more : List Completion} {safe safe' : Prop}
    (h : Verdict completions safe) (next : safe → Verdict more safe') :
    Verdict (completions ++ more) safe' := by
  cases h with
  | own all after =>
    cases next after with
    | own all' after' =>
      exact .own (fun c hc ↦ (List.mem_append.1 hc).elim (all c) (all' c)) after'
    | foreign c mem busy notOwn => exact .foreign c (List.mem_append_right _ mem) busy notOwn
  | foreign c mem busy notOwn => exact .foreign c (List.mem_append_left _ mem) busy notOwn

private theorem Verdict.iff {completions : List Completion} {safe : Prop}
    (h : Verdict completions safe) :
    (∀ c ∈ completions, c.ActsOnOwn) ↔ ∀ c ∈ completions, c.busy = false := by
  cases h with
  | own all after =>
    exact ⟨fun _ c hc ↦ (all c hc).1, fun _ c hc ↦ (all c hc).2⟩
  | foreign c mem busy notOwn =>
    refine ⟨fun own ↦ absurd (own c mem) notOwn, fun free ↦ ?_⟩
    rw [free c mem] at busy
    cases busy

/-- Hearing a frame completes none. -/
theorem completion?_received (frames : Table Address Outgoing) (address sender : Address)
    (payload : Bytes) :
    net.completion? frames (address, .received sender payload) = none := rfl

private theorem completion?_of_absent (frames : Table Address Outgoing) {address : Address}
    (absent : net.nodes.get? address = none) (signal : Signal) :
    net.completion? frames (address, signal) = none := by
  cases signal with
  | received sender payload => rfl
  | sent | timedOut => simp [completion?, absent]

/-- The first waiting frame is settled, and its sender has no second one under way. -/
theorem Accounted.settled {sender : Address} {frame : Outgoing}
    (h : net.Accounted ((sender, frame) :: waiting))
    (ascending : Table.Ascending ((sender, frame) :: waiting)) {n n' : Node}
    (present : net.nodes.get? sender = some n) (free : net.medium.inFlight.get? sender = none)
    (settled : n.SettledAs n') :
    Accounted { net with nodes := net.nodes.insert sender n' } waiting := by
  have here := h.nodes sender n present
  rw [Table.lookup_cons_self, free] at here
  refine h.update sender (fun other differ ↦ net.nodes.get?_insert_of_ne differ n')
    (fun _ _ ↦ rfl) (fun other differ ↦ (Table.lookup_cons_of_ne differ frame waiting).symm) rfl
    fun m found ↦ ⟨?_, h.attached sender n present⟩
  simp only [Table.get?_insert_self, Option.some.injEq] at found
  subst found
  rw [ascending.lookup_tail]
  simpa only [free] using here.settled settled

/-- The fate of the first waiting frame is told to its sender. -/
theorem Accounted.completion (frames : Table Address Outgoing) {sender : Address}
    {frame : Outgoing} (h : net.Accounted ((sender, frame) :: waiting))
    (ascending : Table.Ascending ((sender, frame) :: waiting)) {signal : Signal}
    (told : ∀ n, net.nodes.get? sender = some n → n.closed = false →
      ∃ n', n.SettledAs n' ∧ net.tell Node.onSignal (sender, signal) =
        { net with nodes := net.nodes.insert sender n' } ∧
        net.completion? frames (sender, signal) =
          some ⟨frame, n, n', (net.medium.inFlight.get? sender).isSome⟩) :
    Verdict (net.completion? frames (sender, signal)).toList
      ((net.tell Node.onSignal (sender, signal)).Accounted waiting) := by
  have others : ∀ other, other ≠ sender →
      Table.lookup other waiting = Table.lookup other ((sender, frame) :: waiting) :=
    fun other differ ↦ (Table.lookup_cons_of_ne differ frame waiting).symm
  cases present : net.nodes.get? sender with
  | none =>
    rw [completion?_of_absent frames present, tell, acted_of_absent present]
    refine .own (by simp) (h.update sender (fun _ _ ↦ rfl) (fun _ _ ↦ rfl) others rfl
      fun m found ↦ ?_)
    rw [present] at found
    cases found
  | some n =>
    have here := h.nodes sender n present
    rw [Table.lookup_cons_self] at here
    obtain ⟨n', settled, after, listed⟩ := told n present here.opened
    have own := here.actsOnOwn_iff settled
    rw [after, listed]
    cases flying : net.medium.inFlight.get? sender with
    | none =>
      rw [flying] at own
      exact .own (by simpa using own.2 rfl) (h.settled ascending present flying settled)
    | some second =>
      rw [flying] at own
      refine .foreign _ (List.mem_singleton.2 rfl) rfl fun mine ↦ ?_
      simpa using own.1 mine

/-- The signals of settled frames are told, frame by frame. -/
theorem Accounted.settles {frames : Table Address Outgoing} {signals : List (Address × Signal)}
    (settles : Settles waiting signals) (h : net.Accounted waiting)
    (ascending : Table.Ascending waiting)
    (known : ∀ e ∈ waiting, frames.get? e.1 = some e.2) :
    Verdict (completionsAmong frames net signals)
      ((signals.foldl (tell Node.onSignal) net).Accounted []) := by
  induction settles generalizing net with
  | done => exact .own (by simp [completionsAmong]) h
  | @delivered sender frame rest signals retries more ih =>
    have taken := h.received frame.target sender frame.payload
    simp only [List.foldl_cons, completionsAmong, completion?_received, Option.toList_none,
      List.nil_append]
    refine (taken.completion frames ascending fun n present opened ↦ ?_).mono
      fun after ↦ ih after ascending.tail fun e he ↦ known e (by simp [he])
    refine ⟨n.confirmed, .inl rfl, tell_sent present opened frame.target retries, ?_⟩
    simp [completion?, known (sender, frame) (by simp), present,
      tell_sent present opened frame.target retries, Medium.isBusy, Table.contains]
  | @givenUp sender frame rest signals retries more ih =>
    simp only [List.foldl_cons, completionsAmong]
    refine (h.completion frames ascending fun n present opened ↦ ?_).mono
      fun after ↦ ih after ascending.tail fun e he ↦ known e (by simp [he])
    refine ⟨n.givenUp, .inr rfl, tell_timedOut present opened frame.target retries, ?_⟩
    simp [completion?, known (sender, frame) (by simp), present,
      tell_timedOut present opened frame.target retries, Medium.isBusy, Table.contains]

/-- What was under way is waiting once the medium has settled it. -/
theorem Accounted.settledMedium (h : net.Accounted []) :
    net.settledMedium.Accounted net.medium.inFlight.entries where
  nodes address n present := by
    have here := h.nodes address n present
    rw [get?_settledMedium]
    exact ⟨here.opened, here.distinct, here.keeps, here.nodup,
      fun id key ↦ (here.marks id key).trans or_comm, (fun _ _ _ none ↦ nomatch none),
      fun sink ↦ (here.sink sink).symm⟩
  attached address n present := by
    simpa [Network.settledMedium] using h.attached address n present

/-! ## Every sequence of actions -/

private theorem Accounted.step (h : net.Accounted []) (action : Action) :
    Verdict (net.completions action) ((net.step action).Accounted []) := by
  cases action with
  | sow address id elapsed key value =>
    exact .own (by simp [completions]) (h.sow address id elapsed key value)
  | flush address urgent => exact .own (by simp [completions]) (h.flush address urgent)
  | discover =>
    refine .own (by simp [completions]) ?_
    rw [Network.step, state_discover]
    generalize net.board.round = events
    induction events generalizing net with
    | nil => exact h
    | cons event rest ih => exact ih (h.beacon event)
  | pump =>
    rw [Network.step, state_pump]
    exact h.settledMedium.settles net.medium.settles_pump net.medium.inFlight.ascending
      fun e he ↦ net.medium.inFlight.get?_of_mem he

private theorem Accounted.along (h : net.Accounted []) (actions : List Action) :
    Verdict (net.completionsAlong actions) ((actions.foldl Network.step net).Accounted []) := by
  induction actions generalizing net with
  | nil => exact .own (by simp [completionsAlong]) h
  | cons action rest ih => exact (h.step action).mono fun after ↦ ih after

/-- Along every sequence of actions, all completions act only on records that their frames carried
exactly if none of them finds a second frame under way from its node. -/
theorem actsOnOwn_along_iff (fresh : net.Fresh) (actions : List Action) :
    (∀ c ∈ net.completionsAlong actions, c.ActsOnOwn) ↔
      ∀ c ∈ net.completionsAlong actions, c.busy = false :=
  (fresh.accounted.along actions).iff

/-! ## A line whose sink has the largest address -/

private theorem keepsIdentity_alarm : Bytewise.alarm.KeepsIdentity := fun _ _ ↦ ⟨rfl, rfl⟩

/-- The network with one more node, to which an urgent job is bound. -/
def withAlarm (net : Network) (i : Nat) (isSink : Bool) : Network :=
  (net.openNode (.ofNat i) isSink {} (.ofSeed (i + 1).toUInt64)).modifyNode (.ofNat i) fun n ↦
    (n.bind { id := 1, job := Bytewise.alarm }).toOption.getD n

private theorem Fresh.withAlarm (fresh : net.Fresh) (i : Nat) (isSink : Bool) :
    (net.withAlarm i isSink).Fresh :=
  (fresh.openNode _ isSink {} _).bind _ keepsIdentity_alarm rfl

/-- Nodes 0, 1 and 2 in a line without losses, of which 2 is the sink. -/
def alarmLine : Network :=
  ((withAlarm
    { medium := { source := .ofSeed 1, loss := .ofNumber (.ofDecimal false 0 0) }
      board := .line 3 } 0 false).withAlarm 1 false).withAlarm 2 true

private theorem fresh_alarmLine : alarmLine.Fresh :=
  (((fresh_of_empty rfl rfl).withAlarm 0 false).withAlarm 1 false).withAlarm 2 true

/-- Two rounds of discovery, after which 0 sends to 1 and 1 to the sink. -/
def routed (actions : List Action) : List Action := .discover :: .discover :: actions

/-- On the line the completion of the one frame that is sent acts on its own records. -/
theorem actsOnOwn_alarmLine :
    (∀ c ∈ alarmLine.completionsAlong (routed
      [.sow (.ofNat 1) 1 0 [97] [1], .flush (.ofNat 1) false, .pump]), c.ActsOnOwn) ∧
    (alarmLine.completionsAlong (routed
      [.sow (.ofNat 1) 1 0 [97] [1], .flush (.ofNat 1) false, .pump])).length = 1 :=
  ⟨(actsOnOwn_along_iff fresh_alarmLine _).2 (by decide +kernel), by decide +kernel⟩

/-- Node 1 has a frame with `a` settled and hears from node 0 before it is told, so that a second
frame carries `b`. The completion of the first removes the record of `b`. -/
theorem removes_record_of_second_frame :
    ∃ c ∈ alarmLine.completionsAlong (routed
      [.sow (.ofNat 1) 1 0 [97] [1], .flush (.ofNat 1) false, .sow (.ofNat 1) 1 0 [98] [2],
        .sow (.ofNat 0) 1 0 [99] [3], .flush (.ofNat 0) false, .pump]), ¬c.ActsOnOwn := by
  have foreign : ∃ c ∈ alarmLine.completionsAlong (routed
      [.sow (.ofNat 1) 1 0 [97] [1], .flush (.ofNat 1) false, .sow (.ofNat 1) 1 0 [98] [2],
        .sow (.ofNat 0) 1 0 [99] [3], .flush (.ofNat 0) false, .pump]),
      ∃ r ∈ c.before.recordsFor 1, r ∉ c.after.recordsFor 1 ∧
        ∀ entry ∈ Wire.entriesFor c.frame.payload 1, entry.key ≠ r.key := by
    decide +kernel
  obtain ⟨c, mem, r, hr, gone, other⟩ := foreign
  refine ⟨c, mem, fun own ↦ ?_⟩
  obtain ⟨entry, carried, same⟩ := own 1 r hr gone
  exact other entry carried same

end Network
end CollectionTree
