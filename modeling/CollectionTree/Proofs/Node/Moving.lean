import CollectionTree.Proofs.Node.Accounts
import CollectionTree.Proofs.Node.Acts
import CollectionTree.Proofs.Node.Exchange
import CollectionTree.Proofs.Store.OnePerKey

/-!
# Accumulators that move between nodes

An accumulator keeps its marks when it is handed back. A record that was on its way then stays
marked, while the fate of its frame is told to a node that no longer has it. `losesNothing_iff` says
that this is all that can go wrong where the accumulator is bound next, and that it is over once the
next node is told the fate of any frame.
-/

namespace CollectionTree

open Node (Act takenFrame? takenFrames)

namespace Node

variable {n n' : Node} {acc : Accumulator} {id : UInt8}

private theorem closed_of_bind (bound : n.bind acc = .ok n') :
    n.closed = false ∧ n'.closed = false := by
  have running : n.closed = false := by
    cases shut : n.closed with
    | false => rfl
    | true => simp [Node.bind, shut] at bound
  obtain ⟨-, rfl⟩ := bind_eq_ok bound
  exact ⟨running, running⟩

/-- The ids that are bound are those under which an accumulator is found. -/
theorem mem_ids_iff {n : Node} : id ∈ n.bindings.map Prod.fst ↔ n.accumulator? id ≠ none := by
  simp [bindings, accumulator?, List.find?_eq_none]

private theorem bindings_onSignal (distinct : n.DistinctIds) (radio : Radio) (signal : Signal) :
    (n.onSignal radio signal).state.bindings = n.bindings := by
  cases shut : n.closed with
  | true => simp [onSignal, shut]
  | false =>
    cases signal with
    | received sender payload =>
      have taken := n.bindings_takingIn payload
      rw [onSignal_received shut]
      exact (bindings_flush ((distinctIds_of_bindings_eq taken).2 distinct) radio true).trans taken
    | sent target retries => rw [onSignal_sent shut, bindings_confirmed]
    | timedOut target retries => rw [onSignal_timedOut shut, bindings_givenUp]

private theorem bindings_onBeacon (n : Node) (beacon : Beacon) :
    (n.onBeacon beacon).state.bindings = n.bindings := by
  unfold onBeacon
  split
  · rfl
  · cases beacon <;> rfl

private theorem bindings_close (n : Node) : n.close.state.bindings = n.bindings := by
  unfold close
  split
  · rfl
  · exact n.bindings_cleanup .all

/-- Only an act that binds or hands back changes what is bound. -/
theorem bindings_perform (distinct : n.DistinctIds) {act : Act} (bind : ∀ acc, act ≠ .bind acc)
    (unbind : ∀ id, act ≠ .unbind id) : (n.perform act).state.bindings = n.bindings := by
  cases act with
  | sow id elapsed key value => exact n.bindings_sow id elapsed key value
  | flush radio urgent => exact bindings_flush distinct radio urgent
  | bind acc => exact absurd rfl (bind acc)
  | unbind id => exact absurd rfl (unbind id)
  | signal radio signal => exact bindings_onSignal distinct radio signal
  | beacon beacon => exact n.bindings_onBeacon beacon
  | nextDelay => rfl
  | close => exact n.bindings_close

/-- Once everything was cleaned up no key is on its way. -/
@[simp] theorem pendingKeys_cleanup_all (n : Node) (id : UInt8) :
    (n.cleanup .all).pendingKeys id = [] := by
  rw [List.eq_nil_iff_forall_not_mem]
  intro key mem
  obtain ⟨r, hr, marked, -⟩ := mem_pendingKeys.1 mem
  rw [recordsFor_cleanup] at hr
  have bears : r.bears .all = true := by
    have pending : r.flags.pending = true := marked
    simp [Record.bears, Flags.intersects, Flags.all, pending]
  simp [bears] at hr

private theorem pendingKeys_congr (h : n'.recordsFor id = n.recordsFor id) :
    n'.pendingKeys id = n.pendingKeys id := by
  rw [pendingKeys, h, pendingKeys]

/-- A flush without a frame taken leaves the keys on their way as they are, or leaves none. With
one, those that the frame carries are on their way too. -/
theorem pendingKeys_flush (distinct : n.DistinctIds) (radio : Radio) (urgent : Bool) (id : UInt8) :
    (takenFrame? (n.flush radio urgent).outputs = none ∧
        ((n.flush radio urgent).state.pendingKeys id = n.pendingKeys id ∨
          (n.flush radio urgent).state.pendingKeys id = [])) ∨
      (radio.busy = false ∧ ∃ frame, takenFrame? (n.flush radio urgent).outputs = some frame ∧
        ∀ key ∈ (n.flush radio urgent).state.pendingKeys id,
          key ∈ n.pendingKeys id ∨ key ∈ carriedKeys (some frame) id) := by
  have step := flushed_flush distinct radio urgent
  generalize n.flush radio urgent = reaction at step ⊢
  cases step with
  | idle gate source => exact .inl ⟨rfl, .inl rfl⟩
  | consumed sink => exact .inl ⟨takenFrame?_consumption _, .inr (n.pendingKeys_cleanup_all id)⟩
  | taken gate source inner route free accepted carries loaded =>
    exact .inr ⟨free, _, rfl, fun key ↦ (mem_pendingKeys_markAll carries gate source id key).1⟩
  | refused gate source inner free filled rejected =>
    exact .inl ⟨rfl, .inr (n.pendingKeys_releasePending id)⟩

private theorem closed_unbind (taken : n.unbind id = some (acc, n')) : n'.closed = n.closed := by
  obtain ⟨before, after, -, -, -, rfl⟩ := unbind_eq_some taken
  rfl

private theorem accumulator?_unbind_of_ne (taken : n.unbind id = some (acc, n')) {other : UInt8}
    (differ : other ≠ id) : n'.accumulator? other = n.accumulator? other := by
  obtain ⟨before, after, split, named, -, rfl⟩ := unbind_eq_some taken
  have passed : (acc.id == other) = false := beq_false_of_ne (named ▸ differ.symm)
  simp only [accumulator?, split, List.find?_append, List.find?_cons, passed]

end Node

namespace Exchange

/-! ## Acts of a node and its radio -/

/-- Whether an act tells the node the fate of a frame. -/
def tellsFate : Act → Bool
  | .signal _ (.sent _ _) | .signal _ (.timedOut _ _) => true
  | _ => false

/-- The exchange after an act. A frame whose fate was told is no longer outstanding. -/
def perform (e : Exchange) (act : Act) : Exchange where
  node := (e.node.perform act).state
  outstanding :=
    if tellsFate act then none else (takenFrame? (e.node.perform act).outputs).or e.outstanding

/-- The exchange after some acts. -/
def performed (e : Exchange) (acts : List Act) : Exchange := acts.foldl perform e

/-- Whether the radio may do this: it is busy while a frame is outstanding, and tells the fate of an
outstanding frame only. Jobs that come to be bound leave keys and marks alone. -/
def Permits (e : Exchange) : Act → Prop
  | .flush radio _ | .signal radio (.received _ _) =>
    e.outstanding.isSome = true → radio.busy = true
  | .signal _ (.sent _ _) | .signal _ (.timedOut _ _) => e.outstanding.isSome = true
  | .bind acc => acc.job.KeepsIdentity
  | .sow _ _ _ _ | .unbind _ | .beacon _ | .nextDelay | .close => True

/-- Whether all of this is permitted in this order. -/
def PermitsAll (e : Exchange) : List Act → Prop
  | [] => True
  | act :: rest => e.Permits act ∧ (e.perform act).PermitsAll rest

/-- The accumulator with this id loses nothing from now on, as long as it is not handed back: while
no frame is outstanding each of its records may be sent, and a confirmation removes a record of it
only if the confirmed frame was sent from now on and carried the record's key. -/
def LosesNothing (e : Exchange) (id : UInt8) : Prop :=
  ∀ acts, e.PermitsAll acts → Act.unbind id ∉ acts →
    ((e.performed acts).outstanding = none →
      ∀ r ∈ (e.performed acts).node.recordsFor id, r.eligible false = true) ∧
    ∀ radio target retries, (e.performed acts).Permits (.signal radio (.sent target retries)) →
      ∀ r ∈ (e.performed acts).node.recordsFor id,
        r ∉ ((e.performed acts).perform (.signal radio (.sent target retries))).node.recordsFor id →
        ∃ frame, (e.performed acts).outstanding = some frame ∧
          frame ∈ takenFrames (e.node.wanted acts) ∧ r.key ∈ carriedKeys (some frame) id

/-- Ids are distinct, and jobs leave keys and marks alone. -/
structure Orderly (e : Exchange) : Prop where
  distinct : e.node.DistinctIds
  keeps : e.node.KeepsIdentity

/-- An accumulator is bound under this id, and none of its records is on its way from a closed node.
-/
structure Hosts (e : Exchange) (id : UInt8) : Prop extends Orderly e where
  bound : id ∈ e.node.bindings.map Prod.fst
  shut : e.node.closed = true → e.node.pendingKeys id = []

/-- The records of a bound accumulator are on their way only in the outstanding frame, and only if
that is one of these. -/
structure Tracks (e : Exchange) (id : UInt8) (frames : List Outgoing) : Prop
    extends Hosts e id where
  marks : ∀ key ∈ e.node.pendingKeys id,
    ∃ frame ∈ frames, e.outstanding = some frame ∧ key ∈ carriedKeys (some frame) id

variable {e : Exchange} {id : UInt8} {frames : List Outgoing}

/-- What an act makes of the marks of an accumulator that stays bound. -/
inductive Remarked (e : Exchange) (id : UInt8) (act : Act) : Prop
  /-- They stay as they are, unless a closed node is told a fate. -/
  | kept (fate : tellsFate act = true → e.node.closed = true)
      (silent : takenFrame? (e.node.perform act).outputs = none)
      (closed : (e.node.perform act).state.closed = e.node.closed)
      (keys : (e.node.perform act).state.pendingKeys id = e.node.pendingKeys id)
  /-- None is left. -/
  | cleared (keys : (e.node.perform act).state.pendingKeys id = [])
  /-- A first frame is taken, and only what it carries is marked in addition. -/
  | taken (frame : Outgoing) (fate : tellsFate act = false) (idle : e.outstanding = none)
      (running : (e.node.perform act).state.closed = false)
      (sent : takenFrame? (e.node.perform act).outputs = some frame)
      (keys : ∀ key ∈ (e.node.perform act).state.pendingKeys id,
        key ∈ e.node.pendingKeys id ∨ key ∈ carriedKeys (some frame) id)

/-- An act that tells no fate and sends nothing may leave the marks as they are. -/
theorem Remarked.of_untold {act : Act} (fate : tellsFate act = false)
    (silent : takenFrame? (e.node.perform act).outputs = none)
    (closed : (e.node.perform act).state.closed = e.node.closed)
    (keys : (e.node.perform act).state.pendingKeys id = e.node.pendingKeys id) :
    e.Remarked id act := by
  refine .kept (fun told ↦ ?_) silent closed keys
  rw [fate] at told
  cases told

/-- A flush of a running node with the same marks, as a part of an act. -/
theorem remarked_of_flush {act : Act} {n : Node} {radio : Radio} {urgent : Bool}
    (fate : tellsFate act = false) (distinct : n.DistinctIds) (running : n.closed = false)
    (closed : n.closed = e.node.closed) (keys : n.pendingKeys id = e.node.pendingKeys id)
    (busy : e.outstanding.isSome = true → radio.busy = true)
    (outputs : (e.node.perform act).outputs = (n.flush radio urgent).outputs)
    (state : (e.node.perform act).state = (n.flush radio urgent).state) : e.Remarked id act := by
  have closed' := (Node.flush_keeps distinct radio urgent).2
  rcases Node.pendingKeys_flush distinct radio urgent id with
    ⟨silent, same | none⟩ | ⟨free, frame, sent, marked⟩
  · exact .of_untold fate (outputs ▸ silent) (state ▸ closed'.trans closed)
      (state ▸ same.trans keys)
  · exact .cleared (state ▸ none)
  · refine .taken frame fate ?_ (state ▸ closed'.trans running) (outputs ▸ sent) ?_
    · cases outstanding : e.outstanding with
      | none => rfl
      | some other =>
        rw [busy (by simp [outstanding])] at free
        cases free
    · rw [state, ← keys]
      exact marked

private theorem Hosts.remarked (h : e.Hosts id) {act : Act} (permitted : e.Permits act)
    (stays : act ≠ .unbind id) : e.Remarked id act := by
  by_cases asks : e.node.closed = true ∧ act.asksFirst = true
  · have same := Node.perform_of_asksFirst asks.1 asks.2
    exact .kept (fun _ ↦ asks.1) (by rw [same]; rfl) (by rw [same]) (by rw [same])
  have running (h : act.asksFirst = true) : e.node.closed = false := by
    simpa [h] using asks
  cases act with
  | sow owner elapsed key value =>
    exact .of_untold rfl rfl (e.node.sow_keeps owner elapsed key value).2
      (Node.pendingKeys_sow h.keeps owner elapsed key value id)
  | flush radio urgent =>
    exact remarked_of_flush rfl h.distinct (running rfl) rfl rfl permitted rfl rfl
  | bind acc =>
    cases given : e.node.bind acc with
    | error cause =>
      have same := Node.perform_bind_of_error given
      exact .of_untold rfl rfl (by rw [same]) (by rw [same])
    | ok n =>
      have last := Node.perform_bind_of_ok given
      obtain ⟨before, later⟩ := Node.closed_of_bind given
      have other : acc.id ≠ id := by
        rintro rfl
        exact Node.mem_ids_iff.1 h.bound (Node.bind_eq_ok given).1
      refine .of_untold rfl rfl ?_ ?_
      · rw [last, later, before]
      · rw [last, Node.pendingKeys_congr (Node.recordsFor_bind_of_ne given other)]
  | unbind other =>
    cases handed : e.node.unbind other with
    | none =>
      have same := Node.perform_unbind_of_none handed
      exact .of_untold rfl rfl (by rw [same]) (by rw [same])
    | some pair =>
      obtain ⟨acc, n⟩ := pair
      have last := Node.perform_unbind_of_some handed
      have differ : id ≠ other := fun same ↦ stays (by rw [same])
      have found := Node.accumulator?_unbind_of_ne handed differ
      refine .of_untold rfl rfl ?_ ?_
      · rw [last, Node.closed_unbind handed]
      · rw [last]
        exact Node.pendingKeys_congr (by rw [Node.recordsFor, found, Node.recordsFor])
  | signal radio signal =>
    cases signal with
    | received sender payload =>
      have told := Node.onSignal_received (running rfl) radio sender payload
      exact remarked_of_flush rfl
        ((Node.distinctIds_of_bindings_eq (e.node.bindings_takingIn payload)).2 h.distinct)
        ((e.node.closed_takingIn payload).trans (running rfl)) (e.node.closed_takingIn payload)
        (Node.pendingKeys_takingIn h.keeps payload id) permitted
        (congrArg Reaction.outputs told) (congrArg Reaction.state told)
    | sent target retries =>
      have told := Node.onSignal_sent (running rfl) radio target retries
      exact .cleared ((congrArg (·.state.pendingKeys id) told).trans
        (e.node.pendingKeys_confirmed id))
    | timedOut target retries =>
      have told := Node.onSignal_timedOut (running rfl) radio target retries
      exact .cleared
        ((congrArg (·.state.pendingKeys id) told).trans (e.node.pendingKeys_givenUp id))
  | beacon beacon =>
    cases beacon with
    | heard neighbor hop =>
      have told := Node.onBeacon_heard (running rfl) neighbor hop
      refine .of_untold rfl ?_ (congrArg (·.state.closed) told)
        (congrArg (·.state.pendingKeys id) told)
      rw [Node.perform, told]
      split <;> rfl
    | tick =>
      have told := Node.onBeacon_tick (running rfl)
      exact .of_untold rfl (congrArg (takenFrame? ·.outputs) told)
        (congrArg (·.state.closed) told) (congrArg (·.state.pendingKeys id) told)
  | nextDelay => exact .of_untold rfl rfl rfl rfl
  | close =>
    have told := Node.close_of_running (running rfl)
    exact .cleared ((congrArg (·.state.pendingKeys id) told).trans
      (e.node.pendingKeys_cleanup_all id))

/-- Whatever happens, ids stay distinct and jobs keep leaving keys and marks alone. -/
theorem Orderly.perform (h : e.Orderly) {act : Act} (permitted : e.Permits act) :
    (e.perform act).Orderly := by
  have same (bindings : (e.node.perform act).state.bindings = e.node.bindings) :
      (e.perform act).Orderly :=
    ⟨(Node.distinctIds_of_bindings_eq bindings).2 h.distinct,
      (Node.keepsIdentity_of_bindings_eq bindings).2 h.keeps⟩
  cases act with
  | bind acc =>
    cases given : e.node.bind acc with
    | error cause => exact same (by rw [Node.perform_bind_of_error given])
    | ok n =>
      have last : (e.perform (.bind acc)).node = n :=
        congrArg Reaction.state (Node.perform_bind_of_ok given)
      refine ⟨last ▸ Node.distinctIds_bind h.distinct given, fun other mem ↦ ?_⟩
      rw [last, (Node.bind_eq_ok given).2] at mem
      rcases List.mem_append.1 mem with mem | mem
      · exact h.keeps other mem
      · rw [List.mem_singleton.1 mem]
        exact permitted
  | unbind id =>
    cases handed : e.node.unbind id with
    | none => exact same (by rw [Node.perform_unbind_of_none handed])
    | some pair =>
      obtain ⟨acc, n⟩ := pair
      have last : (e.perform (.unbind id)).node = n :=
        congrArg Reaction.state (Node.perform_unbind_of_some handed)
      have fewer : (e.perform (.unbind id)).node.accumulators.Sublist e.node.accumulators :=
        last ▸ Node.accumulators_unbind_sublist handed
      exact ⟨h.distinct.sublist (fewer.map _), fun other mem ↦ h.keeps other (fewer.subset mem)⟩
  | sow | flush | signal | beacon | nextDelay | close =>
    exact same (Node.bindings_perform h.distinct (fun _ same ↦ nomatch same)
      fun _ same ↦ nomatch same)

private theorem Orderly.performed (h : e.Orderly) {acts : List Act}
    (permitted : e.PermitsAll acts) : (e.performed acts).Orderly := by
  induction acts generalizing e with
  | nil => exact h
  | cons act rest ih => exact ih (h.perform permitted.1) permitted.2

/-- What is not handed back stays bound. -/
theorem Hosts.bound_perform (h : e.Hosts id) {act : Act} (stays : act ≠ .unbind id) :
    id ∈ (e.node.perform act).state.bindings.map Prod.fst := by
  have same (bindings : (e.node.perform act).state.bindings = e.node.bindings) :
      id ∈ (e.node.perform act).state.bindings.map Prod.fst := bindings ▸ h.bound
  cases act with
  | bind acc =>
    cases given : e.node.bind acc with
    | error cause => exact same (by rw [Node.perform_bind_of_error given])
    | ok n =>
      rw [Node.perform_bind_of_ok given, Node.bindings_bind given, List.map_append]
      exact List.mem_append_left _ h.bound
  | unbind other =>
    cases handed : e.node.unbind other with
    | none => exact same (by rw [Node.perform_unbind_of_none handed])
    | some pair =>
      have differ : id ≠ other := fun same ↦ stays (by rw [same])
      rw [Node.perform_unbind_of_some handed, Node.mem_ids_iff,
        Node.accumulator?_unbind_of_ne handed differ]
      exact Node.mem_ids_iff.1 h.bound
  | sow | flush | signal | beacon | nextDelay | close =>
    exact same (Node.bindings_perform h.distinct (fun _ same ↦ nomatch same)
      fun _ same ↦ nomatch same)

private theorem Hosts.perform (h : e.Hosts id) {act : Act} (permitted : e.Permits act)
    (stays : act ≠ .unbind id) : (e.perform act).Hosts id := by
  refine ⟨h.toOrderly.perform permitted, h.bound_perform stays, fun shut ↦ ?_⟩
  cases h.remarked permitted stays with
  | kept fate silent closed keys => exact keys.trans (h.shut (closed.symm.trans shut))
  | cleared keys => exact keys
  | taken frame fate idle running sent keys => cases running.symm.trans shut

private theorem Hosts.performed (h : e.Hosts id) {acts : List Act} (permitted : e.PermitsAll acts)
    (stays : Act.unbind id ∉ acts) : (e.performed acts).Hosts id := by
  induction acts generalizing e with
  | nil => exact h
  | cons act rest ih =>
    rw [List.mem_cons, not_or] at stays
    exact ih (h.perform permitted.1 (Ne.symm stays.1)) permitted.2 stays.2

/-- Once the node was told the fate of a frame, nothing is on its way. -/
theorem Hosts.pendingKeys_of_told (h : e.Hosts id) {act : Act} (permitted : e.Permits act)
    (told : tellsFate act = true) : (e.perform act).node.pendingKeys id = [] := by
  have stays : act ≠ .unbind id := by
    rintro rfl
    cases told
  cases h.remarked permitted stays with
  | kept fate silent closed keys => exact keys.trans (h.shut (fate told))
  | cleared keys => exact keys
  | taken frame fate idle running sent keys => cases fate.symm.trans told

private theorem Hosts.tracks (h : e.Hosts id) (clear : e.node.pendingKeys id = []) :
    e.Tracks id [] where
  toHosts := h
  marks key mem := by
    rw [clear] at mem
    cases mem

private theorem Tracks.perform (h : e.Tracks id frames) {act : Act} (permitted : e.Permits act)
    (stays : act ≠ .unbind id) :
    (e.perform act).Tracks id (frames ++ takenFrames (e.node.perform act).outputs) := by
  refine ⟨h.toHosts.perform permitted stays, fun key mem ↦ ?_⟩
  have mem : key ∈ (e.node.perform act).state.pendingKeys id := mem
  cases h.toHosts.remarked permitted stays with
  | kept fate silent closed keys =>
    rw [keys] at mem
    obtain ⟨frame, among, outstanding, carried⟩ := h.marks key mem
    have untold : tellsFate act = false := by
      cases told : tellsFate act with
      | false => rfl
      | true =>
        rw [h.shut (fate told)] at mem
        cases mem
    refine ⟨frame, List.mem_append_left _ among, ?_, carried⟩
    simp [Exchange.perform, untold, silent, outstanding]
  | cleared keys =>
    rw [keys] at mem
    cases mem
  | taken frame fate idle running sent keys =>
    refine ⟨frame, List.mem_append_right _ (Node.mem_takenFrames_of_takenFrame? sent), ?_, ?_⟩
    · simp [Exchange.perform, fate, sent]
    · rcases keys key mem with earlier | carried
      · obtain ⟨other, -, outstanding, -⟩ := h.marks key earlier
        rw [idle] at outstanding
        cases outstanding
      · exact carried

/-- The records of an accumulator that came unmarked are on their way only in frames sent since. -/
theorem Tracks.performed (h : e.Tracks id frames) {acts : List Act} (permitted : e.PermitsAll acts)
    (stays : Act.unbind id ∉ acts) :
    (e.performed acts).Tracks id (frames ++ takenFrames (e.node.wanted acts)) := by
  induction acts generalizing e frames with
  | nil => simpa [Exchange.performed, Node.wanted, takenFrames] using h
  | cons act rest ih =>
    rw [List.mem_cons, not_or] at stays
    have later := ih (h.perform permitted.1 (Ne.symm stays.1)) permitted.2 stays.2
    rw [Node.wanted, Node.takenFrames_append, ← List.append_assoc]
    exact later

/-- A confirmation removes only what is on its way. -/
theorem isPending_of_confirmed {radio : Radio} {target : Address} {retries : Nat} {r : Record}
    (hr : r ∈ e.node.recordsFor id)
    (gone : r ∉ (e.perform (.signal radio (.sent target retries))).node.recordsFor id) :
    r.isPending = true := by
  have after : (e.perform (.signal radio (.sent target retries))).node =
      (e.node.onSignal radio (.sent target retries)).state := rfl
  rw [after] at gone
  cases shut : e.node.closed with
  | true =>
    rw [Node.onSignal, if_pos shut] at gone
    exact absurd hr gone
  | false =>
    rw [Node.onSignal_sent shut, Node.recordsFor_confirmed] at gone
    simpa [hr] using gone

/-- An accumulator with nothing on its way loses nothing. -/
theorem Hosts.losesNothing (h : e.Hosts id) (clear : e.node.pendingKeys id = []) :
    e.LosesNothing id := by
  intro acts permitted stays
  have tracks := (h.tracks clear).performed permitted stays
  rw [List.nil_append] at tracks
  refine ⟨fun idle r hr ↦ ?_, fun radio target retries told r hr gone ↦ ?_⟩
  · cases marked : r.isPending with
    | false => simp [Record.eligible, marked]
    | true =>
      obtain ⟨frame, -, outstanding, -⟩ := tracks.marks r.key
        (Node.mem_pendingKeys.2 ⟨r, hr, marked, rfl⟩)
      rw [idle] at outstanding
      cases outstanding
  · obtain ⟨frame, among, outstanding, carried⟩ := tracks.marks r.key
      (Node.mem_pendingKeys.2 ⟨r, hr, isPending_of_confirmed hr gone, rfl⟩)
    exact ⟨frame, outstanding, among, carried⟩

/-- An accumulator that loses nothing has nothing on its way: before anything else happens, its
records are either to be ready or about to be removed by the confirmation of an earlier frame. -/
theorem pendingKeys_of_losesNothing (h : e.LosesNothing id) (running : e.node.closed = false) :
    e.node.pendingKeys id = [] := by
  obtain ⟨ready, removed⟩ := h [] trivial List.not_mem_nil
  rw [List.eq_nil_iff_forall_not_mem]
  intro key mem
  obtain ⟨r, hr, marked, -⟩ := Node.mem_pendingKeys.1 mem
  cases outstanding : e.outstanding with
  | none =>
    have eligible := ready outstanding r hr
    rw [Record.not_isPending_of_eligible eligible] at marked
    cases marked
  | some frame =>
    have told : e.Permits (.signal ⟨true, fun _ ↦ false⟩ (.sent frame.target 0)) := by
      simp [Permits, outstanding]
    have gone : r ∉ (e.perform
        (.signal ⟨true, fun _ ↦ false⟩ (.sent frame.target 0))).node.recordsFor id := by
      have after : (e.perform (.signal ⟨true, fun _ ↦ false⟩ (.sent frame.target 0))).node =
          e.node.confirmed := congrArg Reaction.state (Node.onSignal_sent running _ _ _)
      rw [after, Node.recordsFor_confirmed]
      simp [marked]
    obtain ⟨other, -, among, -⟩ := removed _ _ _ told r hr gone
    cases among

/-! ## From one node to another -/

/-- An exchange that can come of starting a node. -/
def Reachable (e : Exchange) : Prop :=
  ∃ address isSink config source acts,
    PermitsAll ⟨(Node.opened address isSink config source).state, none⟩ acts ∧
      performed ⟨(Node.opened address isSink config source).state, none⟩ acts = e

private theorem Reachable.orderly (h : e.Reachable) : e.Orderly := by
  obtain ⟨address, isSink, config, source, acts, permitted, rfl⟩ := h
  have start : Orderly ⟨(Node.opened address isSink config source).state, none⟩ :=
    ⟨List.nodup_nil, fun _ mem ↦ absurd mem List.not_mem_nil⟩
  exact start.performed permitted

/-- Whenever a node hands an accumulator back and wherever it is bound next, possibly to the same
node: it loses nothing there exactly if none of its records was on its way when it was handed back.
In any case it loses nothing from the time on that its next node is told the fate of a frame. -/
theorem losesNothing_iff {first second : Exchange} (reached : first.Reachable)
    (reached' : second.Reachable) {acc : Accumulator} {rest n : Node}
    (handed : first.node.unbind id = some (acc, rest)) (bound : second.node.bind acc = .ok n) :
    (LosesNothing ⟨n, second.outstanding⟩ id ↔ Accumulator.pending acc.records = []) ∧
      ∀ acts act, PermitsAll ⟨n, second.outstanding⟩ acts → Act.unbind id ∉ acts →
        (performed ⟨n, second.outstanding⟩ acts).Permits act → tellsFate act = true →
        LosesNothing ((performed ⟨n, second.outstanding⟩ acts).perform act) id := by
  obtain ⟨before, after, split, rfl, -, -⟩ := Node.unbind_eq_some handed
  have keeps : acc.job.KeepsIdentity := reached.orderly.keeps acc (by simp [split])
  obtain ⟨-, running⟩ := Node.closed_of_bind bound
  have given : second.perform (.bind acc) = ⟨n, second.outstanding⟩ := by
    simp [Exchange.perform, Node.perform_bind_of_ok bound, tellsFate, takenFrame?]
  have hosts : Hosts ⟨n, second.outstanding⟩ acc.id := by
    refine ⟨given ▸ reached'.orderly.perform keeps, ?_, fun shut ↦ ?_⟩
    · simp [Node.bindings_bind bound]
    · cases running.symm.trans shut
  have marks : n.pendingKeys acc.id = [] ↔ Accumulator.pending acc.records = [] := by
    rw [Node.pendingKeys, Node.recordsFor_bind bound, List.map_eq_nil_iff]
  constructor
  · rw [← marks]
    exact ⟨fun nothing ↦ pendingKeys_of_losesNothing nothing running, hosts.losesNothing⟩
  · intro acts act permitted stays told fate
    have later := hosts.performed permitted stays
    have kept : act ≠ .unbind acc.id := by
      rintro rfl
      cases fate
    exact (later.perform told kept).losesNothing (later.pendingKeys_of_told told fate)

/-! ## Handed back before and after the confirmation -/

/-- A node that was just started. -/
def mover : Exchange := ⟨(Node.opened (.ofNat 2) false {} (.ofList [])).state, none⟩

/-- A record is sent on. -/
def sendingOn : List Act :=
  [.bind { id := 1, job := Bytewise.latest }, .bind { id := 2, job := Bytewise.latest },
    .beacon (.heard (.ofNat 1) 0), .sow 1 0 [97] [1], .flush willing false]

private theorem permitted_sendingOn : mover.PermitsAll sendingOn :=
  ⟨Store.keepsIdentity_latest, Store.keepsIdentity_latest, trivial, trivial,
    fun busy ↦ absurd busy (by decide), trivial⟩

private theorem permitsAll_append {e : Exchange} {acts more : List Act}
    (permitted : e.PermitsAll acts)
    (permitted' : (e.performed acts).PermitsAll more) : e.PermitsAll (acts ++ more) := by
  induction acts generalizing e with
  | nil => exact permitted'
  | cons act rest ih => exact ⟨permitted.1, ih permitted.2 permitted'⟩

private theorem reachable_mover {acts : List Act}
    (permitted : (mover.performed sendingOn).PermitsAll acts) :
    (mover.performed (sendingOn ++ acts)).Reachable :=
  ⟨_, _, _, _, _, permitsAll_append permitted_sendingOn permitted, rfl⟩

/-- Another record comes, and the first one is confirmed. -/
def confirmedMeanwhile : List Act := [.sow 1 0 [98] [2], .signal willing (.sent (.ofNat 1) 0)]

/-- The accumulator that is handed back after that. -/
def clearAcc : Accumulator :=
  { id := 1, job := Bytewise.latest, records := [⟨[98], [2], .storedOnly⟩] }

/-- The node to which it is bound again. -/
def settledMover : Exchange := mover.performed (sendingOn ++ (confirmedMeanwhile ++ [.unbind 1]))

/-- Handed back after the confirmation, an accumulator loses nothing. -/
theorem losesNothing_unmarked :
    (mover.performed (sendingOn ++ confirmedMeanwhile)).Reachable ∧ settledMover.Reachable ∧
      (mover.performed (sendingOn ++ confirmedMeanwhile)).node.unbind 1 =
        some (clearAcc, settledMover.node) ∧
      settledMover.node.bind clearAcc = .ok (settledMover.perform (.bind clearAcc)).node ∧
      LosesNothing ⟨(settledMover.perform (.bind clearAcc)).node, settledMover.outstanding⟩ 1 := by
  have reached : (mover.performed (sendingOn ++ confirmedMeanwhile)).Reachable :=
    reachable_mover ⟨trivial, rfl, trivial⟩
  have reached' : settledMover.Reachable := reachable_mover ⟨trivial, rfl, trivial, trivial⟩
  have handed : (mover.performed (sendingOn ++ confirmedMeanwhile)).node.unbind 1 =
      some (clearAcc, settledMover.node) := rfl
  have bound : settledMover.node.bind clearAcc =
      .ok (settledMover.perform (.bind clearAcc)).node := rfl
  exact ⟨reached, reached', handed, bound,
    (losesNothing_iff reached reached' handed bound).1.2 rfl⟩

/-- The accumulator that is handed back while its record is on its way. -/
def markedAcc : Accumulator :=
  { id := 1, job := Bytewise.latest, records := [⟨[97], [1], ⟨true, false, true⟩⟩] }

/-- The node to which it is bound again, after the frame was given up. -/
def gaveUp : Exchange :=
  mover.performed (sendingOn ++ [.unbind 1, .signal willing (.timedOut (.ofNat 1) 4)])

/-- A record of another accumulator is sent. -/
def otherSent : List Act := [.sow 2 0 [98] [2], .flush willing false]

/-- Handed back before that, it keeps its mark although no frame is outstanding, and the
confirmation of another frame removes the record, which no frame carried since. -/
theorem loses_marked :
    (mover.performed sendingOn).Reachable ∧ gaveUp.Reachable ∧
      (mover.performed sendingOn).node.unbind 1 =
        some (markedAcc, (mover.performed (sendingOn ++ [.unbind 1])).node) ∧
      gaveUp.node.bind markedAcc = .ok (gaveUp.perform (.bind markedAcc)).node ∧
      (gaveUp.perform (.bind markedAcc)).outstanding = none ∧
      ((gaveUp.perform (.bind markedAcc)).node.recordsFor 1).map (·.eligible false) = [false] ∧
      ((gaveUp.perform (.bind markedAcc)).performed otherSent).node.recordsFor 1 =
        markedAcc.records ∧
      (takenFrames ((gaveUp.perform (.bind markedAcc)).node.wanted otherSent)).map
          Outgoing.payload =
        [[0, 1, 2, 6, 1, 1, 98, 2]] ∧
      (((gaveUp.perform (.bind markedAcc)).performed otherSent).perform
        (.signal willing (.sent (.ofNat 1) 0))).node.recordsFor 1 = [] ∧
      ¬LosesNothing (gaveUp.perform (.bind markedAcc)) 1 := by
  have reached : (mover.performed sendingOn).Reachable :=
    ⟨_, _, _, _, _, permitted_sendingOn, rfl⟩
  have reached' : gaveUp.Reachable := reachable_mover ⟨trivial, rfl, trivial⟩
  refine ⟨reached, reached', rfl, rfl, by decide +kernel, by decide +kernel, by decide +kernel,
    by decide +kernel, by decide +kernel, fun nothing ↦ ?_⟩
  have clear := pendingKeys_of_losesNothing nothing rfl
  have pending : (gaveUp.perform (.bind markedAcc)).node.pendingKeys 1 = [[97]] := by decide +kernel
  rw [clear] at pending
  cases pending

end Exchange
end CollectionTree
