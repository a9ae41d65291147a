import CollectionTree.Proofs.Node.Acts
import CollectionTree.Proofs.Node.Depot
import CollectionTree.Proofs.Store.OnePerKey

/-!
# What becomes of a closed node

A closed node wants nothing done any more and keeps its place in the tree. Closing drops every
record, and of all that may be done to the node afterwards only a fact can store one: facts are
taken in without asking whether the node was closed. `silent_of_close` says that the node stays
empty exactly as long as they store nothing.
-/

namespace CollectionTree

namespace Store

/-- The count is that of the candidates that were not refused. -/
theorem fst_emitAll (store : Store) (candidates : List Record) :
    (store.emitAll candidates).1 = (store.accepted candidates).length := by
  induction candidates generalizing store with
  | nil => rfl
  | cons c rest ih =>
    rw [emitAll, accepted]
    by_cases taken : (store.emit c).1.isOk = true <;> simp [taken, ih]

/-- An empty store stays empty exactly if it takes in nothing. -/
theorem records_emitAll_eq_nil_iff (store : Store) (keeps : store.job.KeepsIdentity)
    (empty : store.records = []) (candidates : List Record) :
    (store.emitAll candidates).2.records = [] ↔ (store.emitAll candidates).1 = 0 := by
  have keys (key : Bytes) : key ∈ (store.emitAll candidates).2.records.map Record.key ↔
      key ∈ (store.accepted candidates).map Record.key := by
    rw [mem_keys_emitAll keeps, empty]
    simp
  have none (records : List Record) : records = [] ↔ ∀ key, key ∉ records.map Record.key := by
    rw [← List.eq_nil_iff_forall_not_mem, List.map_eq_nil_iff]
  rw [fst_emitAll, List.length_eq_zero_iff, none, none]
  exact forall_congr' fun key ↦ not_congr (keys key)

end Store

namespace Node

variable {n : Node}

/-- How many records an act has stored for the fact that it gives to the node. -/
def storedIn (n : Node) : Act → Nat
  | .sow id elapsed key value => (n.sow id elapsed key value).1.toOption.getD 0
  | _ => 0

/-- Nothing is stored in any accumulator, and nothing is charged. -/
structure Bare (n : Node) : Prop where
  empty : ∀ acc ∈ n.accumulators, acc.records = []
  uncharged : n.ledger.allocated = 0

/-- In a node that is in order nothing is charged if nothing is stored. -/
theorem InOrder.bare (h : n.InOrder) (empty : ∀ acc ∈ n.accumulators, acc.records = []) :
    n.Bare where
  empty := empty
  uncharged := by
    rw [h.charged]
    refine List.sum_eq_zero fun cost mem ↦ ?_
    obtain ⟨acc, hacc, rfl⟩ := List.mem_map.1 mem
    rw [Accumulator.footprint, empty acc hacc, Record.footprints]

/-- Closing a node that is in order leaves it bare. -/
theorem InOrder.bare_close (h : n.InOrder) (running : n.closed = false) : n.close.state.Bare := by
  refine h.close.bare fun acc mem ↦ ?_
  rw [close_of_running running] at mem
  simp only [accumulators_cleanup] at mem
  obtain ⟨old, hold, rfl⟩ := List.mem_map.1 mem
  rw [List.filter_eq_nil_iff]
  intro r hr
  simp [Record.bears, Flags.intersects, Flags.all, (h.proper old hold).stored r hr]

/-! ## One act -/

/-- A closed node wants nothing done, whatever is done to it, and keeps its place. -/
theorem perform_of_closed (shut : n.closed = true) (act : Act) :
    (n.perform act).outputs = [] ∧ (n.perform act).state.closed = true ∧
      (n.perform act).state.gradient = n.gradient := by
  cases act with
  | sow id elapsed key value =>
    obtain ⟨gradient, closed⟩ := n.sow_keeps id elapsed key value
    exact ⟨rfl, closed.trans shut, gradient⟩
  | unbind id => cases bound : n.accumulator? id <;> simp [perform, Node.unbind, bound, shut]
  | nextDelay => exact ⟨rfl, shut, rfl⟩
  | flush | bind | signal | beacon | close =>
    rw [perform_of_asksFirst shut rfl]
    exact ⟨rfl, shut, rfl⟩

/-- A closed node refuses every accumulator. -/
theorem admits_of_closed (shut : n.closed = true) (act : Act) : n.Admits act := by
  cases act with
  | bind acc =>
    intro bound
    simp [Node.bind, shut, Except.isOk, Except.toBool] at bound
  | sow | flush | unbind | signal | beacon | nextDelay | close => trivial

/-- A fact for a bare node stores nothing exactly if the node stays bare. -/
theorem InOrder.bare_sow_iff (h : n.InOrder) (bare : n.Bare) (id : UInt8) (elapsed : Nat)
    (key value : Bytes) :
    (n.sow id elapsed key value).2.Bare ↔ (n.sow id elapsed key value).1.toOption.getD 0 = 0 := by
  have after := h.sow id elapsed key value
  unfold Node.sow Node.onStore? at after ⊢
  rcases runFirst?_cases id (·.sow elapsed key value) n.ledger n.counters n.accumulators with
    ⟨none, -⟩ | ⟨before, acc, rest, split, -, -, run⟩
  · simpa [none, Except.toOption] using bare
  · simp only [run, Option.map_some] at after ⊢
    have here : acc ∈ n.accumulators := by simp [split]
    have kept := Store.records_emitAll_eq_nil_iff ⟨acc, n.ledger, n.counters.addMapped⟩
      (h.proper acc here).keeps (bare.empty acc here) (acc.job.map elapsed key value)
    refine ⟨fun still ↦ kept.1 (still.empty _ (by simp [Store.sow])), fun stored ↦ ?_⟩
    refine after.bare fun other mem ↦ ?_
    rcases List.mem_append.1 mem with mem | mem
    · exact bare.empty other (by simp [split, mem])
    · rcases List.mem_cons.1 mem with rfl | mem
      · exact kept.2 stored
      · exact bare.empty other (by simp [split, mem])

/-- A bare closed node stays bare through an act exactly if the act stores nothing. -/
theorem InOrder.bare_perform_iff (h : n.InOrder) (shut : n.closed = true) (bare : n.Bare)
    (act : Act) : (n.perform act).state.Bare ↔ n.storedIn act = 0 := by
  cases act with
  | sow id elapsed key value => exact h.bare_sow_iff bare id elapsed key value
  | unbind id =>
    have admitted : n.Admits (.unbind id) := trivial
    have after := h.perform admitted
    refine iff_of_true (after.bare fun acc mem ↦ bare.empty acc ?_) rfl
    cases taken : n.unbind id with
    | none =>
      rw [perform_unbind_of_none taken] at mem
      exact mem
    | some pair =>
      rw [perform_unbind_of_some taken] at mem
      exact (accumulators_unbind_sublist taken).subset mem
  | nextDelay => exact iff_of_true ⟨bare.empty, bare.uncharged⟩ rfl
  | flush | bind | signal | beacon | close =>
    rw [perform_of_asksFirst shut rfl]
    exact iff_of_true bare rfl

/-! ## Everything afterwards -/

/-- What every act leaves of a closed node, any acts leave of it. -/
theorem performed_of_closed (shut : n.closed = true) (acts : List Act) :
    n.wanted acts = [] ∧ (n.performed acts).closed = true ∧
      (n.performed acts).gradient = n.gradient := by
  induction acts generalizing n with
  | nil => exact ⟨rfl, shut, rfl⟩
  | cons act rest ih =>
    obtain ⟨silent, still, gradient⟩ := perform_of_closed shut act
    obtain ⟨later, still', gradient'⟩ := ih still
    exact ⟨by rw [wanted, silent, later, List.nil_append], still', gradient'.trans gradient⟩

private theorem admitsAll_of_closed (shut : n.closed = true) (acts : List Act) :
    n.AdmitsAll acts := by
  induction acts generalizing n with
  | nil => trivial
  | cons act rest ih => exact ⟨admits_of_closed shut act, ih (perform_of_closed shut act).2.1⟩

private theorem InOrder.performed_of_closed (h : n.InOrder) (shut : n.closed = true)
    (acts : List Act) :
    n.wanted acts = [] ∧ (n.performed acts).closed = true ∧
      (n.performed acts).gradient = n.gradient ∧ (n.performed acts).InOrder := by
  obtain ⟨silent, still, gradient⟩ := Node.performed_of_closed shut acts
  exact ⟨silent, still, gradient, h.performed (admitsAll_of_closed shut acts)⟩

/-- A bare closed node stays bare all along exactly if no act stores anything. -/
theorem InOrder.bare_performed_iff (h : n.InOrder) (shut : n.closed = true) (bare : n.Bare)
    (acts : List Act) :
    (∀ before, before <+: acts → (n.performed before).Bare) ↔
      ∀ before act, before ++ [act] <+: acts → (n.performed before).storedIn act = 0 := by
  have step (before : List Act) (act : Act) (still : (n.performed before).Bare) :
      (n.performed (before ++ [act])).Bare ↔ (n.performed before).storedIn act = 0 := by
    obtain ⟨-, shut', -, inOrder⟩ := h.performed_of_closed shut before
    rw [performed_concat]
    exact inOrder.bare_perform_iff shut' still act
  constructor
  · intro all before act front
    have earlier := all before ((List.prefix_append before [act]).trans front)
    exact (step before act earlier).1 (all _ front)
  · intro none before front
    -- From the right, since the acts before the last one are the state that it finds.
    induction before using List.reverseRecOn with
    | nil => exact bare
    | append_singleton before act ih =>
      have earlier := ih ((List.prefix_append before [act]).trans front)
      exact (step before act earlier).2 (none before act front)

/-- Whatever a node did before it is closed, and whatever is done to it afterwards: it wants nothing
done any more, and neither its place in the tree nor the hop count that it announced changes. As
long as no fact has a record stored, no accumulator holds any record and nothing is charged to the
node's ledger; the first fact that has one stored ends this. -/
theorem silent_of_close {address : Address} {isSink : Bool} {config : NodeConfig} {source : Source}
    {acts : List Act}
    (admitted : (Node.opened address isSink config source).state.AdmitsAll acts) {n : Node}
    (reached : (Node.opened address isSink config source).state.performed acts = n)
    (running : n.closed = false) (later : List Act) :
    (n.close.state.wanted later = [] ∧ (n.close.state.performed later).closed = true ∧
        (n.close.state.performed later).gradient = n.gradient) ∧
      ((∀ before, before <+: later → (n.close.state.performed before).Bare) ↔
        ∀ before act, before ++ [act] <+: later →
          (n.close.state.performed before).storedIn act = 0) := by
  have inOrder : n.InOrder := by
    rw [← reached]
    exact (inOrder_opened address isSink config source).performed admitted
  have shut : n.close.state.closed = true := by simp [Node.close, running]
  have gradient : n.close.state.gradient = n.gradient := by
    simp [Node.close, running, cleanup, onEach]
  obtain ⟨silent, still, same, -⟩ := inOrder.close.performed_of_closed shut later
  exact ⟨⟨silent, still, same.trans gradient⟩,
    inOrder.close.bare_performed_iff shut (inOrder.bare_close running) later⟩

/-! ## A node that is closed with a frame under way -/

/-- A node that was given a fact, sent it on and was given another. -/
def sender : Node := (Node.opened (.ofNat 2) false { maxPayload := 40 } (.ofList [])).state

/-- What the node does before it is closed. -/
def senderActs : List Act :=
  [.bind { id := 1, job := Bytewise.latest }, .beacon (.heard (.ofNat 1) 0), .sow 1 0 [97] [1],
    .flush idleRadio false, .sow 1 0 [98] [2]]

private theorem admitted_senderActs : sender.AdmitsAll senderActs := by
  refine ⟨fun _ ↦ ⟨⟨Store.keepsIdentity_latest, Store.keepsLength_latest, ?_⟩, by decide⟩, trivial,
    trivial, trivial, trivial, trivial⟩
  exact fun r hr ↦ absurd hr List.not_mem_nil

/-- What is done to the node after it was closed. No fact stores a record. -/
def afterwards : List Act :=
  [.signal idleRadio (.sent (.ofNat 1) 0), .flush idleRadio true, .sow 2 0 [97] [1],
    .signal idleRadio (.received (.ofNat 3) [0, 1, 1, 6, 1, 1, 97, 1]), .nextDelay,
    .bind { id := 2, job := Bytewise.latest }, .beacon (.heard (.ofNat 4) 0), .close]

/-- A sender is silent after it was closed, and remains bare. -/
theorem silent_of_close_sender :
    sender.AdmitsAll senderActs ∧ (sender.performed senderActs).closed = false ∧
      (sender.performed senderActs).close.state.wanted afterwards = [] ∧
      ∀ before, before <+: afterwards →
        ((sender.performed senderActs).close.state.performed before).Bare := by
  have running : (sender.performed senderActs).closed = false := by decide +kernel
  obtain ⟨⟨silent, -, -⟩, bare⟩ := silent_of_close admitted_senderActs rfl running afterwards
  refine ⟨admitted_senderActs, running, silent, bare.2 fun before act front ↦ ?_⟩
  have none : ∀ some ∈ afterwards.inits, ∀ act ∈ some.getLast?,
      ((sender.performed senderActs).close.state.performed some.dropLast).storedIn act = 0 := by
    decide +kernel
  have last := none (before ++ [act]) ((List.mem_inits ..).2 front) act (by simp)
  rwa [List.dropLast_concat] at last

/-- A fact for a closed node is stored and charged: the node is not asked whether it was closed. -/
theorem stores_once_closed :
    sender.AdmitsAll senderActs ∧ (sender.performed senderActs).closed = false ∧
      (sender.performed senderActs).close.state.Bare ∧
      ¬((sender.performed senderActs).close.state.performed [.sow 1 0 [97] [1]]).Bare ∧
      ((sender.performed senderActs).close.state.performed [.sow 1 0 [97] [1]]).accumulators.map
        (·.records) = [[⟨[97], [1], .storedOnly⟩]] ∧
      ((sender.performed senderActs).close.state.performed
        [.sow 1 0 [97] [1]]).ledger.allocated = 10 := by
  have running : (sender.performed senderActs).closed = false := by decide +kernel
  have charged : ((sender.performed senderActs).close.state.performed
      [.sow 1 0 [97] [1]]).ledger.allocated = 10 := by decide +kernel
  have inOrder : (sender.performed senderActs).InOrder :=
    (inOrder_opened ..).performed admitted_senderActs
  refine ⟨admitted_senderActs, running, inOrder.bare_close running, fun bare ↦ ?_,
    by decide +kernel, charged⟩
  rw [bare.uncharged] at charged
  cases charged

end Node
end CollectionTree
