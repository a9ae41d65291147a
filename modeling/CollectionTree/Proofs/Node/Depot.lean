import CollectionTree.Proofs.Store.Balances
import CollectionTree.Proofs.Node.Turns
import CollectionTree.Workload.Bytewise

/-!
# Accumulators and ledgers of several nodes

A depot keeps accumulators and ledgers in one pool, and nodes to which some of these accumulators
are bound. An accumulator is charged to one ledger at a time: one of its own, a shared one, or that
of a node, whether it is bound to the node or not. A charge can be moved at any time, also while the
accumulator is bound. A ledger that several accumulators come to be charged to is a shared one from
the beginning, even if nobody is charged to it at first.

`books_run` says that the books are exact after every sequence of acts.
-/

namespace CollectionTree

/-- A node whose accumulators and whose ledger are kept in a pool. The ledger is known by its
number, the accumulators by their places, in binding order. -/
structure Holder where
  node : Node
  account : Nat
  bound : List Nat := []

namespace Holder

/-- The node with what the pool keeps for it. -/
def nodeIn (holder : Holder) (pool : Pool) : Node :=
  { holder.node with
    accumulators := holder.bound.filterMap pool.acc?
    ledger := pool.ledgerOf (.shared holder.account) }

/-- The place of the bound accumulator with this id. -/
def placeOf? (holder : Holder) (pool : Pool) (id : UInt8) : Option Nat :=
  holder.bound.find? fun place ↦ (pool.acc? place).any (·.id == id)

end Holder

/-- Accumulators and ledgers, and the nodes to which some of the accumulators are bound. -/
structure Depot where
  pool : Pool
  holders : List Holder

namespace Depot

/-- What may be done in a depot. -/
inductive Act where
  /-- The accumulator in a place does what it is asked. -/
  | serve (place : Nat) (request : Store.Request)
  /-- The accumulator in a place is charged to a shared ledger, or to that of a node. -/
  | attach (place index : Nat)
  /-- The accumulator in a place is charged to a fresh ledger of its own. -/
  | detach (place : Nat)
  /-- The accumulator in a place is dropped, unless it is bound. -/
  | drop (place : Nat)
  /-- The accumulator in a place is given to a node, unless it is bound; it is dropped if the node
  refuses it. -/
  | bind (number place : Nat)
  /-- A node hands the accumulator with this id back. -/
  | unbind (number : Nat) (id : UInt8)
  /-- A node is closed. -/
  | close (number : Nat)
  /-- A node is dropped, with the accumulators that are bound to it. -/
  | discard (number : Nat)

/-- Whether the accumulator in a place is bound to a node. -/
def isBound (d : Depot) (place : Nat) : Bool := d.holders.any (·.bound.contains place)

/-- Give an accumulator to a node. -/
def give (d : Depot) (number place : Nat) (holder : Holder) (acc : Accumulator) : Depot :=
  match (holder.nodeIn d.pool).bind acc with
  | .error _ => { d with pool := (d.pool.drop place).getD d.pool }
  | .ok _ =>
    { pool := (d.pool.attach place holder.account).getD d.pool
      holders := d.holders.set number { holder with bound := holder.bound ++ [place] } }

/-- Take a bound accumulator back. -/
def takeBack (d : Depot) (number place : Nat) (holder : Holder) : Depot where
  pool := (d.pool.detach place).getD d.pool
  holders := d.holders.set number { holder with bound := holder.bound.erase place }

/-- Close a node. -/
def shut (d : Depot) (number : Nat) (holder : Holder) : Depot where
  pool := holder.bound.foldl (fun pool place ↦ pool.serveAt place (.cleanup .all)) d.pool
  holders := d.holders.set number { holder with node := { holder.node with closed := true } }

/-- Drop a node. -/
def scrap (d : Depot) (number : Nat) (holder : Holder) : Depot where
  pool := holder.bound.foldl (fun pool place ↦ (pool.drop place).getD pool) d.pool
  holders :=
    d.holders.set number { holder with node := { holder.node with closed := true }, bound := [] }

/-- The depot after an act. -/
def step (d : Depot) : Act → Depot
  | .serve place request => { d with pool := d.pool.serveAt place request }
  | .attach place index =>
    if index < d.pool.ledgers.length then
      { d with pool := (d.pool.attach place index).getD d.pool }
    else d
  | .detach place => { d with pool := (d.pool.detach place).getD d.pool }
  | .drop place =>
    if d.isBound place then d else { d with pool := (d.pool.drop place).getD d.pool }
  | .bind number place =>
    match d.holders[number]?, d.pool.acc? place with
    | some holder, some acc => if d.isBound place then d else d.give number place holder acc
    | _, _ => d
  | .unbind number id =>
    match d.holders[number]? with
    | none => d
    | some holder =>
      match holder.placeOf? d.pool id with
      | none => d
      | some place => d.takeBack number place holder
  | .close number =>
    match d.holders[number]? with
    | none => d
    | some holder => if holder.node.closed then d else d.shut number holder
  | .discard number =>
    match d.holders[number]? with
    | none => d
    | some holder => d.scrap number holder

/-- The depot after some acts. -/
def run (d : Depot) (acts : List Act) : Depot := acts.foldl step d

end Depot

namespace Depot

/-! ## Runs -/

/-- Nothing was charged or bound yet, every ledger that is charged is there, and no job changes
lengths. -/
structure Fresh (d : Depot) : Prop where
  empty : ∀ m, some m ∈ d.pool.members → m.acc.records = []
  unused : ∀ ledger ∈ d.pool.ledgers, ledger.allocated = 0
  separate : ∀ m ledger, some m ∈ d.pool.members → m.charge = .own ledger → ledger.allocated = 0
  known : ∀ m index, some m ∈ d.pool.members → m.charge = .shared index →
    index < d.pool.ledgers.length
  accounts : ∀ holder ∈ d.holders, holder.account < d.pool.ledgers.length
  unbound : ∀ holder ∈ d.holders, holder.bound = []
  lengths : ∀ m, some m ∈ d.pool.members → m.acc.job.KeepsLength

/-- The pool's books are kept, and every node has a ledger. -/
structure Sound (d : Depot) (count : Nat) : Prop where
  pool : d.pool.Sound count
  accounts : ∀ holder ∈ d.holders, holder.account < count

variable {d : Depot} {count number : Nat} {holder : Holder}

/-- A ledger of a fresh depot is unused, and so are the accumulators. -/
theorem Fresh.exact (h : d.Fresh) : d.pool.Exact := by
  constructor
  · intro account ledger found
    have unused : ledger.allocated = 0 := by
      cases account with
      | shared index => exact h.unused ledger (List.mem_of_getElem? found)
      | own place =>
        obtain ⟨m, present, own⟩ := Option.bind_eq_some_iff.1 found
        cases charge : m.charge with
        | own mine =>
          rw [charge] at own
          obtain rfl := Option.some.inj own
          exact h.separate m mine (List.mem_of_getElem? (Pool.getElem?_of_member? present)) charge
        | shared index => simp [charge] at own
    rw [unused]
    symm
    apply List.sum_eq_zero
    intro cost mem
    obtain ⟨place, inside, rfl⟩ := List.mem_mapIdx.1 mem
    cases here : d.pool.members[place] with
    | none => rfl
    | some m =>
      have empty := h.empty m (here ▸ List.getElem_mem inside)
      simp [Pool.portion, Accumulator.footprint, empty, Record.footprints]
  · intro place m index present charge
    exact h.known m index (List.mem_of_getElem? (Pool.getElem?_of_member? present)) charge

private theorem Fresh.sound (h : d.Fresh) : d.Sound d.pool.ledgers.length := by
  refine ⟨⟨h.exact, rfl, ?_⟩, h.accounts⟩
  intro place acc there
  obtain ⟨m, present, rfl⟩ := Option.map_eq_some_iff.1 there
  exact h.lengths m (List.mem_of_getElem? (Pool.getElem?_of_member? present))

private theorem Sound.setHolder (h : d.Sound count) (there : d.holders[number]? = some holder)
    {pool : Pool} (sound : pool.Sound count) {holder' : Holder}
    (same : holder'.account = holder.account) :
    Sound ⟨pool, d.holders.set number holder'⟩ count := by
  refine ⟨sound, ?_⟩
  intro other mem
  rcases List.mem_or_eq_of_mem_set mem with mem | rfl
  · exact h.accounts other mem
  · rw [same]
    exact h.accounts holder (List.mem_of_getElem? there)

private theorem Sound.step (h : d.Sound count) (act : Act) (within : (d.step act).pool.Within) :
    (d.step act).Sound count := by
  cases act with
  | serve place request => exact ⟨h.pool.serveAt place request, h.accounts⟩
  | attach place index =>
    simp only [Depot.step] at within ⊢
    split at within
    · next known =>
      rw [if_pos known]
      exact ⟨h.pool.attach place (h.pool.count ▸ known) within, h.accounts⟩
    · next kept =>
      rw [if_neg kept]
      exact h
  | detach place => exact ⟨h.pool.detach place within, h.accounts⟩
  | drop place =>
    simp only [Depot.step]
    split
    · exact h
    · exact ⟨h.pool.drop place, h.accounts⟩
  | bind number place =>
    simp only [Depot.step] at within ⊢
    split
    · next holder acc there present =>
      simp only [there, present] at within
      split
      · exact h
      · next free =>
        rw [if_neg free] at within
        simp only [give] at within ⊢
        split
        · exact ⟨h.pool.drop place, h.accounts⟩
        · next taken =>
          rw [taken] at within
          have known := h.accounts holder (List.mem_of_getElem? there)
          exact h.setHolder there (h.pool.attach place known within) rfl
    · exact h
  | unbind number id =>
    simp only [Depot.step] at within ⊢
    split
    · exact h
    · next holder there =>
      simp only [there] at within
      split
      · exact h
      · next place found =>
        simp only [found, takeBack] at within
        exact h.setHolder there (h.pool.detach place within) rfl
  | close number =>
    simp only [Depot.step]
    split
    · exact h
    · next holder there =>
      split
      · exact h
      · exact h.setHolder there (h.pool.serveEach holder.bound _) rfl
  | discard number =>
    simp only [Depot.step]
    split
    · exact h
    · next holder there => exact h.setHolder there (h.pool.dropEach holder.bound) rfl

private theorem Sound.run (h : d.Sound count) {acts : List Act}
    (within : ∀ some, some <+: acts → (d.run some).pool.Within) : (d.run acts).Sound count := by
  -- From the right, since the acts before the last one are a prefix of all acts.
  induction acts using List.reverseRecOn with
  | nil => exact h
  | append_singleton acts act ih =>
    have before := ih fun some front ↦ within some (front.trans (List.prefix_append ..))
    have after := within _ (List.prefix_refl _)
    rw [Depot.run, List.foldl_concat] at after ⊢
    exact before.step act after

/-- The books are balanced whatever was done, as long as what is charged can be counted. -/
theorem books_run (fresh : d.Fresh) {acts : List Act}
    (within : ∀ some, some <+: acts → (d.run some).pool.Within) : (d.run acts).pool.Balanced :=
  (fresh.sound.run within).pool.balanced

/-! ## A depot in use -/

/-- Two accumulators with one id, one of them on a shared ledger, a third on a ledger of its own,
and a node with a ledger. All ledgers are capped. -/
def smallDepot : Depot where
  pool :=
    { ledgers := [{ limit := some 40 }, { limit := some 60 }]
      members :=
        [some { acc := { id := 1, job := Bytewise.latest } },
          some { acc := { id := 1, job := Bytewise.latest }, charge := .shared 0 },
          some
            { acc := { id := 2, job := Bytewise.latest }, charge := .own { limit := some 20 } }] }
  holders := [{ node := (Node.opened (.ofNat 7) true {} (.ofList [])).state, account := 1 }]

/-- Something is stored everywhere, as far as the caps allow. The node takes one accumulator and
refuses the other one with its id; the third one is moved about, before it is bound to the node and
afterwards, and is still bound when the node is closed. -/
def smallActs : List Act :=
  [.serve 0 (.emit ⟨[97], [1], {}⟩), .serve 1 (.emit ⟨[97], [1], {}⟩),
    .serve 1 (.sow 0 [98] [2, 3]),
    .bind 0 0, .serve 2 (.feed [2, 11, 1, 1, 99, 7, 2, 1, 99, 99, 9] true), .bind 0 1,
    .serve 2 (.emit ⟨[97], [1], {}⟩), .attach 2 0, .serve 0 (.gather 20 false),
    .serve 0 (.cleanup .pendingOnly), .unbind 0 1, .detach 2, .bind 0 2, .attach 2 0,
    .serve 2 (.emit ⟨[100], [4], {}⟩), .detach 2, .attach 2 1, .serve 0 (.emit ⟨[98], [2], {}⟩),
    .attach 0 1, .close 0, .discard 0]

private theorem fresh_smallDepot : smallDepot.Fresh := by
  have members : ∀ m, some m ∈ smallDepot.pool.members →
      m.acc.records = [] ∧ m.acc.job = Bytewise.latest ∧
        (m.charge = .own {} ∨ m.charge = .shared 0 ∨ m.charge = .own { limit := some 20 }) := by
    intro m mem
    simp only [smallDepot, List.mem_cons, Option.some.injEq, List.not_mem_nil, or_false] at mem
    rcases mem with rfl | rfl | rfl <;> simp
  refine ⟨fun m mem ↦ (members m mem).1, by decide, ?_, ?_, ?_, ?_, ?_⟩
  · intro m ledger mem own
    rcases (members m mem).2.2 with charge | charge | charge <;> rw [charge] at own <;> cases own
      <;> rfl
  · intro m index mem shared
    rcases (members m mem).2.2 with charge | charge | charge <;> rw [charge] at shared <;>
      cases shared
    decide
  · intro holder mem
    rw [smallDepot, List.mem_singleton] at mem
    subst mem
    decide
  · intro holder mem
    rw [smallDepot, List.mem_singleton] at mem
    subst mem
    rfl
  · intro m mem
    rw [(members m mem).2.1]
    exact Store.keepsLength_latest

/-- The node's ledger is left with what an accumulator holds that is charged to it and not bound. -/
theorem books_smallDepot :
    smallDepot.Fresh ∧ (∀ some, some <+: smallActs → (smallDepot.run some).pool.Within) ∧
      (smallDepot.run smallActs).pool.Balanced ∧
      (smallDepot.run smallActs).pool.ledgers.map (·.allocated) = [0, 10] := by
  have within : ∀ some, some <+: smallActs → (smallDepot.run some).pool.Within := by
    have small : ∀ some ∈ smallActs.inits, (smallDepot.run some).pool.total < ledgerModulus := by
      decide +kernel
    intro some front account
    exact (Pool.held_le_total _ account).trans_lt (small some ((List.mem_inits ..).2 front))
  exact ⟨fresh_smallDepot, within, books_run fresh_smallDepot within, by decide +kernel⟩

end Depot
end CollectionTree
