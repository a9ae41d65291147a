import CollectionTree.Proofs.Store.Charges

/-!
# Balanced pools

Where the books of a pool are exact, nothing is given back that is not held, and what requests
charge stays within the cap: `Balanced`. `Sound` is what requests, drops and moves keep; a move
needs that the ledger can count what it then holds.
-/

namespace CollectionTree
namespace Pool

/-- The pool after the accumulator in a place did what it was asked, unless it was dropped. -/
def serveAt (pool : Pool) (place : Nat) (request : Store.Request) : Pool :=
  ((pool.run place fun store ↦ ((), store.serve request)).map Prod.snd).getD pool

/-- The accumulator in a place, apart from its charge and its counters. -/
def acc? (pool : Pool) (place : Nat) : Option Accumulator := (pool.member? place).map (·.acc)

/-- What is charged to any ledger can be counted. -/
def Within (pool : Pool) : Prop := ∀ account, pool.held account < ledgerModulus

/-- What all accumulators cost. -/
def total (pool : Pool) : Nat := (pool.members.map fun m? ↦ (m?.map (·.acc.footprint)).getD 0).sum

/-- Books are exact, there are so many shared ledgers, and no job changes lengths. -/
structure Sound (pool : Pool) (count : Nat) : Prop where
  exact : pool.Exact
  count : pool.ledgers.length = count
  lengths : ∀ place acc, pool.acc? place = some acc → acc.job.KeepsLength

/-- Ledgers hold what the accumulators charged to them cost. So nothing is given back that is not
held; what requests charge stays within the cap; and what is refused changes nothing. -/
structure Balanced (pool : Pool) : Prop where
  allocated : ∀ account ledger, pool.ledgerAt account = some ledger →
    ledger.allocated = pool.held account
  refundable : ∀ place m, pool.member? place = some m → ∀ part, part.Sublist m.acc.records →
    Record.footprints part ≤ (pool.ledgerOf m.charge).allocated
  capped : ∀ place request account ledger ledger', pool.ledgerAt account = some ledger →
    (pool.serveAt place request).ledgerAt account = some ledger' →
    ledger.allocated < ledger'.allocated → ledger'.allocated ≤ ledger.cap
  refused : ∀ place m request, pool.member? place = some m →
    ∀ e ∈ (pool.store m).emissions request, e.Refused →
      e.after.toAccumulator = e.before.toAccumulator ∧ e.after.ledger = e.before.ledger

variable {pool pool' : Pool} {place count : Nat} {m : Member}

private theorem serveAt_of_present (present : pool.member? place = some m)
    (request : Store.Request) :
    pool.serveAt place request = pool.setStore place m.charge ((pool.store m).serve request) := by
  simp [serveAt, run, present]

private theorem serveAt_of_absent (absent : pool.member? place = none) (request : Store.Request) :
    pool.serveAt place request = pool := by
  simp [serveAt, run, absent]

/-- Putting a store into a place changes the accumulator there only. -/
theorem acc?_setStore (pool : Pool) (inside : place < pool.members.length) (charge : Charge)
    (store : Store) (other : Nat) :
    (pool.setStore place charge store).acc? other =
      if other = place then some store.toAccumulator else pool.acc? other := by
  obtain ⟨ledgers, charge', -, -, after⟩ := pool.setStore_eq place charge store
  rw [after, acc?, member?_set pool inside]
  split <;> rfl

/-- Vacating a place changes nothing elsewhere. -/
theorem acc?_vacate (present : pool.member? place = some m) (other : Nat) :
    (pool.vacate place m).acc? other = if other = place then none else pool.acc? other := by
  rw [vacate, acc?, member?_set pool (inside_of_member? present)]
  split <;> rfl

/-- No ledger holds more than what everything costs. -/
theorem held_le_total (pool : Pool) (account : Account) : pool.held account ≤ pool.total := by
  apply sum_mapIdx_le
  intro place m?
  cases m? with
  | none => exact Nat.le_refl 0
  | some m =>
    simp only [portion, Option.map_some, Option.getD_some]
    split
    · exact Nat.le_refl _
    · exact Nat.zero_le _

private theorem length_ledgers_setStore (pool : Pool) (place : Nat) (charge : Charge)
    (store : Store) : (pool.setStore place charge store).ledgers.length = pool.ledgers.length := by
  cases charge with
  | own ledger => rfl
  | shared index => exact List.length_set ..

/-! ## What each operation keeps -/

private theorem Sound.setStore (h : pool.Sound count) (inside : place < pool.members.length)
    {charge : Charge} {store : Store} (lengths : store.job.KeepsLength)
    (exact' : (pool.setStore place charge store).Exact) :
    (pool.setStore place charge store).Sound count := by
  refine ⟨exact', (pool.length_ledgers_setStore place charge store).trans h.count, ?_⟩
  · intro other acc there
    rw [acc?_setStore pool inside] at there
    split at there
    · obtain rfl := Option.some.inj there
      exact lengths
    · exact h.lengths other acc there

private theorem Sound.keepsLength (h : pool.Sound count) (present : pool.member? place = some m) :
    m.acc.job.KeepsLength :=
  h.lengths place m.acc (by simp [acc?, present])

private theorem Sound.accounts (h : pool.Sound count) (present : pool.member? place = some m)
    (request : Store.Request) : (pool.store m).Accounts ((pool.store m).serve request) :=
  Store.accounts_serve (h.keepsLength present) (h.exact.covered present) request

/-- A request leaves the books sound. -/
theorem Sound.serveAt (h : pool.Sound count) (place : Nat) (request : Store.Request) :
    (pool.serveAt place request).Sound count := by
  cases present : pool.member? place with
  | none => rwa [serveAt_of_absent present]
  | some m =>
    rw [serveAt_of_present present]
    apply h.setStore (inside_of_member? present)
    · rw [Store.job_serve]
      exact h.keepsLength present
    · exact h.exact.run present (h.accounts present request)

private theorem Sound.vacate (h : pool.Sound count) (present : pool.member? place = some m) :
    (pool.vacate place m).Sound count := by
  refine ⟨h.exact.drop present, (pool.length_ledgers_release m).trans h.count, ?_⟩
  intro other acc there
  rw [acc?_vacate present] at there
  split at there
  · cases there
  · exact h.lengths other acc there

/-- Dropping an accumulator leaves the books sound. -/
theorem Sound.drop (h : pool.Sound count) (place : Nat) :
    ((pool.drop place).getD pool).Sound count := by
  cases present : pool.member? place with
  | none => simpa [Pool.drop, present] using h
  | some m =>
    rw [drop_eq present]
    exact h.vacate present

private theorem Sound.move (h : pool.Sound count) (place : Nat) {charge : Charge}
    (known : ∀ index, charge = .shared index → index < count)
    (fresh : ∀ ledger, charge = .own ledger → ledger.allocated = 0)
    (within : ((pool.move place charge).getD pool).Within) :
    ((pool.move place charge).getD pool).Sound count := by
  cases present : pool.member? place with
  | none => simpa [Pool.move, present] using h
  | some m =>
    have moved := move_eq present charge
    rw [moved] at within ⊢
    have exact' := h.exact.move present (h.count ▸ known) fresh moved (within _)
    exact (h.vacate present).setStore (inside_vacate present) (h.keepsLength present) exact'

/-- Moving an accumulator to another ledger leaves the books sound, while its count can hold it. -/
theorem Sound.attach (h : pool.Sound count) (place : Nat) {index : Nat} (inside : index < count)
    (within : ((pool.attach place index).getD pool).Within) :
    ((pool.attach place index).getD pool).Sound count := by
  refine h.move place ?_ (fun ledger own ↦ by cases own) within
  intro number shared
  obtain rfl := Charge.shared.inj shared
  exact inside

/-- Moving an accumulator to a ledger of its own leaves the books sound, while its count can hold
it. -/
theorem Sound.detach (h : pool.Sound count) (place : Nat)
    (within : ((pool.detach place).getD pool).Within) :
    ((pool.detach place).getD pool).Sound count := by
  refine h.move place (fun index shared ↦ by cases shared) ?_ within
  intro ledger own
  obtain rfl := Charge.own.inj own
  rfl

/-- Exact books are balanced. -/
theorem Sound.balanced (h : pool.Sound count) : pool.Balanced where
  allocated := h.exact.allocated
  refundable := by
    intro place m present part sublist
    exact (Record.footprints_le_of_sublist sublist).trans (h.exact.covered present)
  capped := by
    intro place request account ledger ledger' before after raised
    cases present : pool.member? place with
    | none =>
      rw [serveAt_of_absent present, before] at after
      obtain rfl := Option.some.inj after
      omega
    | some m =>
      rw [serveAt_of_present present] at after
      rcases ledgerAt_setStore (inside_of_member? present) (h.exact.known place m · present) _ after
        with ⟨rfl, rfl⟩ | ⟨-, same⟩
      · obtain rfl := Option.some.inj (before.symm.trans (h.exact.ledgerAt_account present))
        exact (h.accounts present request).capped.resolve_left (Nat.not_le.2 raised)
      · obtain rfl := Option.some.inj (before.symm.trans same)
        omega
  refused := by
    intro place m request present e he refused
    exact e.unchanged_of_refused refused

/-- Requests to one accumulator after another keep the books. -/
theorem Sound.serveEach (h : pool.Sound count) (places : List Nat) (request : Store.Request) :
    (places.foldl (fun pool place ↦ pool.serveAt place request) pool).Sound count := by
  induction places generalizing pool with
  | nil => exact h
  | cons place rest ih => exact ih (h.serveAt place request)

/-- Dropping accumulators one by one leaves the books sound. -/
theorem Sound.dropEach (h : pool.Sound count) (places : List Nat) :
    (places.foldl (fun pool place ↦ (pool.drop place).getD pool) pool).Sound count := by
  induction places generalizing pool with
  | nil => exact h
  | cons place rest ih => exact ih (h.drop place)

/-! ## Single places -/

private theorem member?_setStore_of_ne (pool : Pool) (inside : place < pool.members.length)
    (charge : Charge) (store : Store) {other : Nat} (apart : other ≠ place) :
    (pool.setStore place charge store).member? other = pool.member? other := by
  obtain ⟨ledgers, charge', -, -, after⟩ := pool.setStore_eq place charge store
  rw [after, member?_set pool inside, if_neg apart]

/-- What an accumulator that is charged to a shared ledger does is done to that ledger. -/
theorem serveAt_of_shared (present : pool.member? place = some m) {account : Nat}
    (charge : m.charge = .shared account) (inside : account < pool.ledgers.length)
    (request : Store.Request) :
    pool.serveAt place request =
        pool.setStore place (.shared account) ((pool.store m).serve request) ∧
      (pool.serveAt place request).ledgerOf (.shared account) =
        ((pool.store m).serve request).ledger ∧
      account < (pool.serveAt place request).ledgers.length := by
  rw [serveAt_of_present present, charge]
  refine ⟨rfl, ?_, ?_⟩
  · simp [setStore, ledgerOf, inside]
  · simpa [setStore] using inside

/-- An accumulator stays itself when it is charged to another ledger. -/
theorem acc?_move (present : pool.member? place = some m) (charge : Charge) :
    ((pool.move place charge).getD pool).acc? = pool.acc? := by
  funext other
  rw [move_eq present, Option.getD_some, acc?_setStore _ (inside_vacate present),
    acc?_vacate present]
  split
  · next same => simp [same, acc?, present, Store.attach]
  · rfl

/-! ## Who stays charged to a shared ledger -/

/-- The accumulator in a place is there, and charged to the shared ledger with this number. -/
def ChargedTo (pool : Pool) (place index : Nat) : Prop :=
  ∃ m, pool.member? place = some m ∧ m.charge = .shared index

variable {other index : Nat}

/-- An accumulator stays charged to a ledger when a store with this charge is put into its place, or
any store into another place. -/
theorem chargedTo_setStore (inside : place < pool.members.length) {charge : Charge} {store : Store}
    (here : other = place → charge = .shared index)
    (elsewhere : other ≠ place → pool.ChargedTo other index) :
    (pool.setStore place charge store).ChargedTo other index := by
  by_cases same : other = place
  · subst same
    have shared := here rfl
    subst shared
    exact ⟨_, by rw [setStore, member?_set pool inside, if_pos rfl], rfl⟩
  · obtain ⟨m, present, shared⟩ := elsewhere same
    exact ⟨m, (member?_setStore_of_ne pool inside charge store same).trans present, shared⟩

private theorem chargedTo_vacate (present : pool.member? place = some m) (apart : other ≠ place)
    (charged : pool.ChargedTo other index) : (pool.vacate place m).ChargedTo other index := by
  obtain ⟨m', present', shared⟩ := charged
  refine ⟨m', ?_, shared⟩
  rw [vacate, member?_set pool (inside_of_member? present), if_neg apart]
  exact present'

/-- A request moves no charge. -/
theorem ChargedTo.serveAt (charged : pool.ChargedTo other index) (place : Nat)
    (request : Store.Request) : (pool.serveAt place request).ChargedTo other index := by
  cases present : pool.member? place with
  | none => rwa [serveAt_of_absent present]
  | some m =>
    rw [serveAt_of_present present]
    refine chargedTo_setStore (inside_of_member? present) ?_ fun _ ↦ charged
    rintro rfl
    obtain ⟨m', present', shared⟩ := charged
    obtain rfl := Option.some.inj (present.symm.trans present')
    exact shared

/-- Dropping an accumulator keeps the charges of others. -/
theorem ChargedTo.drop (charged : pool.ChargedTo other index) (apart : other ≠ place) :
    ((pool.drop place).getD pool).ChargedTo other index := by
  cases present : pool.member? place with
  | none => simpa [Pool.drop, present] using charged
  | some m =>
    rw [drop_eq present]
    exact chargedTo_vacate present apart charged

/-- Moving a charge keeps those of others. -/
theorem ChargedTo.move (charged : pool.ChargedTo other index) (apart : other ≠ place)
    (charge : Charge) : ((pool.move place charge).getD pool).ChargedTo other index := by
  cases present : pool.member? place with
  | none => simpa [Pool.move, present] using charged
  | some m =>
    rw [move_eq present]
    apply chargedTo_setStore
    · exact inside_vacate present
    · exact fun same ↦ absurd same apart
    · exact fun _ ↦ chargedTo_vacate present apart charged

/-- What was attached to a ledger is charged to it. -/
theorem chargedTo_attach (present : pool.member? place = some m) (index : Nat) :
    ((pool.attach place index).getD pool).ChargedTo place index := by
  rw [Pool.attach, move_eq present, Option.getD_some]
  apply chargedTo_setStore
  · exact inside_vacate present
  · exact fun _ ↦ rfl
  · exact fun other ↦ absurd rfl other

/-- A request keeps the number of ledgers. -/
theorem length_ledgers_serveAt (pool : Pool) (place : Nat) (request : Store.Request) :
    (pool.serveAt place request).ledgers.length = pool.ledgers.length := by
  cases present : pool.member? place with
  | none => rw [serveAt_of_absent present]
  | some m => rw [serveAt_of_present present, length_ledgers_setStore]

/-- Dropping an accumulator keeps the number of ledgers. -/
theorem length_ledgers_drop (pool : Pool) (place : Nat) :
    ((pool.drop place).getD pool).ledgers.length = pool.ledgers.length := by
  cases present : pool.member? place with
  | none => simp [Pool.drop, present]
  | some m =>
    rw [drop_eq present]
    exact pool.length_ledgers_release m

/-- Moving a charge keeps the number of ledgers. -/
theorem length_ledgers_move (pool : Pool) (place : Nat) (charge : Charge) :
    ((pool.move place charge).getD pool).ledgers.length = pool.ledgers.length := by
  cases present : pool.member? place with
  | none => simp [Pool.move, present]
  | some m =>
    rw [move_eq present, Option.getD_some, length_ledgers_setStore]
    exact pool.length_ledgers_release m

end Pool
end CollectionTree
