import CollectionTree.Store.Accumulator

/-!
# Pools of accumulators and ledgers

A pool holds accumulators that are each charged either to a ledger of their own or to one of the
pool's shared ledgers. An accumulator can be moved from one ledger to another with its charge, and
dropped, which gives its bytes back.
-/

namespace CollectionTree

/-- Where an accumulator's records are charged. -/
inductive Charge where
  /-- To a ledger that no other accumulator uses. -/
  | own (ledger : Ledger)
  /-- To the shared ledger with this number. -/
  | shared (index : Nat)
  deriving DecidableEq, Repr

/-- An accumulator in a pool, where its records are charged, and what it reports to. -/
structure Member where
  acc : Accumulator
  charge : Charge := .own {}
  counters : Counters := {}

/-- Accumulators, with none in place of a dropped one, and the ledgers that they may share. -/
structure Pool where
  ledgers : List Ledger
  members : List (Option Member)

namespace Pool

/-- The ledger that a charge is on. A number without a ledger stands for one without a cap. -/
def ledgerOf (pool : Pool) : Charge → Ledger
  | .own ledger => ledger
  | .shared index => pool.ledgers[index]?.getD {}

/-- The accumulator in this place, unless it was dropped. -/
def member? (pool : Pool) (place : Nat) : Option Member := pool.members[place]?.join

/-- The accumulator in this place as a store of its own. -/
def store (pool : Pool) (m : Member) : Store :=
  { toAccumulator := m.acc, ledger := pool.ledgerOf m.charge, counters := m.counters }

/-- Put the state of a store back into its place. -/
def setStore (pool : Pool) (place : Nat) (charge : Charge) (store : Store) : Pool :=
  let back := fun charge ↦
    pool.members.set place (some ⟨store.toAccumulator, charge, store.counters⟩)
  match charge with
  | .own _ => { pool with members := back (.own store.ledger) }
  | .shared index =>
    { pool with ledgers := pool.ledgers.set index store.ledger, members := back charge }

/-- Run an operation on the accumulator in this place, unless it was dropped. -/
def run {α : Type} (pool : Pool) (place : Nat) (operation : Store → α × Store) :
    Option (α × Pool) :=
  (pool.member? place).map fun m ↦
    let (answer, store) := operation (pool.store m)
    (answer, pool.setStore place m.charge store)

/-- Let the accumulator in one place write a segment of at most `room` bytes, and the one in another
place take it in. The answer is the segment, and how many of its bytes the other dealt with unless
that one was dropped. -/
def pipe (pool : Pool) (place target room : Nat) (urgent : Bool) :
    Option ((Bytes × Option Nat) × Pool) :=
  (pool.run place (·.gather room urgent)).map fun (segment, pool) ↦
    match pool.run target (·.feed segment urgent) with
    | some (fed, pool) => ((segment, some fed), pool)
    | none => ((segment, none), pool)

/-- Give back the bytes that a member holds. -/
def release (pool : Pool) (m : Member) : Pool :=
  match m.charge with
  | .own _ => pool
  | .shared index => { pool with ledgers := pool.ledgers.modify index (·.refund m.acc.footprint) }

/-- Move the accumulator in this place, with its charge, to another ledger and fresh counters. -/
def move (pool : Pool) (place : Nat) (charge : Charge) : Option Pool :=
  (pool.member? place).map fun m ↦
    let released := pool.release m
    released.setStore place charge (.attach m.acc (released.ledgerOf charge) {})

/-- Charge the accumulator in this place to a shared ledger from now on. -/
def attach (pool : Pool) (place index : Nat) : Option Pool := pool.move place (.shared index)

/-- Charge the accumulator in this place to a fresh ledger of its own from now on. -/
def detach (pool : Pool) (place : Nat) : Option Pool := pool.move place (.own {})

/-- Drop the accumulator in this place and give its bytes back. -/
def drop (pool : Pool) (place : Nat) : Option Pool :=
  (pool.member? place).map fun m ↦
    let released := pool.release m
    { released with members := released.members.set place none }

end Pool

end CollectionTree
