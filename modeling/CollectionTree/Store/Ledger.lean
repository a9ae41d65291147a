import CollectionTree.Store.Record

/-!
# Memory ledgers

A ledger counts the bytes that stored records hold and may cap them. A charge beyond the cap is
refused and changes nothing; moving records between ledgers charges without asking; giving back more
than is held leaves nothing.
-/

namespace CollectionTree

/-- The number of different byte counts that a ledger can hold. -/
def ledgerModulus : Nat := UInt64.size

/-- The bytes held by stored records, and the most that may be charged, if there is a cap. -/
structure Ledger where
  allocated : Nat := 0
  limit : Option Nat := none
  deriving DecidableEq, Repr

namespace Ledger

/-- The most bytes that the ledger can come to hold by charging. -/
def cap (ledger : Ledger) : Nat := ledger.limit.getD (ledgerModulus - 1)

/-- Charge some bytes, unless that exceeds the cap. -/
def charge (ledger : Ledger) (bytes : Nat) : Except StoreError Ledger :=
  if ledger.allocated + bytes ≤ ledger.cap then
    .ok { ledger with allocated := ledger.allocated + bytes }
  else .error (.allocation bytes ledger.allocated ledger.cap)

/-- Charge some bytes whatever the cap; the count wraps around at 2⁶⁴. -/
def forceCharge (ledger : Ledger) (bytes : Nat) : Ledger :=
  { ledger with allocated := (ledger.allocated + bytes) % ledgerModulus }

/-- Give some bytes back; no more are given back than are held. -/
def refund (ledger : Ledger) (bytes : Nat) : Ledger :=
  { ledger with allocated := ledger.allocated - bytes }

/-- A charge succeeds exactly if the sum stays within the cap, and then adds the bytes. -/
theorem charge_eq_ok_iff (ledger ledger' : Ledger) (bytes : Nat) :
    ledger.charge bytes = .ok ledger' ↔
      ledger.allocated + bytes ≤ ledger.cap ∧
        ledger' = { ledger with allocated := ledger.allocated + bytes } := by
  unfold charge
  split
  · simp_all [eq_comm]
  · simp; omega

/-- A forced charge keeps the cap. -/
@[simp] theorem limit_forceCharge (ledger : Ledger) (bytes : Nat) :
    (ledger.forceCharge bytes).limit = ledger.limit := rfl

/-- A refund keeps the cap. -/
@[simp] theorem limit_refund (ledger : Ledger) (bytes : Nat) :
    (ledger.refund bytes).limit = ledger.limit := rfl

end Ledger

end CollectionTree
