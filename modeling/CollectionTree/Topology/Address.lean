import CollectionTree.Table

/-!
# Addresses

A node's link-layer address is a 16-bit number, written as its two bytes, and ranked by the number.
-/

namespace CollectionTree

/-- The link-layer address of a node. -/
structure Address where
  number : UInt16
  deriving DecidableEq, Repr

namespace Address

/-- The address with this number, of which only the low 16 bits count. -/
def ofNat (n : Nat) : Address := ⟨n.toUInt16⟩

/-- The address as a number. -/
def toNat (a : Address) : Nat := a.number.toNat

/-- The high and the low byte of the address, with a dot between them. -/
def text (a : Address) : String := s!"{a.toNat / 256}.{a.toNat % 256}"

/-- An address has two bytes. -/
theorem toNat_lt (a : Address) : a.toNat < 65536 := a.number.toNat_lt

/-- Addresses are told apart by their numbers. -/
theorem toNat_inj {a b : Address} : a.toNat = b.toNat ↔ a = b := by
  constructor
  · intro h
    cases a
    cases b
    exact congrArg Address.mk (UInt16.toNat_inj.mp h)
  · rintro rfl
    rfl

/-- Below 65536 every number is an address. -/
theorem toNat_ofNat {n : Nat} (h : n < 65536) : (ofNat n).toNat = n := by
  simp [ofNat, toNat]; omega

instance : Ranked Address where
  rank := toNat
  eq_of_rank := toNat_inj.mp

/-- Addresses rank by their numbers. -/
@[simp] theorem rank_eq (a : Address) : Ranked.rank a = a.toNat := rfl

end Address

end CollectionTree
