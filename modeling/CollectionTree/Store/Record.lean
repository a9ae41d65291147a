import CollectionTree.Wire.Entry

/-!
# Records and their marks

A stored record is a key, a value and three marks: that it is held by a store, that it is to be sent
ahead of the schedule, and that it is on its way in a frame that was not confirmed yet.
-/

namespace CollectionTree

/-- The bytes that a stored record costs beyond its key and value. -/
def recordOverhead : Nat := 8

/-- The marks of a record, or a choice of marks to ask about. A stored record is held by a store, an
urgent one is to be sent ahead of the schedule, and a pending one is carried by a frame whose fate
is not known yet. -/
structure Flags where
  stored : Bool := false
  urgent : Bool := false
  pending : Bool := false
  deriving DecidableEq, Repr

namespace Flags

/-- No mark. -/
def none : Flags := {}

/-- Every mark. -/
def all : Flags := ⟨true, true, true⟩

/-- The mark of a stored record. -/
def storedOnly : Flags := ⟨true, false, false⟩

/-- The mark of an urgent record. -/
def urgentOnly : Flags := ⟨false, true, false⟩

/-- The mark of a record on its way. -/
def pendingOnly : Flags := ⟨false, false, true⟩

/-- The marks whose bits are set: 1 for stored, 2 for urgent, 4 for pending. Other bits mean
nothing. -/
def ofMask (mask : Nat) : Flags := ⟨mask.testBit 0, mask.testBit 1, mask.testBit 2⟩

/-- The bits of the marks. -/
def toMask (flags : Flags) : Nat :=
  flags.stored.toNat + 2 * flags.urgent.toNat + 4 * flags.pending.toNat

/-- The marks of either. -/
def union (a b : Flags) : Flags :=
  ⟨a.stored || b.stored, a.urgent || b.urgent, a.pending || b.pending⟩

/-- The marks of the first that the second lacks. -/
def diff (a b : Flags) : Flags :=
  ⟨a.stored && !b.stored, a.urgent && !b.urgent, a.pending && !b.pending⟩

/-- Whether some mark is in both. -/
def intersects (a b : Flags) : Bool :=
  a.stored && b.stored || a.urgent && b.urgent || a.pending && b.pending

/-- Marks are read back from their mask. -/
@[simp] theorem ofMask_toMask (flags : Flags) : ofMask flags.toMask = flags := by
  cases flags with
  | mk s u p => cases s <;> cases u <;> cases p <;> rfl

end Flags

/-- Why a store refuses a record. -/
inductive StoreError where
  /-- The ledger has no room for so many bytes more. -/
  | allocation (requested allocated limit : Nat)
  /-- The record cannot be stated on the wire. -/
  | wire (cause : Wire.Error)
  deriving DecidableEq, Repr

/-- The wording of an error. -/
def StoreError.message : StoreError → String
  | allocation requested allocated limit =>
    s!"allocation of {requested} bytes refused ({allocated}/{limit} in use)"
  | wire cause => "wire error: " ++ cause.message

/-- A key, what is known about it, and the marks on that knowledge. -/
structure Record where
  key : Bytes
  value : Bytes
  flags : Flags := {}
  deriving DecidableEq, Repr

namespace Record

/-- A record without marks, refused if its key and value together are too long for the wire. -/
def make (key value : Bytes) : Except StoreError Record :=
  match Wire.checkLengths key.length value.length with
  | .ok () => .ok { key, value }
  | .error cause => .error (.wire cause)

/-- A record of zero bytes with the given lengths. -/
def zeroed (keyLength valueLength : Nat) : Except StoreError Record :=
  match Wire.checkLengths keyLength valueLength with
  | .ok () => .ok { key := List.replicate keyLength 0, value := List.replicate valueLength 0 }
  | .error cause => .error (.wire cause)

/-- A record made from a wire entry. -/
def ofEntry (entry : Wire.Entry) : Except StoreError Record := make entry.key entry.value

/-- The record as the wire carries it: without marks. -/
def entry (r : Record) : Wire.Entry := ⟨r.key, r.value⟩

/-- The bytes of key and value together. -/
def length (r : Record) : Nat := r.key.length + r.value.length

/-- Whether key and value are both empty. -/
def isEmpty (r : Record) : Bool := r.length == 0

/-- The bytes that the record costs while it is stored. -/
def footprint (r : Record) : Nat := recordOverhead + r.length

/-- The bytes that some records cost while they are stored. -/
def footprints : List Record → Nat
  | [] => 0
  | r :: rest => r.footprint + footprints rest

/-- Whether the record is about exactly this key. -/
def about (r : Record) (key : Bytes) : Bool := r.key == key

/-- The record with these marks too. -/
def mark (r : Record) (flags : Flags) : Record := { r with flags := r.flags.union flags }

/-- The record without these marks. -/
def unmark (r : Record) (flags : Flags) : Record := { r with flags := r.flags.diff flags }

/-- The record marked urgent. -/
def urgent (r : Record) : Record := r.mark .urgentOnly

/-- Whether the record bears one of these marks. -/
def bears (r : Record) (flags : Flags) : Bool := r.flags.intersects flags

/-- Whether the record is to be sent ahead of the schedule. -/
def isUrgent (r : Record) : Bool := r.flags.urgent

/-- Whether the record is on its way in a frame. -/
def isPending (r : Record) : Bool := r.flags.pending

/-- Whether a flush may take the record: it is not on its way already and, for an urgent flush, it
is urgent. -/
def eligible (urgentOnly : Bool) (r : Record) : Bool :=
  !r.isPending && (!urgentOnly || r.isUrgent)

/-- Put as much of `bytes` over the front of the key as the key has places for. -/
def overwriteKey (r : Record) (bytes : Bytes) : Record := { r with key := r.key.overwrite bytes }

/-- Put as much of `bytes` over the front of the value as the value has places for. -/
def overwriteValue (r : Record) (bytes : Bytes) : Record :=
  { r with value := r.value.overwrite bytes }

/-- A record is made exactly if its key and value together have at most 255 bytes. -/
theorem make_eq_ok_iff (key value : Bytes) (r : Record) :
    make key value = .ok r ↔
      key.length + value.length ≤ Wire.maxFieldLength ∧ r = { key, value } := by
  unfold make Wire.checkLengths
  split
  · next h =>
    split at h
    · simp at h
    · simp [eq_comm]; omega
  · next h =>
    split at h
    · simp; omega
    · simp at h

/-- Marking a record keeps its entry. -/
@[simp] theorem entry_mark (r : Record) (flags : Flags) : (r.mark flags).entry = r.entry := rfl

/-- Taking a mark back keeps the entry. -/
@[simp] theorem entry_unmark (r : Record) (flags : Flags) : (r.unmark flags).entry = r.entry := rfl

/-- Marking a record keeps what it costs. -/
@[simp] theorem footprint_mark (r : Record) (flags : Flags) :
    (r.mark flags).footprint = r.footprint := rfl

/-- Taking a mark back keeps what a record costs. -/
@[simp] theorem footprint_unmark (r : Record) (flags : Flags) :
    (r.unmark flags).footprint = r.footprint := rfl

/-- What a record costs depends on its entry. -/
theorem footprint_congr {r other : Record} (same : other.entry = r.entry) :
    other.footprint = r.footprint := by
  rw [entry, entry, Wire.Entry.mk.injEq] at same
  rw [footprint, footprint, length, length, same.1, same.2]

/-- Marks cost nothing. -/
theorem footprints_congr {records others : List Record}
    (same : others.map entry = records.map entry) : footprints others = footprints records := by
  induction others generalizing records with
  | nil =>
    obtain rfl := List.map_eq_nil_iff.1 same.symm
    rfl
  | cons other rest ih =>
    obtain ⟨r, tail, rfl, first, others⟩ := List.map_eq_cons_iff.1 same.symm
    rw [footprints, footprints, footprint_congr first.symm, ih others.symm]

end Record

end CollectionTree
