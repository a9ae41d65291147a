import CollectionTree.Proofs.Store.Weight
import Mathlib.Algebra.Group.WithOne.Defs

/-!
# Combining values

A job that combines values of one length by a commutative and associative operation is additive for
a weight: a value about the key in question weighs itself, every other entry nothing. So what is
known about weights turns into equalities between combinations of values (`total_under_eq`).
-/

namespace CollectionTree

/-- An operation on strings of one length that may be applied in any order and grouping. -/
structure Combines (op : Bytes → Bytes → Bytes) (width : Nat) : Prop where
  length : ∀ a b, a.length = width → b.length = width → (op a b).length = width
  comm : ∀ a b, a.length = width → b.length = width → op a b = op b a
  assoc : ∀ a b c, a.length = width → b.length = width → c.length = width →
    op (op a b) c = op a (op b c)

/-- All of some values combined; none of none. -/
def total (op : Bytes → Bytes → Bytes) : List Bytes → Option Bytes
  | [] => none
  | v :: rest =>
    match total op rest with
    | none => some v
    | some t => some (op v t)

/-- The values of the entries about a key. -/
def under (key : Bytes) (entries : List Wire.Entry) : List Bytes :=
  (entries.filter (·.key == key)).map Wire.Entry.value

/-- The values under a key come one after another. -/
@[simp] theorem under_append (key : Bytes) (entries more : List Wire.Entry) :
    under key (entries ++ more) = under key entries ++ under key more := by
  simp [under]

/-- The job keeps keys and marks, and combines values of a length that the key determines. -/
structure Job.CombinesBy (job : Job) (op : Bytes → Bytes → Bytes) (width : Bytes → Nat) :
    Prop where
  keeps : job.KeepsIdentity
  reduce : ∀ r value, r.value.length = width r.key → value.length = width r.key →
    (job.reduce r value).value = op r.value value
  combines : ∀ key, Combines op (width key)

/-- The value has the length that the key determines. -/
def Wide (width : Bytes → Nat) (entry : Wire.Entry) : Prop := entry.value.length = width entry.key

instance (width : Bytes → Nat) (entry : Wire.Entry) : Decidable (Wide width entry) :=
  inferInstanceAs (Decidable (_ = _))

/-- The strings on which an operation combines. -/
@[ext] structure Value {op : Bytes → Bytes → Bytes} {width : Nat} (h : Combines op width) where
  /-- The string. -/
  bytes : Bytes
  /-- It has the length. -/
  length_eq : bytes.length = width

instance {op : Bytes → Bytes → Bytes} {width : Nat} (h : Combines op width) :
    AddCommSemigroup (Value h) where
  add a b := ⟨op a.bytes b.bytes, h.length a.bytes b.bytes a.length_eq b.length_eq⟩
  add_assoc a b c := Value.ext
    (h.assoc a.bytes b.bytes c.bytes a.length_eq b.length_eq c.length_eq)
  add_comm a b := Value.ext (h.comm a.bytes b.bytes a.length_eq b.length_eq)

section

variable {op : Bytes → Bytes → Bytes} {width : Bytes → Nat} {key : Bytes}

/-- The weight of an entry about a key: its value, if it has the right length. -/
def weightUnder (h : Combines op (width key)) (entry : Wire.Entry) : WithZero (Value h) :=
  if wide : entry.key = key ∧ entry.value.length = width key then
    ((⟨entry.value, wide.2⟩ : Value h) : WithZero (Value h))
  else 0

/-- The string that a weight stands for. -/
def ofWeight {h : Combines op (width key)} (weight : WithZero (Value h)) : Option Bytes :=
  Option.map Value.bytes weight

private theorem ofWeight_add {h : Combines op (width key)} (v : Value h)
    (weight : WithZero (Value h)) :
    ofWeight ((v : WithZero (Value h)) + weight) = match ofWeight weight with
      | none => some v.bytes
      | some t => some (op v.bytes t) := by
  cases weight with
  | zero => rfl
  | coe w => rfl

private theorem weightUnder_of_key {h : Combines op (width key)} {entry : Wire.Entry}
    (about : entry.key = key) (wide : Wide width entry) :
    weightUnder h entry = ((⟨entry.value, about ▸ wide⟩ : Value h) : WithZero (Value h)) :=
  dif_pos ⟨about, about ▸ wide⟩

private theorem weightUnder_of_ne {h : Combines op (width key)} {entry : Wire.Entry}
    (other : entry.key ≠ key) : weightUnder h entry = 0 :=
  dif_neg fun both ↦ other both.1

/-- What entries weigh stands for the combination of their values about the key. -/
theorem ofWeight_weighEntries (h : Combines op (width key)) {entries : List Wire.Entry}
    (wide : ∀ e ∈ entries, Wide width e) :
    ofWeight (weighEntries (weightUnder h) entries) = total op (under key entries) := by
  induction entries with
  | nil => rfl
  | cons e rest ih =>
    have later := ih fun d hd ↦ wide d (by simp [hd])
    rw [weighEntries_cons]
    by_cases about : e.key = key
    · have head : under key (e :: rest) = e.value :: under key rest := by simp [under, about]
      rw [weightUnder_of_key about (wide e (by simp)), ofWeight_add, head, total, later]
    · have skip : under key (e :: rest) = under key rest := by simp [under, about]
      rw [weightUnder_of_ne about, zero_add, skip, later]

/-- Entries that weigh the same have the same values combined about the key. -/
theorem total_under_eq (h : Combines op (width key)) {entries others : List Wire.Entry}
    (wide : ∀ e ∈ entries, Wide width e) (wide' : ∀ e ∈ others, Wide width e)
    (same : weighEntries (weightUnder h) entries = weighEntries (weightUnder h) others) :
    total op (under key entries) = total op (under key others) := by
  rw [← ofWeight_weighEntries h wide, same, ofWeight_weighEntries h wide']

private theorem Job.CombinesBy.entry_reduce {job : Job} (combining : job.CombinesBy op width)
    {r : Record} {value : Bytes} (wide : Wide width r.entry) (wide' : Wide width ⟨r.key, value⟩) :
    (job.reduce r value).entry = ⟨r.key, op r.value value⟩ := by
  rw [Record.entry, (combining.keeps r value).1, combining.reduce r value wide wide']

/-- A job that combines adds up the weights under every key. -/
theorem Job.CombinesBy.additive {job : Job} (combining : job.CombinesBy op width) (key : Bytes) :
    job.Additive (Wide width) (weightUnder (combining.combines key)) where
  keeps := combining.keeps
  valid_reduce r value wide wide' := by
    rw [combining.entry_reduce wide wide']
    exact (combining.combines r.key).length r.value value wide wide'
  weight_reduce r value wide wide' := by
    have wideAfter : Wide width ⟨r.key, op r.value value⟩ :=
      (combining.combines r.key).length r.value value wide wide'
    rw [combining.entry_reduce wide wide']
    by_cases about : r.key = key
    · rw [weightUnder_of_key about wideAfter, weightUnder_of_key about wide,
        weightUnder_of_key about wide']
      rfl
    · rw [weightUnder_of_ne about, weightUnder_of_ne about, weightUnder_of_ne about, zero_add]

end
end CollectionTree
