/-!
# Tables in ascending order

A table maps keys to values and lists its entries in ascending order of their keys' rank. Addresses,
sightings and the rows collected at the sink are all kept this way, so that whatever is reported is
reported in one order.

The main statements say what each operation does to `get?`.
-/

namespace CollectionTree

/-- A type whose values are ordered by a number that tells them apart. -/
class Ranked (κ : Type) where
  rank : κ → Nat
  eq_of_rank : ∀ {a b : κ}, rank a = rank b → a = b

open Ranked (rank)

/-- A finite map whose entries are listed in ascending order of rank, each key once. -/
structure Table (κ ν : Type) [Ranked κ] where
  entries : List (κ × ν) := []
  ascending : entries.Pairwise (fun a b ↦ rank a.1 < rank b.1) := by exact .nil

namespace Table

variable {κ ν : Type} [Ranked κ]

/-- No entries. -/
def empty : Table κ ν := {}

instance : Inhabited (Table κ ν) := ⟨empty⟩

/-- Tables with the same entries are the same. -/
@[ext] theorem ext {s t : Table κ ν} (h : s.entries = t.entries) : s = t := by
  cases s
  cases t
  simp_all

instance [DecidableEq κ] [DecidableEq ν] : DecidableEq (Table κ ν) := fun s t ↦
  decidable_of_iff (s.entries = t.entries) ⟨ext, congrArg entries⟩

/-- The keys in ascending order. -/
def keys (t : Table κ ν) : List κ := t.entries.map Prod.fst

/-- The values in the order of their keys. -/
def values (t : Table κ ν) : List ν := t.entries.map Prod.snd

/-- The number of entries. -/
def size (t : Table κ ν) : Nat := t.entries.length

/-- The value of a key in some entries. -/
def lookup (key : κ) : List (κ × ν) → Option ν
  | [] => none
  | (k, v) :: rest => if rank k = rank key then some v else lookup key rest

/-- The value of a key, if it has one. -/
def get? (t : Table κ ν) (key : κ) : Option ν := lookup key t.entries

/-- Whether the key has a value. -/
def contains (t : Table κ ν) (key : κ) : Bool := (t.get? key).isSome

/-- Put a value for a key into entries in ascending order, replacing the one that is there. -/
def place (key : κ) (value : ν) : List (κ × ν) → List (κ × ν)
  | [] => [(key, value)]
  | (k, v) :: rest =>
    if rank key < rank k then (key, value) :: (k, v) :: rest
    else if rank key = rank k then (key, value) :: rest
    else (k, v) :: place key value rest

private theorem mem_place {key : κ} {value : ν} {entries : List (κ × ν)} {e : κ × ν}
    (h : e ∈ place key value entries) : e = (key, value) ∨ e ∈ entries := by
  induction entries with
  | nil => simp_all [place]
  | cons head rest ih =>
    simp only [place] at h
    split at h
    · simpa using h
    · split at h <;> simp at h ⊢ <;> grind

private theorem pairwise_place {key : κ} {value : ν} {entries : List (κ × ν)}
    (h : entries.Pairwise (fun a b ↦ rank a.1 < rank b.1)) :
    (place key value entries).Pairwise (fun a b ↦ rank a.1 < rank b.1) := by
  induction entries with
  | nil => simp [place]
  | cons head rest ih =>
    rw [List.pairwise_cons] at h
    simp only [place]
    split
    · next hlt =>
      rw [List.pairwise_cons, List.pairwise_cons]
      refine ⟨fun e he ↦ ?_, h⟩
      rcases List.mem_cons.1 he with rfl | he
      · exact hlt
      · exact Nat.lt_trans hlt (h.1 e he)
    · split
      · next heq =>
        rw [List.pairwise_cons]
        exact ⟨fun e he ↦ heq ▸ h.1 e he, h.2⟩
      · next hlt hne =>
        rw [List.pairwise_cons]
        refine ⟨fun e he ↦ ?_, ih h.2⟩
        rcases mem_place he with rfl | he
        · exact Nat.lt_of_le_of_ne (Nat.le_of_not_lt hlt) (Ne.symm hne)
        · exact h.1 e he

/-- The table with this value for the key. -/
def insert (t : Table κ ν) (key : κ) (value : ν) : Table κ ν :=
  ⟨place key value t.entries, pairwise_place t.ascending⟩

/-- The table without a value for the key. -/
def erase (t : Table κ ν) (key : κ) : Table κ ν :=
  ⟨t.entries.filter fun e ↦ rank e.1 != rank key, t.ascending.sublist List.filter_sublist⟩

/-- The table with every value changed. -/
def mapValues (t : Table κ ν) (change : κ → ν → ν) : Table κ ν :=
  ⟨t.entries.map fun e ↦ (e.1, change e.1 e.2), by
    rw [List.pairwise_map]
    exact t.ascending⟩

/-- The table with the key's value changed, if it has one. -/
def modify (t : Table κ ν) (key : κ) (change : ν → ν) : Table κ ν :=
  t.mapValues fun k v ↦ if rank k = rank key then change v else v

/-- The table with the key's value changed, starting from `start` if it has none. -/
def alter (t : Table κ ν) (key : κ) (start : ν) (change : ν → ν) : Table κ ν :=
  t.insert key (change ((t.get? key).getD start))

private theorem lookup_place (key key' : κ) (value : ν) (entries : List (κ × ν)) :
    lookup key' (place key value entries) =
      if rank key = rank key' then some value else lookup key' entries := by
  induction entries with
  | nil => simp [place, lookup]
  | cons head rest ih =>
    simp only [place]
    split
    · simp [lookup]
    · split <;> simp only [lookup] <;> grind

private theorem lookup_filter (key key' : κ) (entries : List (κ × ν)) :
    lookup key' (entries.filter fun e ↦ rank e.1 != rank key) =
      if rank key = rank key' then none else lookup key' entries := by
  induction entries with
  | nil => simp [lookup]
  | cons head rest ih =>
    rw [List.filter_cons]
    by_cases removed : rank head.1 = rank key
    · rw [if_neg (by simpa using removed), ih, lookup, removed]
      split <;> rfl
    · rw [if_pos (by simpa using removed), lookup, lookup, ih]
      split
      · next here => rw [if_neg fun same ↦ removed (here.trans same.symm)]
      · rfl

private theorem lookup_map (key : κ) (change : κ → ν → ν) (entries : List (κ × ν)) :
    lookup key (entries.map fun e ↦ (e.1, change e.1 e.2)) =
      (lookup key entries).map (change key) := by
  induction entries with
  | nil => simp [lookup]
  | cons head rest ih =>
    simp only [List.map_cons, lookup]
    split
    · next h => simp [Ranked.eq_of_rank h]
    · exact ih

/-- Nothing is found in an empty table. -/
@[simp] theorem get?_empty (key : κ) : (empty : Table κ ν).get? key = none := rfl

/-- A key's value after an insertion: the new one for the key inserted, the old one for any other.
-/
theorem get?_insert (t : Table κ ν) (key key' : κ) (value : ν) :
    (t.insert key value).get? key' = if rank key = rank key' then some value else t.get? key' :=
  lookup_place key key' value t.entries

/-- A key's value after an erasure: none for the key erased, the old one for any other. -/
theorem get?_erase (t : Table κ ν) (key key' : κ) :
    (t.erase key).get? key' = if rank key = rank key' then none else t.get? key' :=
  lookup_filter key key' t.entries

private theorem get?_mapValues (t : Table κ ν) (change : κ → ν → ν) (key : κ) :
    (t.mapValues change).get? key = (t.get? key).map (change key) :=
  lookup_map key change t.entries

/-- A key's value after a modification: the changed one for the key named, the old one otherwise. -/
theorem get?_modify (t : Table κ ν) (key key' : κ) (change : ν → ν) :
    (t.modify key change).get? key' =
      if rank key' = rank key then (t.get? key').map change else t.get? key' := by
  rw [modify, get?_mapValues]
  split <;> simp

/-- Changing values keeps the keys. -/
@[simp] theorem keys_mapValues (t : Table κ ν) (change : κ → ν → ν) :
    (t.mapValues change).keys = t.keys := by
  simp [keys, mapValues, Function.comp_def]

/-- Modifying a value keeps the keys. -/
@[simp] theorem keys_modify (t : Table κ ν) (key : κ) (change : ν → ν) :
    (t.modify key change).keys = t.keys := keys_mapValues ..

end Table

/-- A finite set listed in ascending order of rank. -/
abbrev OrderedSet (κ : Type) [Ranked κ] : Type := Table κ Unit

/-- The set with this element. -/
def OrderedSet.add {κ : Type} [Ranked κ] (s : OrderedSet κ) (key : κ) : OrderedSet κ :=
  s.insert key ()

end CollectionTree
