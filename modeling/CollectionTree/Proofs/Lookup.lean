import CollectionTree.Table

/-!
# Looking things up in tables

What `get?` finds after a change, by key instead of by rank, and what the entries have to do with
it.
-/

namespace CollectionTree
namespace Table

variable {κ ν : Type} [Ranked κ]

/-- Keys of one rank are the same key. -/
theorem rank_inj {a b : κ} : Ranked.rank a = Ranked.rank b ↔ a = b :=
  ⟨Ranked.eq_of_rank, congrArg Ranked.rank⟩

/-- What was inserted is found. -/
@[simp] theorem get?_insert_self (t : Table κ ν) (key : κ) (value : ν) :
    (t.insert key value).get? key = some value := by
  simp [get?_insert]

/-- Inserting keeps what is found under other keys. -/
theorem get?_insert_of_ne (t : Table κ ν) {key other : κ} (h : other ≠ key) (value : ν) :
    (t.insert key value).get? other = t.get? other := by
  rw [get?_insert, if_neg fun same ↦ h (rank_inj.1 same).symm]

/-- What holds of the value put in and of all others holds of all values afterwards. -/
theorem forall_get?_insert {t : Table κ ν} {key : κ} {value : ν} {P : κ → ν → Prop}
    (here : P key value) (elsewhere : ∀ k v, k ≠ key → t.get? k = some v → P k v) :
    ∀ k v, (t.insert key value).get? k = some v → P k v := by
  intro k v found
  by_cases same : k = key
  · subst same
    rw [get?_insert_self] at found
    obtain rfl := Option.some.inj found
    exact here
  · rw [get?_insert_of_ne t same] at found
    exact elsewhere k v same found

/-- A key that has a value keeps one. -/
theorem isSome_get?_insert {t : Table κ ν} {k : κ} (there : (t.get? k).isSome) (key : κ)
    (value : ν) : ((t.insert key value).get? k).isSome := by
  by_cases same : k = key
  · subst same
    rw [get?_insert_self]
    rfl
  · rwa [get?_insert_of_ne t same]

/-- Modifying changes what is found under the key, and puts nothing where nothing was. -/
theorem get?_modify_self (t : Table κ ν) (key : κ) (change : ν → ν) :
    (t.modify key change).get? key = (t.get? key).map change := by
  simp [get?_modify]

/-- Modifying keeps what is found under other keys. -/
theorem get?_modify_of_ne (t : Table κ ν) {key other : κ} (h : other ≠ key) (change : ν → ν) :
    (t.modify key change).get? other = t.get? other := by
  rw [get?_modify, if_neg fun same ↦ h (rank_inj.1 same)]

/-! ## Entries -/

/-- The entries are listed in ascending order. -/
def Ascending (entries : List (κ × ν)) : Prop :=
  entries.Pairwise fun a b ↦ Ranked.rank a.1 < Ranked.rank b.1

/-- Nothing is found in an empty list. -/
@[simp] theorem lookup_nil (key : κ) : lookup key ([] : List (κ × ν)) = none := rfl

/-- The entry in front is found first. -/
@[simp] theorem lookup_cons_self (key : κ) (value : ν) (rest : List (κ × ν)) :
    lookup key ((key, value) :: rest) = some value := by
  simp [lookup]

/-- The search goes past an entry with another key. -/
theorem lookup_cons_of_ne {key other : κ} (h : other ≠ key) (value : ν) (rest : List (κ × ν)) :
    lookup other ((key, value) :: rest) = lookup other rest := by
  rw [lookup, if_neg fun same ↦ h (rank_inj.1 same).symm]

/-- What is found was listed under its key. -/
theorem mem_of_lookup {key : κ} {value : ν} {entries : List (κ × ν)}
    (h : lookup key entries = some value) : (key, value) ∈ entries := by
  induction entries with
  | nil => cases h
  | cons head rest ih =>
    obtain ⟨k, v⟩ := head
    by_cases same : key = k
    · subst same
      rw [lookup_cons_self] at h
      rw [Option.some.inj h]
      exact List.mem_cons_self
    · rw [lookup_cons_of_ne same] at h
      exact List.mem_cons_of_mem _ (ih h)

/-- The key of the first of ascending entries is not found among the others. -/
theorem Ascending.lookup_tail {key : κ} {value : ν} {rest : List (κ × ν)}
    (h : Ascending ((key, value) :: rest)) : lookup key rest = none := by
  cases found : lookup key rest with
  | none => rfl
  | some other =>
    have below := (List.pairwise_cons.1 h).1 _ (mem_of_lookup found)
    exact absurd below (Nat.lt_irrefl _)

/-- A key below the first of ascending entries is not found among them. -/
theorem Ascending.lookup_of_lt {key : κ} {head : κ × ν} {rest : List (κ × ν)}
    (h : Ascending (head :: rest)) (below : Ranked.rank key < Ranked.rank head.1) :
    lookup key (head :: rest) = none := by
  cases found : lookup key (head :: rest) with
  | none => rfl
  | some value =>
    rcases List.mem_cons.1 (mem_of_lookup found) with rfl | later
    · exact absurd below (Nat.lt_irrefl _)
    · have above := (List.pairwise_cons.1 h).1 _ later
      exact absurd (Nat.lt_trans below above) (Nat.lt_irrefl _)

/-- What follows the first entry of an ascending list ascends too. -/
theorem Ascending.tail {head : κ × ν} {rest : List (κ × ν)} (h : Ascending (head :: rest)) :
    Ascending rest :=
  (List.pairwise_cons.1 h).2

private theorem Ascending.lookup_of_mem {key : κ} {value : ν} {entries : List (κ × ν)}
    (h : Ascending entries) (mem : (key, value) ∈ entries) : lookup key entries = some value := by
  induction entries with
  | nil => cases mem
  | cons head rest ih =>
    obtain ⟨k, v⟩ := head
    rcases List.mem_cons.1 mem with same | later
    · obtain ⟨rfl, rfl⟩ := Prod.mk.inj same
      exact lookup_cons_self ..
    · have found := ih h.tail later
      have other : key ≠ k := by
        rintro rfl
        rw [h.lookup_tail] at found
        cases found
      rwa [lookup_cons_of_ne other]

/-- Every entry of a table is found under its key. -/
theorem get?_of_mem (t : Table κ ν) {key : κ} {value : ν} (mem : (key, value) ∈ t.entries) :
    t.get? key = some value :=
  Ascending.lookup_of_mem t.ascending mem

/-- The keys of a table are those under which something is found. -/
theorem mem_keys_iff {t : Table κ ν} {key : κ} : key ∈ t.keys ↔ t.contains key = true := by
  rw [contains, Option.isSome_iff_exists]
  constructor
  · intro mem
    obtain ⟨e, he, rfl⟩ := List.mem_map.1 mem
    exact ⟨e.2, t.get?_of_mem he⟩
  · rintro ⟨value, found⟩
    exact List.mem_map.2 ⟨(key, value), mem_of_lookup found, rfl⟩

/-- Inserting adds one key at most. -/
theorem mem_keys_insert {t : Table κ ν} {key other : κ} {value : ν} :
    other ∈ (t.insert key value).keys ↔ other = key ∨ other ∈ t.keys := by
  rw [mem_keys_iff, mem_keys_iff, contains, contains]
  by_cases same : other = key
  · subst same
    simp
  · rw [get?_insert_of_ne t same]
    simp [same]

/-- A table lists its keys in ascending order. -/
theorem pairwise_keys (t : Table κ ν) :
    t.keys.Pairwise fun a b ↦ Ranked.rank a < Ranked.rank b := by
  rw [keys, List.pairwise_map]
  exact t.ascending

/-- The entries of a table are exactly what is found in it. -/
theorem mem_entries_iff {t : Table κ ν} {key : κ} {value : ν} :
    (key, value) ∈ t.entries ↔ t.get? key = some value :=
  ⟨t.get?_of_mem, mem_of_lookup⟩

/-- Tables that find the same are equal. -/
theorem ext_get? {s t : Table κ ν} (h : ∀ key, s.get? key = t.get? key) : s = t := by
  have nodup (t : Table κ ν) : t.entries.Nodup :=
    t.ascending.imp fun {a b} below same ↦ by
      subst same
      exact Nat.lt_irrefl _ below
  have perm : s.entries.Perm t.entries := by
    rw [List.perm_ext_iff_of_nodup (nodup s) (nodup t)]
    rintro ⟨key, value⟩
    rw [mem_entries_iff, mem_entries_iff, h]
  apply Table.ext
  refine perm.eq_of_pairwise (fun a b _ _ below above ↦ ?_) s.ascending t.ascending
  exact absurd (Nat.lt_trans below above) (Nat.lt_irrefl _)

/-- No key is listed twice. -/
theorem nodup_keys (t : Table κ ν) : t.keys.Nodup :=
  List.pairwise_map.2 (t.ascending.imp fun {a b} below same ↦ by
    rw [same] at below
    exact Nat.lt_irrefl _ below)

/-- Of two values for one key the later one counts. -/
theorem insert_insert (t : Table κ ν) (key : κ) (old value : ν) :
    (t.insert key old).insert key value = t.insert key value := by
  apply ext_get?
  intro k
  by_cases own : k = key
  · subst own
    rw [get?_insert_self, get?_insert_self]
  · rw [get?_insert_of_ne _ own, get?_insert_of_ne _ own, get?_insert_of_ne _ own]

private theorem perm_place {key : κ} {entries : List (κ × ν)} (absent : lookup key entries = none)
    (value : ν) : (place key value entries).Perm ((key, value) :: entries) := by
  induction entries with
  | nil => exact .refl _
  | cons head rest ih =>
    obtain ⟨k, v⟩ := head
    have other : key ≠ k := by
      rintro rfl
      rw [lookup_cons_self] at absent
      cases absent
    rw [lookup_cons_of_ne other] at absent
    rw [place]
    split
    · exact .refl _
    · rw [if_neg fun same ↦ other (rank_inj.1 same)]
      exact ((ih absent).cons (k, v)).trans (.swap ..)

/-- The entries with a new key are those from before and the new one. -/
theorem perm_entries_insert {t : Table κ ν} {key : κ} (absent : t.get? key = none) (value : ν) :
    (t.insert key value).entries.Perm ((key, value) :: t.entries) :=
  perm_place absent value

private theorem Ascending.perm_filter {entries : List (κ × ν)} (h : Ascending entries) (key : κ) :
    entries.Perm (((lookup key entries).toList.map fun v ↦ (key, v)) ++
      entries.filter fun e ↦ Ranked.rank e.1 != Ranked.rank key) := by
  induction entries with
  | nil => exact .refl _
  | cons head rest ih =>
    obtain ⟨k, v⟩ := head
    have later := ih h.tail
    by_cases same : key = k
    · subst same
      rw [h.lookup_tail] at later
      rw [lookup_cons_self, List.filter_cons_of_neg (by simp)]
      exact later.cons (key, v)
    · have kept : Ranked.rank k ≠ Ranked.rank key := fun ranks ↦ same (rank_inj.1 ranks).symm
      rw [lookup_cons_of_ne same, List.filter_cons_of_pos (by simpa using kept)]
      exact (later.cons (k, v)).trans List.perm_middle.symm

/-- The entries are those that an erasure leaves and the one that it takes out. -/
theorem perm_entries_erase (t : Table κ ν) (key : κ) :
    t.entries.Perm (((t.get? key).toList.map fun v ↦ (key, v)) ++ (t.erase key).entries) :=
  Ascending.perm_filter t.ascending key

/-! ## Modified values -/

/-- Modifying what is not there changes nothing. -/
theorem modify_of_absent {t : Table κ ν} {key : κ} (absent : t.get? key = none)
    (change : ν → ν) : t.modify key change = t := by
  apply Table.ext
  have same : ∀ e ∈ t.entries,
      (e.1, if Ranked.rank e.1 = Ranked.rank key then change e.2 else e.2) = e := by
    intro e he
    rw [if_neg]
    intro ranks
    have found := t.get?_of_mem he
    rw [rank_inj.1 ranks, absent] at found
    cases found
  exact (List.map_congr_left same).trans (List.map_id _)

/-- Changing a value that is there puts the changed one into its place. -/
theorem modify_of_present {t : Table κ ν} {key : κ} {value : ν} (present : t.get? key = some value)
    (change : ν → ν) : t.modify key change = t.insert key (change value) := by
  apply Table.ext
  have from' {entries : List (κ × ν)} (ascending : Ascending entries)
      (found : lookup key entries = some value) :
      entries.map (fun e ↦
        (e.1, if Ranked.rank e.1 = Ranked.rank key then change e.2 else e.2)) =
        place key (change value) entries := by
    induction entries with
    | nil => cases found
    | cons head rest ih =>
      obtain ⟨k, v⟩ := head
      by_cases same : key = k
      · subst same
        rw [lookup_cons_self] at found
        obtain rfl := Option.some.inj found
        have others : ∀ e ∈ rest,
            (e.1, if Ranked.rank e.1 = Ranked.rank key then change e.2 else e.2) = e := by
          intro e he
          have behind := (List.pairwise_cons.1 ascending).1 e he
          rw [if_neg (Nat.ne_of_gt behind)]
        rw [place, if_neg (Nat.lt_irrefl _), if_pos rfl, List.map_cons, if_pos rfl,
          List.map_congr_left others, List.map_id']
      · rw [lookup_cons_of_ne same] at found
        have behind := (List.pairwise_cons.1 ascending).1 _ (mem_of_lookup found)
        rw [place, if_neg (Nat.lt_asymm behind), if_neg (Nat.ne_of_gt behind), List.map_cons,
          if_neg (Nat.ne_of_lt behind), ih ascending.tail found]
  exact from' t.ascending present

end Table
end CollectionTree
