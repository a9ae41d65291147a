import CollectionTree.Proofs.Node.Depot

/-!
# What nodes do in a depot

Binding, unbinding and closing in a depot are those of the nodes, as long as the accumulators that
are bound to a node are there and charged to its ledger: `nodeIn_bind`, `nodeIn_unbind` and
`nodeIn_close`. They are, as long as nothing moves the charge of a bound accumulator: `regular_run`.
-/

namespace CollectionTree

namespace Holder

/-- The accumulators bound to a node are there, each once, and are charged to its ledger. -/
structure Regular (holder : Holder) (pool : Pool) : Prop where
  nodup : holder.bound.Nodup
  inside : holder.account < pool.ledgers.length
  charged : ∀ place ∈ holder.bound, pool.ChargedTo place holder.account

variable {holder : Holder} {pool : Pool} {place : Nat} {m : Member}

/-- A node takes an accumulator in, or refuses it, as the depot lets it. -/
theorem nodeIn_bind (apart : place ∉ holder.bound) (inside : holder.account < pool.ledgers.length)
    (present : pool.member? place = some m) :
    (holder.nodeIn (pool.vacate place m)).bind m.acc =
      ((holder.nodeIn pool).bind m.acc).map fun _ ↦
        { holder with bound := holder.bound ++ [place] }.nodeIn
          ((pool.attach place holder.account).getD pool) := by
  have same :
      holder.bound.filterMap (pool.vacate place m).acc? = holder.bound.filterMap pool.acc? := by
    apply List.filterMap_congr
    intro other mem
    have different : other ≠ place := fun same ↦ apart (same ▸ mem)
    rw [Pool.acc?_vacate present, if_neg different]
  have known : holder.account < (pool.vacate place m).ledgers.length :=
    (pool.length_ledgers_release m).symm ▸ inside
  have here : pool.acc? place = some m.acc := by simp [Pool.acc?, present]
  have accs := Pool.acc?_move present (.shared holder.account)
  rw [← Pool.attach] at accs
  have ledger : ((pool.attach place holder.account).getD pool).ledgerOf (.shared holder.account) =
      ((pool.vacate place m).ledgerOf (.shared holder.account)).forceCharge m.acc.footprint := by
    rw [Pool.attach, Pool.move_eq present]
    simp [Pool.setStore, Pool.ledgerOf, Store.attach, known]
  simp only [Node.bind, Node.accumulator?, nodeIn, same]
  by_cases closed : holder.node.closed
  · simp only [closed, if_true]
    rfl
  · by_cases known : ((holder.bound.filterMap pool.acc?).find? (·.id == m.acc.id)).isSome
    · simp only [closed, known, Bool.false_eq_true, if_true, if_false]
      rfl
    · simp only [closed, known, Bool.false_eq_true, if_false, accs, ledger, Except.map,
        List.filterMap_append, List.filterMap_cons, here, List.filterMap_nil]

private theorem accumulator?_nodeIn (holder : Holder) (pool : Pool) (id : UInt8) :
    (holder.nodeIn pool).accumulator? id = (holder.placeOf? pool id).bind pool.acc? := by
  simp only [Node.accumulator?, nodeIn, placeOf?, List.find?_filterMap]

private theorem eraseP_eq_erase {places : List Nat} {p : Nat → Bool}
    (first : places.find? p = some place) :
    places.eraseP p = places.erase place := by
  induction places with
  | nil => rfl
  | cons other rest ih =>
    cases fits : p other with
    | true =>
      obtain rfl : other = place := by simpa [fits] using first
      simp [fits]
    | false =>
      have different : other ≠ place := by
        rintro rfl
        have holds := List.find?_some first
        simp [fits] at holds
      rw [List.find?_cons, fits] at first
      rw [List.eraseP_cons_of_neg (by simp [fits]), List.erase_cons_tail (by simp [different]),
        ih first]

/-- A node hands an accumulator back as the depot takes it back. -/
theorem nodeIn_unbind (regular : holder.Regular pool) (id : UInt8) :
    (holder.nodeIn pool).unbind id = (holder.placeOf? pool id).bind fun place ↦
      (pool.acc? place).map fun acc ↦
        (acc, { holder with bound := holder.bound.erase place }.nodeIn
          ((pool.detach place).getD pool)) := by
  rw [Node.unbind, accumulator?_nodeIn]
  cases found : holder.placeOf? pool id with
  | none => rfl
  | some place =>
    obtain ⟨m, present, charge⟩ := regular.charged place (List.mem_of_find?_eq_some found)
    have here : pool.acc? place = some m.acc := by simp [Pool.acc?, present]
    have accs := Pool.acc?_move present (.own {})
    rw [← Pool.detach] at accs
    have ledger : ((pool.detach place).getD pool).ledgerOf (.shared holder.account) =
        (pool.ledgerOf (.shared holder.account)).refund m.acc.footprint := by
      rw [Pool.detach, Pool.move_eq present]
      simp [Pool.setStore, Pool.ledgerOf, Pool.vacate, Pool.getElem?_ledgers_release, charge,
        regular.inside]
    have rest : (holder.bound.filterMap pool.acc?).eraseP (·.id == id) =
        (holder.bound.erase place).filterMap pool.acc? := by
      rw [List.eraseP_filterMap, ← eraseP_eq_erase found]
      rfl
    simp [here, nodeIn, accs, ledger, rest]

/-- Accumulators that share a ledger are cleaned up in turn as in the pool. -/
theorem runEach_cleanup {account : Nat} {places : List Nat} (nodup : places.Nodup)
    (inside : account < pool.ledgers.length)
    (charged : ∀ place ∈ places, pool.ChargedTo place account)
    (flags : Flags) (counters : Counters) :
    let last := places.foldl (fun pool place ↦ pool.serveAt place (.cleanup flags)) pool
    Node.runEach (fun store ↦ (store.cleanup flags).2) (pool.ledgerOf (.shared account)) counters
        (places.filterMap pool.acc?) =
      (places.filterMap last.acc?, last.ledgerOf (.shared account), counters) ∧
    ∀ other, other ∉ places → last.acc? other = pool.acc? other := by
  induction places generalizing pool with
  | nil => exact ⟨rfl, fun _ _ ↦ rfl⟩
  | cons place rest ih =>
    obtain ⟨m, present, charge⟩ := charged place List.mem_cons_self
    obtain ⟨apart, nodup⟩ := List.nodup_cons.1 nodup
    have different : ∀ other ∈ rest, other ≠ place := fun other mem same ↦ apart (same ▸ mem)
    have here : pool.acc? place = some m.acc := by simp [Pool.acc?, present]
    have inside' := Pool.inside_of_member? present
    obtain ⟨after, ledger, known⟩ := Pool.serveAt_of_shared present charge inside (.cleanup flags)
    rw [List.foldl_cons]
    generalize pool.serveAt place (.cleanup flags) = next at after ledger known ⊢
    have accs := Pool.acc?_setStore pool inside' (.shared account)
      ((pool.store m).serve (.cleanup flags))
    rw [← after] at accs
    have later : ∀ other ∈ rest, next.ChargedTo other account := by
      intro other mem
      rw [after]
      exact Pool.chargedTo_setStore inside' (fun _ ↦ rfl)
        fun _ ↦ charged other (List.mem_cons_of_mem place mem)
    obtain ⟨others, kept⟩ := ih nodup known later
    constructor
    · have waiting : rest.filterMap pool.acc? = rest.filterMap next.acc? := by
        apply List.filterMap_congr
        intro other mem
        rw [accs, if_neg (different other mem)]
      have mine := (kept place apart).trans ((accs place).trans (if_pos rfl))
      have found : pool.ledgerOf (.shared account) = (pool.store m).ledger := by
        rw [Pool.store, charge]
      have turn : (Store.cleanup ⟨m.acc, pool.ledgerOf (.shared account), counters⟩ flags).2 =
          { (pool.store m).serve (.cleanup flags) with counters } := by
        rw [found]
        rfl
      rw [List.filterMap_cons_some here, List.filterMap_cons_some mine, waiting, Node.runEach]
      simp only [turn, ← ledger, others]
    · intro other mem
      rw [List.mem_cons, not_or] at mem
      rw [kept other mem.2, accs, if_neg mem.1]

/-- A node is closed as the depot closes it. -/
theorem nodeIn_close (regular : holder.Regular pool) (opened : holder.node.closed = false) :
    (holder.nodeIn pool).close.state =
      { holder with node := { holder.node with closed := true } }.nodeIn
        (holder.bound.foldl (fun pool place ↦ pool.serveAt place (.cleanup .all)) pool) := by
  have each := (runEach_cleanup regular.nodup regular.inside regular.charged .all
    holder.node.counters).1
  simp only [Node.close, nodeIn, opened, Node.cleanup, Node.onEach, each]
  rfl

private theorem Regular.mono {pool' : Pool} (h : holder.Regular pool)
    (length : pool'.ledgers.length = pool.ledgers.length)
    (kept : ∀ place ∈ holder.bound, pool.ChargedTo place holder.account →
      pool'.ChargedTo place holder.account) : holder.Regular pool' :=
  ⟨h.nodup, length ▸ h.inside, fun place mem ↦ kept place mem (h.charged place mem)⟩

end Holder

namespace Depot

/-! ## Runs -/

/-- Every node is regular, and no accumulator is bound to two of them. -/
structure Orderly (d : Depot) : Prop where
  regular : ∀ (number : Nat) (holder : Holder), d.holders[number]? = some holder →
    holder.Regular d.pool
  single : ∀ (i j : Nat) (a b : Holder), d.holders[i]? = some a → d.holders[j]? = some b →
    ∀ place ∈ a.bound, place ∈ b.bound → i = j

/-- An act moves no charge of a bound accumulator to another ledger, unless it hands the accumulator
back. -/
def Spares (d : Depot) : Act → Prop
  | .attach place _ | .detach place => d.isBound place = false
  | .serve _ _ | .drop _ | .bind _ _ | .unbind _ _ | .close _ | .discard _ => True

/-- None of these acts in a row moves the charge of an accumulator that is bound by then. -/
def SparesAll (d : Depot) : List Act → Prop
  | [] => True
  | act :: rest => d.Spares act ∧ (d.step act).SparesAll rest

variable {d : Depot} {number place : Nat} {holder holder' : Holder} {pool : Pool}

private theorem ne_of_isBound_eq_false (free : d.isBound place = false)
    (there : d.holders[number]? = some holder) {other : Nat} (mem : other ∈ holder.bound) :
    other ≠ place := by
  rintro rfl
  rw [isBound, List.any_eq_false] at free
  exact free holder (List.mem_of_getElem? there) (List.contains_iff_mem.2 mem)

/-- What nodes do not notice keeps them orderly. -/
theorem Orderly.setPool (h : d.Orderly) (length : pool.ledgers.length = d.pool.ledgers.length)
    (kept : ∀ (number : Nat) (holder : Holder), d.holders[number]? = some holder →
      ∀ place ∈ holder.bound, d.pool.ChargedTo place holder.account →
        pool.ChargedTo place holder.account) :
    Orderly { d with pool } :=
  ⟨fun number holder there ↦ (h.regular number holder there).mono length (kept number holder there),
    h.single⟩

private theorem Orderly.setHolder (h : d.Orderly) (there : d.holders[number]? = some holder)
    (length : pool.ledgers.length = d.pool.ledgers.length) (regular : holder'.Regular pool)
    (kept : ∀ (other : Nat) (a : Holder), other ≠ number → d.holders[other]? = some a →
      ∀ place ∈ a.bound, d.pool.ChargedTo place a.account → pool.ChargedTo place a.account)
    (single : ∀ (other : Nat) (a : Holder), d.holders[other]? = some a →
      ∀ place ∈ holder'.bound, place ∈ a.bound → other = number) :
    Orderly ⟨pool, d.holders.set number holder'⟩ := by
  have inside : number < d.holders.length := (List.getElem?_eq_some_iff.1 there).1
  constructor
  · intro other a found
    by_cases same : number = other
    · subst same
      rw [List.getElem?_set_self inside] at found
      exact Option.some.inj found ▸ regular
    · rw [List.getElem?_set_ne same] at found
      exact (h.regular other a found).mono length (kept other a (Ne.symm same) found)
  · intro i j a b first second place mem mem'
    by_cases own : number = i
    · subst own
      rw [List.getElem?_set_self inside] at first
      obtain rfl := Option.some.inj first
      by_cases same : number = j
      · exact same
      · rw [List.getElem?_set_ne same] at second
        exact (single j b second place mem mem').symm
    · rw [List.getElem?_set_ne own] at first
      by_cases same : number = j
      · subst same
        rw [List.getElem?_set_self inside] at second
        obtain rfl := Option.some.inj second
        exact single i a first place mem' mem
      · rw [List.getElem?_set_ne same] at second
        exact h.single i j a b first second place mem mem'

private theorem Orderly.moveUnbound (h : d.Orderly) (free : d.isBound place = false)
    (charge : Charge) :
    Orderly { d with pool := (d.pool.move place charge).getD d.pool } := by
  apply h.setPool (d.pool.length_ledgers_move place charge)
  intro number holder there other mem charged
  exact charged.move (ne_of_isBound_eq_false free there mem) charge

private theorem Orderly.dropUnbound (h : d.Orderly) (free : d.isBound place = false) :
    Orderly { d with pool := (d.pool.drop place).getD d.pool } := by
  apply h.setPool (d.pool.length_ledgers_drop place)
  intro number holder there other mem charged
  exact charged.drop (ne_of_isBound_eq_false free there mem)

private theorem Orderly.attachUnbound (h : d.Orderly) (there : d.holders[number]? = some holder)
    (free : d.isBound place = false) {acc : Accumulator}
    (present : d.pool.acc? place = some acc) :
    Orderly ⟨(d.pool.attach place holder.account).getD d.pool,
      d.holders.set number { holder with bound := holder.bound ++ [place] }⟩ := by
  obtain ⟨m, present, -⟩ := Option.map_eq_some_iff.1 present
  have length := d.pool.length_ledgers_move place (.shared holder.account)
  have apart {other : Nat} {a : Holder} (there : d.holders[other]? = some a) {p : Nat}
      (mem : p ∈ a.bound) : p ≠ place := ne_of_isBound_eq_false free there mem
  have regular := h.regular number holder there
  apply h.setHolder there length
  · refine ⟨?_, length ▸ regular.inside, ?_⟩
    · rw [List.nodup_append]
      refine ⟨regular.nodup, List.nodup_singleton place, ?_⟩
      intro p mem q last
      rw [List.mem_singleton.1 last]
      exact apart there mem
    · intro p mem
      rcases List.mem_append.1 mem with mem | last
      · exact (regular.charged p mem).move (apart there mem) _
      · rw [List.mem_singleton.1 last]
        exact Pool.chargedTo_attach present holder.account
  · exact fun other a _ there p mem charged ↦ charged.move (apart there mem) _
  · intro other a there' p mem mem'
    rcases List.mem_append.1 mem with mem | last
    · exact h.single other number a holder there' there p mem' mem
    · exact absurd (List.mem_singleton.1 last) (apart there' mem')

private theorem Orderly.detachBound (h : d.Orderly) (there : d.holders[number]? = some holder)
    (mem : place ∈ holder.bound) : (d.takeBack number place holder).Orderly := by
  have length := d.pool.length_ledgers_move place (.own {})
  have regular := h.regular number holder there
  apply h.setHolder there length
  · refine ⟨regular.nodup.erase place, length ▸ regular.inside, ?_⟩
    intro p kept
    obtain ⟨apart, kept⟩ := regular.nodup.mem_erase_iff.1 kept
    exact (regular.charged p kept).move apart _
  · intro other a different there' p mem' charged
    apply charged.move
    rintro rfl
    exact different (h.single other number a holder there' there p mem' mem)
  · exact fun other a there' p kept mem' ↦
      h.single other number a holder there' there p mem' (List.mem_of_mem_erase kept)

/-- Operations on one place after another keep the number of ledgers and, in the places that every
one of them leaves alone, the charges. -/
private theorem foldl_keeps {operation : Pool → Nat → Pool} (apart : Nat → Nat → Prop)
    (length : ∀ pool place, (operation pool place).ledgers.length = pool.ledgers.length)
    (charged : ∀ {pool : Pool} {place other index : Nat}, apart other place →
      pool.ChargedTo other index → (operation pool place).ChargedTo other index)
    (places : List Nat) (pool : Pool) :
    (places.foldl operation pool).ledgers.length = pool.ledgers.length ∧
      ∀ other index, (∀ place ∈ places, apart other place) → pool.ChargedTo other index →
        (places.foldl operation pool).ChargedTo other index := by
  induction places generalizing pool with
  | nil => exact ⟨rfl, fun _ _ _ before ↦ before⟩
  | cons first rest ih =>
    obtain ⟨same, kept⟩ := ih (operation pool first)
    refine ⟨same.trans (length pool first), ?_⟩
    intro other index outside before
    rw [List.forall_mem_cons] at outside
    exact kept other index outside.2 (charged outside.1 before)

private theorem Orderly.cleanup (h : d.Orderly) (there : d.holders[number]? = some holder) :
    (d.shut number holder).Orderly := by
  obtain ⟨length, kept⟩ := foldl_keeps (fun _ _ ↦ True)
    (fun pool place ↦ pool.length_ledgers_serveAt place (.cleanup .all))
    (fun _ before ↦ before.serveAt _ _) holder.bound d.pool
  have charged (place index : Nat) := kept place index fun _ _ ↦ trivial
  have regular := h.regular number holder there
  apply h.setHolder there length
  · exact ⟨regular.nodup, length ▸ regular.inside,
      fun place mem ↦ charged place _ (regular.charged place mem)⟩
  · exact fun other a _ _ place _ ↦ charged place a.account
  · exact fun other a there' place mem mem' ↦
      h.single other number a holder there' there place mem' mem

private theorem Orderly.discard (h : d.Orderly) (there : d.holders[number]? = some holder) :
    (d.scrap number holder).Orderly := by
  obtain ⟨length, charged⟩ := foldl_keeps (· ≠ ·)
    (fun pool place ↦ pool.length_ledgers_drop place) (fun apart before ↦ before.drop apart)
    holder.bound d.pool
  apply h.setHolder there length
  · exact ⟨List.nodup_nil, length ▸ (h.regular number holder there).inside,
      fun place mem ↦ (List.not_mem_nil mem).elim⟩
  · intro other a different there' place mem'
    apply charged place
    rintro _ mem rfl
    exact different (h.single other number a holder there' there place mem' mem)
  · exact fun other a _ place mem ↦ (List.not_mem_nil mem).elim

private theorem Orderly.step (h : d.Orderly) {act : Act} (spares : d.Spares act) :
    (d.step act).Orderly := by
  cases act with
  | serve place request =>
    exact h.setPool (d.pool.length_ledgers_serveAt place request)
      fun _ _ _ _ _ charged ↦ charged.serveAt place request
  | attach place index =>
    simp only [Depot.step]
    split
    · exact h.moveUnbound spares _
    · exact h
  | detach place => exact h.moveUnbound spares _
  | drop place =>
    simp only [Depot.step]
    split
    · exact h
    · next free => exact h.dropUnbound (Bool.eq_false_of_not_eq_true free)
  | bind number place =>
    simp only [Depot.step]
    split
    · next holder acc there present =>
      split
      · exact h
      · next free =>
        have free := Bool.eq_false_of_not_eq_true free
        unfold give
        split
        · exact h.dropUnbound free
        · exact h.attachUnbound there free present
    · exact h
  | unbind number id =>
    simp only [Depot.step]
    split
    · exact h
    · next holder there =>
      split
      · exact h
      · next place found =>
        exact h.detachBound there (List.mem_of_find?_eq_some found)
  | close number =>
    simp only [Depot.step]
    split
    · exact h
    · next holder there =>
      split
      · exact h
      · exact h.cleanup there
  | discard number =>
    simp only [Depot.step]
    split
    · exact h
    · next holder there => exact h.discard there

private theorem Orderly.run (h : d.Orderly) {acts : List Act} (spares : d.SparesAll acts) :
    (d.run acts).Orderly := by
  induction acts generalizing d with
  | nil => exact h
  | cons act rest ih => exact ih (h.step spares.1) spares.2

private theorem Fresh.orderly (h : d.Fresh) : d.Orderly := by
  have none {number : Nat} {holder : Holder} (there : d.holders[number]? = some holder)
      (place : Nat) : place ∉ holder.bound := by
    rw [h.unbound holder (List.mem_of_getElem? there)]
    exact List.not_mem_nil
  constructor
  · intro number holder there
    refine ⟨?_, h.accounts holder (List.mem_of_getElem? there), ?_⟩
    · rw [h.unbound holder (List.mem_of_getElem? there)]
      exact List.nodup_nil
    · exact fun place mem ↦ absurd mem (none there place)
  · exact fun i j a b there _ place mem ↦ absurd mem (none there place)

/-- What is bound to a node is there, once, and charged to the node's ledger, as long as nothing
moves the charge of a bound accumulator. -/
theorem regular_run (fresh : d.Fresh) {acts : List Act} (spares : d.SparesAll acts) :
    ∀ holder ∈ (d.run acts).holders, holder.Regular (d.run acts).pool := by
  intro holder mem
  obtain ⟨number, there⟩ := List.mem_iff_getElem?.1 mem
  exact (fresh.orderly.run spares).regular number holder there

end Depot
end CollectionTree
