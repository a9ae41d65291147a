import CollectionTree.Proofs.Store.Books
import CollectionTree.Proofs.Store.Requests
import CollectionTree.Store.Pool
import CollectionTree.Workload.Bytewise
import Mathlib.Algebra.Order.BigOperators.Group.List

/-!
# Who is charged for what

Every request moves the ledger of a store by as much as the cost of its records changes, and raises
it to the cap at most. A ledger with room for the new keys among some candidates refuses none of
them. In a pool, where several accumulators may be charged to one ledger, the books are exact if
every ledger holds what the accumulators charged to it cost; requests, moves from one ledger to
another and drops keep them exact.
-/

namespace CollectionTree

/-- Folding keeps the bytes of key and value together. -/
def Job.KeepsLength (job : Job) : Prop := ∀ r value, (job.reduce r value).length = r.length

/-- A job that keeps lengths keeps what a record costs. -/
theorem Job.KeepsLength.footprint_fold {job : Job} (h : job.KeepsLength) (candidate r : Record) :
    (job.fold candidate r).footprint = r.footprint := by
  have length := h r candidate.value
  rw [Record.footprint_congr (r := job.reduce r candidate.value) (Job.entry_fold ..),
    Record.footprint, length, Record.footprint]

private theorem Record.footprints_append (records more : List Record) :
    footprints (records ++ more) = footprints records + footprints more := by
  simp only [← weigh_entryCost, weigh_append]

/-- Some of the records cost at most what all cost. -/
theorem Record.footprints_le_of_sublist {part records : List Record}
    (sublist : part.Sublist records) : footprints part ≤ footprints records := by
  induction sublist with
  | slnil => exact Nat.le_refl _
  | cons r _ ih =>
    apply ih.trans
    simp [footprints]
  | cons_cons r _ ih =>
    simp only [footprints]
    omega

namespace Store

/-- The job that keeps the latest value keeps the length of values. -/
theorem keepsLength_latest : Bytewise.latest.KeepsLength := by
  intro r value
  simp [Bytewise.latest, Record.overwriteValue, Record.length]

/-! ## One store -/

/-- The ledger moved by as much as the cost of the records changed, and its cap stayed. -/
structure Accounts (store last : Store) : Prop where
  moved : last.ledger.allocated + store.toAccumulator.footprint =
    store.ledger.allocated + last.toAccumulator.footprint
  limit : last.ledger.limit = store.ledger.limit
  capped : last.ledger.allocated ≤ store.ledger.allocated ∨
    last.ledger.allocated ≤ store.ledger.cap

variable {store : Store}

/-- The ledger moves by what the first and the second step cost together. -/
theorem Accounts.trans {mid last : Store} (h : store.Accounts mid) (h' : mid.Accounts last) :
    store.Accounts last where
  moved := by
    have first := h.moved
    have second := h'.moved
    omega
  limit := h'.limit.trans h.limit
  capped := by
    have cap : mid.ledger.cap = store.ledger.cap := by rw [Ledger.cap, Ledger.cap, h.limit]
    have first := h.capped
    have second := h'.capped
    omega

/-- A candidate moves the ledger by as much as the cost of the records changes, where folding it in
changes no cost. -/
theorem accounts_emit_of_fold {candidate : Record}
    (keeps : ∀ r ∈ store.records, r.key = candidate.key →
      (store.job.fold candidate r).footprint = r.footprint) :
    store.Accounts (store.emit candidate).2 := by
  have step := emitStep_emit store candidate
  generalize store.emit candidate = outcome at step ⊢
  cases step with
  | merged records first about =>
    refine ⟨?_, rfl, .inl (Nat.le_refl _)⟩
    have same := keeps _ (by simp [records]) about
    simp only [Accumulator.footprint, records, Record.footprints_append, Record.footprints, same]
  | inserted absent charged =>
    obtain ⟨room, rfl⟩ := (Ledger.charge_eq_ok_iff ..).1 charged
    refine ⟨?_, rfl, .inr room⟩
    simp only [Accumulator.footprint, Record.footprints, storedCopy, Record.footprint_mark,
      Record.footprint_unmark]
    omega
  | refused absent full => exact ⟨rfl, rfl, .inl (Nat.le_refl _)⟩

private theorem accounts_emit (keeps : store.job.KeepsLength) (candidate : Record) :
    store.Accounts (store.emit candidate).2 :=
  accounts_emit_of_fold fun r _ _ ↦ keeps.footprint_fold candidate r

/-- The ledger moves by what candidates cost. -/
theorem accounts_emitAll (keeps : store.job.KeepsLength) (candidates : List Record) :
    store.Accounts (store.emitAll candidates).2 := by
  have both := emitAll_induction (P := fun s ↦ s.job = store.job ∧ store.Accounts s) candidates
    (fun s hs c _ ↦ ⟨(job_emit s c).trans hs.1, hs.2.trans (accounts_emit (hs.1 ▸ keeps) c)⟩)
    store ⟨rfl, rfl, rfl, .inl le_rfl⟩
  exact both.2

/-- Taking candidates in keeps the cap of the ledger. -/
@[simp] theorem limit_emitAll (store : Store) (candidates : List Record) :
    (store.emitAll candidates).2.ledger.limit = store.ledger.limit := by
  apply emitAll_induction (P := fun s ↦ s.ledger.limit = store.ledger.limit)
  · intro s same c _
    have step := emitStep_emit s c
    generalize s.emit c = outcome at step ⊢
    cases step with
    | merged records first about => exact same
    | inserted absent charged =>
      obtain ⟨-, rfl⟩ := (Ledger.charge_eq_ok_iff ..).1 charged
      exact same
    | refused absent full => exact same
  · rfl

/-- The ledger moves by what is cleaned up. -/
theorem accounts_cleanup (covered : store.toAccumulator.footprint ≤ store.ledger.allocated)
    (flags : Flags) : store.Accounts (store.cleanup flags).2 := by
  have parts := weigh_filter_add entryCost (fun r ↦ r.bears flags) store.records
  simp only [weigh_entryCost] at parts
  simp only [cleanup, List.partition_eq_filter_filter, Function.comp_def]
  simp only [Accumulator.footprint] at covered
  refine ⟨?_, rfl, .inl (Nat.sub_le ..)⟩
  simp only [Accumulator.footprint, Ledger.refund]
  omega

/-- Every request moves the ledger by as much as the cost of the records changes, as long as their
cost is charged. -/
theorem accounts_serve (keeps : store.job.KeepsLength)
    (covered : store.toAccumulator.footprint ≤ store.ledger.allocated) (request : Request) :
    store.Accounts (store.serve request) := by
  have same {last : Store} (ledger : last.ledger = store.ledger)
      (entries : last.records.map Record.entry = store.records.map Record.entry) :
      store.Accounts last := by
    have cost : last.toAccumulator.footprint = store.toAccumulator.footprint :=
      Record.footprints_congr entries
    exact ⟨by rw [ledger, cost], by rw [ledger], .inl (Nat.le_of_eq (by rw [ledger]))⟩
  have both := serve_induction (P := fun s ↦ s.job = store.job ∧ store.Accounts s) request
    (fun counters _ ↦ ⟨rfl, same rfl rfl⟩)
    (fun s hs c ↦ ⟨(job_emit s c).trans hs.1, hs.2.trans (accounts_emit (hs.1 ▸ keeps) c)⟩)
    (fun room urgentOnly _ ↦ ⟨job_serve store (.gather room urgentOnly),
      same rfl (map_entry_gather store room urgentOnly)⟩)
    (fun flags _ ↦ ⟨rfl, accounts_cleanup covered flags⟩)
    (fun _ ↦ ⟨rfl, same rfl (map_entry_releasePending store)⟩) ⟨rfl, same rfl rfl⟩
  exact both.2

/-! ## Room for candidates -/

/-- The candidates about keys that no record is about. -/
def newTo (records candidates : List Record) : List Record :=
  candidates.filter fun c ↦ c.key ∉ records.map Record.key

private theorem newTo_sublist {records others : List Record}
    (known : ∀ key ∈ records.map Record.key, key ∈ others.map Record.key)
    (candidates : List Record) : (newTo others candidates).Sublist (newTo records candidates) := by
  refine List.monotone_filter_right candidates fun c unknown ↦ ?_
  rw [decide_eq_true_eq] at unknown ⊢
  exact fun mem ↦ unknown (known c.key mem)

private theorem newTo_cons_of_known {records : List Record} {c : Record}
    (known : c.key ∈ records.map Record.key) (rest : List Record) :
    newTo records (c :: rest) = newTo records rest :=
  List.filter_cons_of_neg (by simpa using known)

private theorem newTo_cons_of_absent {records : List Record} {c : Record}
    (absent : ∀ other ∈ records, other.key ≠ c.key) (rest : List Record) :
    newTo records (c :: rest) = c :: newTo records rest :=
  List.filter_cons_of_pos (by simpa using absent)

/-- A candidate that there is room for is not refused, and what is left is room for the others. -/
theorem room_emit (keeps : store.job.KeepsIdentity) {c : Record} {rest : List Record} {more : Nat}
    (room : store.ledger.allocated + Record.footprints (newTo store.records (c :: rest)) + more ≤
      store.ledger.cap) :
    (store.emit c).1.isOk = true ∧
      (store.emit c).2.ledger.allocated +
          Record.footprints (newTo (store.emit c).2.records rest) + more ≤
        (store.emit c).2.ledger.cap := by
  have known : ∀ key ∈ store.records.map Record.key,
      key ∈ (store.emit c).2.records.map Record.key :=
    fun key mem ↦ (mem_keys_emit keeps).2 (.inl mem)
  have fewer := Record.footprints_le_of_sublist (newTo_sublist known rest)
  have step := emitStep_emit store c
  generalize store.emit c = outcome at step fewer ⊢
  cases step with
  | merged records first about =>
    have held : c.key ∈ store.records.map Record.key := by simp [records, about]
    rw [newTo_cons_of_known held] at room
    exact ⟨rfl, by simp only at fewer ⊢; omega⟩
  | inserted absent charged =>
    obtain ⟨-, rfl⟩ := (Ledger.charge_eq_ok_iff ..).1 charged
    rw [newTo_cons_of_absent absent, Record.footprints] at room
    refine ⟨rfl, ?_⟩
    simp only [Ledger.cap] at fewer room ⊢
    omega
  | refused absent full =>
    rw [newTo_cons_of_absent absent, Record.footprints] at room
    have charged := (Ledger.charge_eq_ok_iff store.ledger _ c.footprint).2 ⟨by omega, rfl⟩
    cases full.symm.trans charged

/-- A ledger with room for the candidates about new keys refuses none of all candidates. -/
theorem accepted_of_room (store : Store) (keeps : store.job.KeepsIdentity)
    {candidates : List Record} {more : Nat}
    (room : store.ledger.allocated + Record.footprints (newTo store.records candidates) + more ≤
      store.ledger.cap) :
    store.accepted candidates = candidates ∧
      (store.emitAll candidates).2.ledger.allocated + more ≤
        (store.emitAll candidates).2.ledger.cap := by
  induction candidates generalizing store with
  | nil => exact ⟨rfl, by simpa [newTo, Record.footprints, emitAll] using room⟩
  | cons c rest ih =>
    obtain ⟨taken, left⟩ := room_emit keeps room
    have keeps' : (store.emit c).2.job.KeepsIdentity := by simpa using keeps
    obtain ⟨all, last⟩ := ih _ keeps' left
    exact ⟨by rw [accepted, if_pos taken, all], last⟩

end Store

/-! ## Sums over places -/

private theorem sum_mapIdx_set {α : Type} {entries : List α} {place : Nat} {old : α}
    (f : Nat → α → Nat) (present : entries[place]? = some old) (new : α) :
    ((entries.set place new).mapIdx f).sum + f place old =
      (entries.mapIdx f).sum + f place new := by
  induction entries generalizing place f with
  | nil => cases present
  | cons head rest ih =>
    cases place with
    | zero =>
      obtain rfl : head = old := by simpa using present
      simp only [List.set_cons_zero, List.mapIdx_cons, List.sum_cons]
      omega
    | succ place =>
      have there : rest[place]? = some old := by simpa using present
      have later := ih (fun i ↦ f (i + 1)) there
      simp only [List.set_cons_succ, List.mapIdx_cons, List.sum_cons]
      omega

private theorem sum_mapIdx_of_single {α : Type} (entries : List α) (place : Nat) (f : Nat → α → Nat)
    (elsewhere : ∀ i x, i ≠ place → f i x = 0) :
    (entries.mapIdx f).sum = (entries[place]?.map (f place)).getD 0 := by
  induction entries generalizing place f with
  | nil => rfl
  | cons head rest ih =>
    cases place with
    | zero =>
      have none : (rest.mapIdx fun i ↦ f (i + 1)).sum = 0 := by
        rw [ih rest.length (fun i ↦ f (i + 1)) fun i x _ ↦ elsewhere (i + 1) x (by omega)]
        simp
      simp [List.mapIdx_cons, none]
    | succ place =>
      have later := ih place (fun i ↦ f (i + 1)) fun i x h ↦ elsewhere (i + 1) x (by omega)
      simp [List.mapIdx_cons, later, elsewhere 0 head (by omega)]

private theorem le_sum_mapIdx {α : Type} {entries : List α} {place : Nat} {x : α}
    (f : Nat → α → Nat)
    (present : entries[place]? = some x) : f place x ≤ (entries.mapIdx f).sum := by
  apply List.single_le_sum fun _ _ ↦ Nat.zero_le _
  rw [List.mem_mapIdx]
  obtain ⟨inside, rfl⟩ := List.getElem?_eq_some_iff.1 present
  exact ⟨place, inside, rfl⟩

/-- A sum is at most another one whose terms are no smaller. -/
theorem sum_mapIdx_le {α : Type} (entries : List α) {f : Nat → α → Nat} {g : α → Nat}
    (h : ∀ i x, f i x ≤ g x) : (entries.mapIdx f).sum ≤ (entries.map g).sum := by
  induction entries generalizing f with
  | nil => exact Nat.le_refl 0
  | cons head rest ih =>
    have later := ih fun i ↦ h (i + 1)
    have first := h 0 head
    simp only [List.mapIdx_cons, List.map_cons, List.sum_cons]
    omega

/-! ## A pool of accumulators and ledgers -/

/-- A ledger of a pool, by its number or by the place of the accumulator that it belongs to. -/
inductive Account where
  /-- The shared ledger with this number. -/
  | shared (index : Nat)
  /-- The ledger of its own that the accumulator in this place is charged to. -/
  | own (place : Nat)
  deriving DecidableEq

/-- The ledger that the accumulator in a place is charged to. -/
def Charge.account (place : Nat) : Charge → Account
  | .own _ => .own place
  | .shared index => .shared index

namespace Pool

/-- A ledger of the pool, if there is one of this name. -/
def ledgerAt (pool : Pool) : Account → Option Ledger
  | .shared index => pool.ledgers[index]?
  | .own place => (pool.member? place).bind fun m ↦
    match m.charge with
    | .own ledger => some ledger
    | .shared _ => none

/-- What a place adds to a ledger: the cost of the accumulator there if it is charged to it. -/
def portion (account : Account) (place : Nat) : Option Member → Nat
  | some m => if m.charge.account place = account then m.acc.footprint else 0
  | none => 0

/-- What the accumulators that are charged to a ledger cost. -/
def held (pool : Pool) (account : Account) : Nat := (pool.members.mapIdx (portion account)).sum

/-- Every ledger holds what the accumulators charged to it cost, and there are no charges to ledgers
that are not there. -/
structure Exact (pool : Pool) : Prop where
  allocated : ∀ account ledger, pool.ledgerAt account = some ledger →
    ledger.allocated = pool.held account
  known : ∀ place m index, pool.member? place = some m → m.charge = .shared index →
    index < pool.ledgers.length

variable {pool pool' : Pool} {place : Nat} {m : Member}

/-- What is found in a place is there. -/
theorem getElem?_of_member? (present : pool.member? place = some m) :
    pool.members[place]? = some (some m) := by
  simpa [member?, Option.join_eq_some_iff] using present

private theorem member?_of_getElem? {m? : Option Member}
    (present : pool.members[place]? = some m?) :
    pool.member? place = m? := by
  simp [member?, present]

/-- A place adds what its accumulator costs to the ledger that it is charged to. -/
@[simp] theorem portion_self (place : Nat) (m : Member) :
    portion (m.charge.account place) place (some m) = m.acc.footprint := by
  simp [portion]

private theorem portion_of_ne {account : Account} (h : account ≠ m.charge.account place) :
    portion account place (some m) = 0 := by
  simp [portion, h.symm]

/-! ## Changing one place -/

/-- Another accumulator in a place changes what a ledger holds by what the two cost there. -/
theorem held_set (pool : Pool) {old : Option Member} (present : pool.members[place]? = some old)
    (ledgers : List Ledger) (new : Option Member) (account : Account) :
    held ⟨ledgers, pool.members.set place new⟩ account + portion account place old =
      pool.held account + portion account place new :=
  sum_mapIdx_set (portion account) present new

/-- What is put into a place is found there, and all else is where it was. -/
theorem member?_set (pool : Pool) (inside : place < pool.members.length) (ledgers : List Ledger)
    (new : Option Member) (other : Nat) :
    member? ⟨ledgers, pool.members.set place new⟩ other =
      if other = place then new else pool.member? other := by
  simp only [member?, List.getElem?_set, inside, if_true]
  by_cases same : other = place
  · simp [same]
  · simp [same, Ne.symm same]

/-- A member is inside the pool. -/
theorem inside_of_member? (present : pool.member? place = some m) : place < pool.members.length :=
  (List.getElem?_eq_some_iff.1 (getElem?_of_member? present)).1

/-- In exact books a member is charged to a ledger that is there. -/
theorem Exact.ledgerAt_account (h : pool.Exact) (present : pool.member? place = some m) :
    pool.ledgerAt (m.charge.account place) = some (pool.ledgerOf m.charge) := by
  cases charge : m.charge with
  | own ledger => simp [Charge.account, ledgerAt, present, charge, ledgerOf]
  | shared index =>
    have inside := h.known place m index present charge
    simp [Charge.account, ledgerAt, ledgerOf, inside]

/-- The cost of an accumulator is among what its ledger holds. -/
theorem Exact.covered (h : pool.Exact) (present : pool.member? place = some m) :
    m.acc.footprint ≤ (pool.ledgerOf m.charge).allocated := by
  rw [h.allocated _ _ (h.ledgerAt_account present), ← portion_self place m]
  exact le_sum_mapIdx (portion _) (getElem?_of_member? present)

/-- Nobody else is charged to a ledger of an accumulator's own. -/
theorem held_own (pool : Pool) (place : Nat) :
    pool.held (.own place) = portion (.own place) place (pool.member? place) := by
  have elsewhere : ∀ i m?, i ≠ place → portion (.own place) i m? = 0 := by
    intro i m? other
    cases m? with
    | none => rfl
    | some m => cases charge : m.charge <;> simp [portion, charge, Charge.account, other]
  rw [held, sum_mapIdx_of_single _ place _ elsewhere, member?]
  cases pool.members[place]? <;> rfl

/-! ## Requests, drops and moves -/

/-- The ledgers after a store was put into its place are its own and those from before. -/
theorem ledgerAt_setStore (inside : place < pool.members.length) {charge : Charge}
    (known : ∀ index, charge = .shared index → index < pool.ledgers.length) (store : Store)
    {account : Account} {ledger : Ledger}
    (found : (pool.setStore place charge store).ledgerAt account = some ledger) :
    account = charge.account place ∧ ledger = store.ledger ∨
      account ≠ charge.account place ∧ pool.ledgerAt account = some ledger := by
  cases charge with
  | own old =>
    cases account with
    | shared index => exact .inr ⟨by simp [Charge.account], found⟩
    | own other =>
      simp only [ledgerAt, setStore, member?_set pool inside] at found
      by_cases same : other = place
      · subst same
        simp only [if_true, Option.bind_some, Option.some.injEq] at found
        exact .inl ⟨rfl, found.symm⟩
      · rw [if_neg same] at found
        exact .inr ⟨by simp [Charge.account, same], found⟩
  | shared number =>
    cases account with
    | shared index =>
      simp only [ledgerAt, setStore, List.getElem?_set, known number rfl, if_true] at found
      by_cases same : number = index
      · subst same
        simp only [if_true, Option.some.injEq] at found
        exact .inl ⟨rfl, found.symm⟩
      · rw [if_neg same] at found
        exact .inr ⟨by simp [Charge.account, Ne.symm same], found⟩
    | own other =>
      simp only [ledgerAt, setStore, member?_set pool inside] at found
      by_cases same : other = place
      · simp [same] at found
      · rw [if_neg same] at found
        exact .inr ⟨by simp [Charge.account], found⟩

private theorem account_eq_shared {charge : Charge} {index : Nat}
    (h : charge.account place = .shared index) : charge = .shared index := by
  cases charge with
  | own ledger => cases h
  | shared number =>
    obtain rfl := Account.shared.inj h
    rfl

/-- A store that is put into its place stays charged to the same ledger. -/
theorem setStore_eq (pool : Pool) (place : Nat) (charge : Charge) (store : Store) :
    ∃ ledgers charge', charge'.account place = charge.account place ∧
      ledgers.length = pool.ledgers.length ∧
      pool.setStore place charge store =
        ⟨ledgers,
          pool.members.set place (some ⟨store.toAccumulator, charge', store.counters⟩)⟩ := by
  cases charge with
  | own ledger => exact ⟨pool.ledgers, .own store.ledger, rfl, rfl, rfl⟩
  | shared index => exact ⟨_, .shared index, rfl, List.length_set .., rfl⟩

/-- Books stay exact where a store is put into a vacant place, or into that of its accumulator, with
a ledger that accounts for its records. -/
theorem Exact.setStore (h : pool.Exact) {old : Option Member}
    (present : pool.members[place]? = some old) {charge : Charge}
    (known : ∀ index, charge = .shared index → index < pool.ledgers.length)
    (others : ∀ account, account ≠ charge.account place → portion account place old = 0)
    {store : Store}
    (paid : store.ledger.allocated + portion (charge.account place) place old =
      pool.held (charge.account place) + store.toAccumulator.footprint) :
    (pool.setStore place charge store).Exact := by
  have inside : place < pool.members.length := (List.getElem?_eq_some_iff.1 present).1
  obtain ⟨ledgers, charge', same, length, after⟩ := pool.setStore_eq place charge store
  constructor
  · intro account ledger found
    have own := ledgerAt_setStore inside known store found
    rw [after]
    have change := pool.held_set present ledgers
      (some ⟨store.toAccumulator, charge', store.counters⟩) account
    rcases own with ⟨rfl, rfl⟩ | ⟨other, found⟩
    · have mine := portion_self place ⟨store.toAccumulator, charge', store.counters⟩
      simp only at mine
      rw [← same] at change paid ⊢
      omega
    · rw [others account other, portion_of_ne (same ▸ other)] at change
      exact (h.allocated account ledger found).trans change.symm
  · intro other m index there shared
    rw [after, member?_set pool inside] at there
    rw [after, length]
    split at there
    · obtain rfl := Option.some.inj there
      obtain rfl : charge' = .shared index := shared
      exact known index (account_eq_shared same.symm)
    · exact h.known other m index there shared

/-- Books stay exact where an operation accounts for what it changes. -/
theorem Exact.run (h : pool.Exact) (present : pool.member? place = some m) {last : Store}
    (accounts : (pool.store m).Accounts last) : (pool.setStore place m.charge last).Exact := by
  refine h.setStore (getElem?_of_member? present) (h.known place m · present)
    (fun account other ↦ portion_of_ne other) ?_
  have moved := accounts.moved
  have before := h.allocated _ _ (h.ledgerAt_account present)
  simp only [store] at moved
  rw [portion_self]
  omega

/-- The pool without the accumulator in a place, and without its charge. -/
def vacate (pool : Pool) (place : Nat) (m : Member) : Pool :=
  ⟨(pool.release m).ledgers, pool.members.set place none⟩

private theorem members_release (pool : Pool) (m : Member) :
    (pool.release m).members = pool.members := by
  unfold release
  split <;> rfl

/-- Dropping a member vacates its place. -/
theorem drop_eq (present : pool.member? place = some m) :
    pool.drop place = some (pool.vacate place m) := by
  simp [drop, present, vacate, members_release]

/-- A vacated place is still there. -/
theorem inside_vacate (present : pool.member? place = some m) :
    place < (pool.vacate place m).members.length := by
  rw [vacate, List.length_set]
  exact inside_of_member? present

/-- What a release leaves of the ledgers. -/
theorem getElem?_ledgers_release (pool : Pool) (m : Member) (index : Nat) :
    (pool.release m).ledgers[index]? =
      if m.charge = .shared index then
        pool.ledgers[index]?.map (·.refund m.acc.footprint)
      else pool.ledgers[index]? := by
  unfold release
  split
  · next charge => simp [charge]
  · next number charge =>
    rw [charge, List.getElem?_modify]
    by_cases same : number = index
    · simp [same]
    · simp [same]

/-- Releasing a charge keeps the number of ledgers. -/
theorem length_ledgers_release (pool : Pool) (m : Member) :
    (pool.release m).ledgers.length = pool.ledgers.length := by
  unfold release
  split
  · rfl
  · exact List.length_modify ..

/-- Books stay exact where an accumulator is dropped. -/
theorem Exact.drop (h : pool.Exact) (present : pool.member? place = some m) :
    (pool.vacate place m).Exact := by
  have inside := inside_of_member? present
  constructor
  · intro account ledger found
    have change := pool.held_set (getElem?_of_member? present) (pool.release m).ledgers none account
    rw [← vacate] at change
    simp only [portion, Nat.add_zero] at change
    cases account with
    | shared index =>
      simp only [ledgerAt, vacate, getElem?_ledgers_release] at found
      split at found
      · next charge =>
        obtain ⟨before, there, rfl⟩ := Option.map_eq_some_iff.1 found
        rw [charge, Charge.account, if_pos rfl] at change
        have exact' := h.allocated (.shared index) before there
        simp only [Ledger.refund]
        omega
      · next elsewhere =>
        rw [if_neg fun same ↦ elsewhere (account_eq_shared same)] at change
        exact (h.allocated (.shared index) ledger found).trans change.symm
    | own other =>
      simp only [ledgerAt, vacate, member?_set pool inside] at found
      by_cases same : other = place
      · simp [same] at found
      · rw [if_neg same] at found
        have elsewhere : m.charge.account place ≠ .own other := by
          cases m.charge <;> simp [Charge.account, Ne.symm same]
        rw [if_neg elsewhere] at change
        exact (h.allocated (.own other) ledger found).trans change.symm
  · intro other m' index there shared
    simp only [vacate, member?_set pool inside, length_ledgers_release] at there ⊢
    split at there
    · cases there
    · exact h.known other m' index there shared

/-- Moving a charge vacates the place and puts the accumulator into it again. -/
theorem move_eq (present : pool.member? place = some m) (charge : Charge) :
    pool.move place charge =
      some ((pool.vacate place m).setStore place charge
        (.attach m.acc ((pool.vacate place m).ledgerOf charge) {})) := by
  simp only [move, present, Option.map_some]
  cases charge <;> simp [setStore, ledgerOf, vacate, members_release]

/-- Books stay exact where an accumulator that is charged nowhere is charged to a ledger, as long as
the ledger can count what it then holds. -/
theorem Exact.enter (h : pool.Exact) (vacant : pool.members[place]? = some none)
    {charge : Charge} (known : ∀ index, charge = .shared index → index < pool.ledgers.length)
    (fresh : ∀ ledger, charge = .own ledger → ledger.allocated = 0) (acc : Accumulator)
    (within : pool.held (charge.account place) + acc.footprint < ledgerModulus) :
    (pool.setStore place charge (.attach acc (pool.ledgerOf charge) {})).Exact := by
  have before : (pool.ledgerOf charge).allocated = pool.held (charge.account place) := by
    cases charge with
    | own ledger =>
      rw [Charge.account, held_own, member?_of_getElem? vacant]
      exact fresh ledger rfl
    | shared index =>
      have there := List.getElem?_eq_getElem (known index rfl)
      rw [ledgerOf, there]
      exact h.allocated (.shared index) _ there
  refine h.setStore vacant known (fun _ _ ↦ rfl) ?_
  simp only [Store.attach, Ledger.forceCharge, before, portion, Nat.mod_eq_of_lt within]
  rfl

/-- Books stay exact where an accumulator is charged to another ledger, as long as the ledger can
count what it then holds. -/
theorem Exact.move (h : pool.Exact) (present : pool.member? place = some m) {charge : Charge}
    (known : ∀ index, charge = .shared index → index < pool.ledgers.length)
    (fresh : ∀ ledger, charge = .own ledger → ledger.allocated = 0)
    (moved : pool.move place charge = some pool')
    (within : pool'.held (charge.account place) < ledgerModulus) : pool'.Exact := by
  have vacated := h.drop present
  have vacant : (pool.vacate place m).members[place]? = some none := by
    simp [vacate, inside_of_member? present]
  have known' : ∀ index, charge = .shared index → index < (pool.vacate place m).ledgers.length :=
    fun index shared ↦ (pool.length_ledgers_release m).symm ▸ known index shared
  rw [move_eq present charge] at moved
  obtain rfl := Option.some.inj moved
  generalize pool.vacate place m = emptied at vacated vacant known' within
  apply vacated.enter vacant known' fresh m.acc
  obtain ⟨ledgers, charge', same, -, after⟩ := emptied.setStore_eq place charge
    (.attach m.acc (emptied.ledgerOf charge) {})
  have change := emptied.held_set vacant ledgers (some ⟨m.acc, charge', {}⟩) (charge.account place)
  have mine := portion_self place ⟨m.acc, charge', {}⟩
  simp only [same] at mine
  rw [mine, portion, Nat.add_zero] at change
  rw [after] at within
  exact change ▸ within

end Pool
end CollectionTree
