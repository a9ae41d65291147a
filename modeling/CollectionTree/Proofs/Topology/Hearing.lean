import CollectionTree.Proofs.Network.Rounds
import Mathlib.Data.List.Induction
import Mathlib.Data.List.Nodup

/-!
# What a board tells in a round

Nodes are linked, come to be known, start to announce, announce something else and stop, in any
order. Who hears whom, who announces, and what, can be read off these acts without the board:
`Linked`, `Started` and `hopsFor`. `round_performed` says that a round tells exactly that,
everything once and in one order.
-/

namespace CollectionTree
namespace Board

/-- What may be done to a board. -/
inductive Act where
  /-- Two nodes come to hear each other, unless they are one. -/
  | connect (a b : Address)
  /-- A node comes to be known. -/
  | register (node : Address)
  /-- A node announces a hop count from now on, whether the board knows it or not. -/
  | start (node : Address) (hop : UInt8)
  /-- A node announces another hop count, if it was started. -/
  | announce (node : Address) (hop : UInt8)
  /-- A node announces nothing from now on. -/
  | stop (node : Address)
  deriving DecidableEq, Repr

/-- The board after an act; a link that is refused changes nothing. -/
def perform (board : Board) : Act → Board
  | .connect a b => (board.connect a b).toOption.getD board
  | .register node => board.register node
  | .start node hop => board.start node hop
  | .announce node hop => board.announce node hop
  | .stop node => board.stop node

/-- The board after some acts. -/
def performed (board : Board) (acts : List Act) : Board := acts.foldl perform board

/-- Two nodes were linked, next to each other in a line of so many nodes or by an act. -/
def Linked (line : Nat) (acts : List Act) (a b : Address) : Prop :=
  a.toNat < line ∧ b.toNat < line ∧ Beside a b ∨
    a ≠ b ∧ (.connect a b ∈ acts ∨ .connect b a ∈ acts)

/-- A node was started, and was not stopped since. -/
def Started (acts : List Act) (node : Address) : Prop :=
  ∃ before hop after, acts = before ++ .start node hop :: after ∧ .stop node ∉ after

/-- The hop count that an act gives to a node. -/
def Act.hopFor? (node : Address) : Act → Option UInt8
  | .start a hop | .announce a hop => if a = node then some hop else none
  | .connect _ _ | .register _ | .stop _ => none

/-- The hop counts that some acts give to a node, in order. -/
def hopsFor (acts : List Act) (node : Address) : List UInt8 := acts.filterMap (·.hopFor? node)

/-- The hop counts that some events tell one node about another, in order. -/
def heardFrom (events : List (Address × Beacon)) (a b : Address) : List UInt8 :=
  events.filterMap fun
    | (node, .heard neighbor hop) => if node = a ∧ neighbor = b then some hop else none
    | (_, .tick) => none

/-- The order of a round: all that is heard comes before all ticks, lower nodes come before higher
ones, and a node hears lower neighbours before higher ones. -/
inductive Precedes : Address × Beacon → Address × Beacon → Prop
  | node {a a' b b' : Address} {hop hop' : UInt8} (lower : a.toNat < a'.toNat) :
      Precedes (a, .heard b hop) (a', .heard b' hop')
  | neighbor {a b b' : Address} {hop hop' : UInt8} (lower : b.toNat < b'.toNat) :
      Precedes (a, .heard b hop) (a, .heard b' hop')
  | tick {a a' b : Address} {hop : UInt8} : Precedes (a, .heard b hop) (a', .tick)
  | ticks {a a' : Address} (lower : a.toNat < a'.toNat) : Precedes (a, .tick) (a', .tick)

variable {board : Board} {acts : List Act} {act : Act} {a b node : Address} {hop : UInt8}

private theorem performed_concat (board : Board) (acts : List Act) (act : Act) :
    board.performed (acts ++ [act]) = (board.performed acts).perform act := by
  simp [performed]

/-! ## Who hears whom -/

private theorem hears_perform (board : Board) (act : Act) (a b : Address) :
    (board.perform act).Hears a b ↔
      a ≠ b ∧ (act = .connect a b ∨ act = .connect b a) ∨ board.Hears a b := by
  cases act with
  | connect x y =>
    by_cases same : x = y
    · subst same
      rw [perform, connect_self]
      simp only [Act.connect.injEq]
      refine (or_iff_right ?_).symm
      rintro ⟨apart, ⟨rfl, rfl⟩ | ⟨rfl, rfl⟩⟩
      · exact apart rfl
      · exact apart rfl
    · obtain ⟨linked, connected⟩ : ∃ linked, board.connect x y = .ok linked :=
        ⟨_, if_neg same⟩
      rw [perform, connected]
      refine ((hears_connect connected).2.2 a b).trans ?_
      simp only [Act.connect.injEq]
      constructor
      · rintro (⟨rfl, rfl⟩ | ⟨rfl, rfl⟩ | before)
        · exact .inl ⟨same, .inl ⟨rfl, rfl⟩⟩
        · exact .inl ⟨Ne.symm same, .inr ⟨rfl, rfl⟩⟩
        · exact .inr before
      · rintro (⟨-, ⟨rfl, rfl⟩ | ⟨rfl, rfl⟩⟩ | before)
        · exact .inl ⟨rfl, rfl⟩
        · exact .inr (.inl ⟨rfl, rfl⟩)
        · exact .inr (.inr before)
  | register node =>
    rw [perform, hears_register]
    simp
  | start | announce | stop => simp [perform, Hears, around, start, announce, stop]

private theorem hears_performed (board : Board) (acts : List Act) (a b : Address) :
    (board.performed acts).Hears a b ↔
      board.Hears a b ∨ a ≠ b ∧ (.connect a b ∈ acts ∨ .connect b a ∈ acts) := by
  induction acts using List.reverseRecOn with
  | nil => simp [performed]
  | append_singleton acts act ih =>
    rw [performed_concat, hears_perform, ih]
    grind

private theorem hears_performed_line {line : Nat} (small : line ≤ 65536) (acts : List Act)
    (a b : Address) : ((Board.line line).performed acts).Hears a b ↔ Linked line acts a b := by
  rw [hears_performed, hears_line_iff small, Linked]

private theorem Linked.symm {line : Nat} (h : Linked line acts a b) : Linked line acts b a := by
  rcases h with ⟨first, second, beside⟩ | ⟨apart, linked⟩
  · exact .inl ⟨second, first, beside.symm⟩
  · exact .inr ⟨apart.symm, linked.symm⟩

private theorem not_linked_self (line : Nat) (acts : List Act) (a : Address) :
    ¬Linked line acts a a := by
  rintro (⟨-, -, same | same⟩ | ⟨apart, -⟩)
  · omega
  · omega
  · exact apart rfl

/-- The neighbours that a board answers with are those that the node hears. -/
theorem mem_neighbors_iff (board : Board) (a b : Address) :
    (∃ near, board.neighbors a = .ok near ∧ b ∈ near) ↔ board.Hears a b := by
  unfold neighbors Hears around
  cases known : board.links.get? a with
  | none => simp [Table.empty, Table.keys]
  | some set => simp

/-! ## Who announces what -/

private theorem started_concat (acts : List Act) (act : Act) (node : Address) :
    Started (acts ++ [act]) node ↔
      (∃ hop, act = .start node hop) ∨ act ≠ .stop node ∧ Started acts node := by
  constructor
  · rintro ⟨before, hop, after, split, still⟩
    -- The act is the start itself, or it comes after the start.
    cases after using List.reverseRecOn with
    | nil => exact .inl ⟨hop, List.singleton_inj.1 (List.append_inj' split rfl).2⟩
    | append_singleton after last =>
      rw [← List.cons_append, ← List.append_assoc] at split
      obtain ⟨rfl, same⟩ := List.append_inj' split rfl
      obtain rfl := List.singleton_inj.1 same
      rw [List.mem_append, List.mem_singleton, not_or] at still
      exact .inr ⟨Ne.symm still.2, before, hop, after, rfl, still.1⟩
  · rintro (⟨hop, rfl⟩ | ⟨other, before, hop, after, rfl, still⟩)
    · exact ⟨acts, hop, [], rfl, List.not_mem_nil⟩
    · refine ⟨before, hop, after ++ [act], by simp, ?_⟩
      rw [List.mem_append, List.mem_singleton]
      exact not_or.2 ⟨still, Ne.symm other⟩

private theorem hopsFor_concat (acts : List Act) (act : Act) (node : Address) :
    hopsFor (acts ++ [act]) node = hopsFor acts node ++ (act.hopFor? node).toList := by
  rw [hopsFor, List.filterMap_append]
  cases given : act.hopFor? node with
  | none => rw [List.filterMap_cons_none given]; rfl
  | some hop => rw [List.filterMap_cons_some given]; rfl

/-- A node that was started was given a hop count. -/
theorem Started.exists_hop (h : Started acts node) :
    ∃ hop, (hopsFor acts node).getLast? = some hop := by
  obtain ⟨before, hop, after, rfl, -⟩ := h
  have given : hop ∈ hopsFor (before ++ .start node hop :: after) node :=
    List.mem_filterMap.2 ⟨.start node hop, by simp, if_pos rfl⟩
  exact ⟨_, List.getLast?_eq_some_getLast (List.ne_nil_of_mem given)⟩

/-- An act that neither starts or stops a node nor gives it a hop count leaves its announcement. -/
theorem announcedBy_perform_of_other (board : Board) {act : Act} (given : act.hopFor? node = none)
    (other : act ≠ .stop node) : (board.perform act).announcedBy node = board.announcedBy node := by
  cases act with
  | connect a b =>
    rw [perform]
    cases linked : board.connect a b with
    | error cause => rfl
    | ok linked' => exact congrArg (·.get? node) (hears_connect linked).2.1
  | register a => rfl
  | start a hop =>
    have differ : node ≠ a := by rintro rfl; simp [Act.hopFor?] at given
    exact Table.get?_insert_of_ne _ differ hop
  | announce a hop =>
    have differ : node ≠ a := by rintro rfl; simp [Act.hopFor?] at given
    exact Table.get?_modify_of_ne _ differ _
  | stop a =>
    have differ : node ≠ a := by rintro rfl; exact other rfl
    exact (board.announced.get?_erase a node).trans
      (if_neg fun same ↦ differ (Table.rank_inj.1 same).symm)

/-- On a board on which nobody was started, a node comes to announce the last hop count that it was
given, as long as it is started. -/
theorem announcedBy_performed_iff (quiet : board.announced = .empty) (acts : List Act)
    (node : Address) (hop : UInt8) :
    (board.performed acts).announcedBy node = some hop ↔
      Started acts node ∧ (hopsFor acts node).getLast? = some hop := by
  induction acts using List.reverseRecOn generalizing hop with
  | nil =>
    refine iff_of_false ?_ ?_
    · simp [performed, announcedBy, quiet]
    · rintro ⟨⟨before, first, after, split, -⟩, -⟩
      simp at split
  | append_singleton acts act ih =>
    rw [performed_concat, started_concat, hopsFor_concat]
    cases given : act.hopFor? node with
    | none =>
      rw [Option.toList_none, List.append_nil]
      have unstarted : ¬∃ hop, act = .start node hop := by
        rintro ⟨hop, rfl⟩
        simp [Act.hopFor?] at given
      by_cases stops : act = .stop node
      · subst stops
        simp [perform, announcedBy, stop, Table.get?_erase]
      · rw [announcedBy_perform_of_other _ given stops, ih]
        simp [unstarted, stops]
    | some last =>
      rw [Option.toList_some, List.getLast?_concat]
      cases act with
      | start a first =>
        obtain ⟨rfl, rfl⟩ : a = node ∧ first = last := by simpa [Act.hopFor?] using given
        simp [perform, announcedBy, Board.start]
      | announce a next =>
        obtain ⟨rfl, rfl⟩ : a = node ∧ next = last := by simpa [Act.hopFor?] using given
        -- The new hop count counts if there is an old one, which is so if the node is started.
        have announced : (∃ old, (board.performed acts).announcedBy a = some old) ↔
            Started acts a := by
          constructor
          · rintro ⟨old, said⟩
            exact ((ih old).1 said).1
          · intro started
            obtain ⟨old, latest⟩ := started.exists_hop
            exact ⟨old, (ih old).2 ⟨started, latest⟩⟩
        have replaced : ((board.performed acts).perform (.announce a next)).announcedBy a =
            ((board.performed acts).announcedBy a).map fun _ ↦ next :=
          Table.get?_modify_self _ a _
        rw [replaced, Option.map_eq_some_iff, ← announced]
        simp
      | connect | register | stop => cases given

/-- Whoever was started and not stopped since announces something. -/
theorem contains_announced_performed_iff (quiet : board.announced = .empty) (acts : List Act)
    (node : Address) :
    (board.performed acts).announced.contains node = true ↔ Started acts node := by
  rw [Table.contains, Option.isSome_iff_exists]
  constructor
  · rintro ⟨hop, said⟩
    exact ((announcedBy_performed_iff quiet acts node hop).1 said).1
  · intro started
    obtain ⟨hop, latest⟩ := started.exists_hop
    exact ⟨hop, (announcedBy_performed_iff quiet acts node hop).2 ⟨started, latest⟩⟩

/-! ## One round -/

/-- A round tells everything in one order. -/
theorem pairwise_round (board : Board) : board.round.Pairwise Precedes := by
  rw [round, List.pairwise_append, List.pairwise_flatMap, List.pairwise_map]
  refine ⟨⟨fun entry _ ↦ ?_, ?_⟩, ?_, ?_⟩
  · unfold heardBy
    split
    · refine entry.2.pairwise_keys.filterMap _ fun b b' lower first told first' told' ↦ ?_
      obtain ⟨hop, -, rfl⟩ := Option.map_eq_some_iff.1 told
      obtain ⟨hop', -, rfl⟩ := Option.map_eq_some_iff.1 told'
      exact .neighbor lower
    · exact .nil
  · refine board.links.ascending.imp fun {first second} lower event mem event' mem' ↦ ?_
    obtain ⟨-, b, -, hop, -, rfl⟩ := mem_heardBy_iff.1 mem
    obtain ⟨-, b', -, hop', -, rfl⟩ := mem_heardBy_iff.1 mem'
    exact .node lower
  · exact board.announced.pairwise_keys.imp fun lower ↦ .ticks lower
  · intro event mem event' mem'
    obtain ⟨entry, -, mem⟩ := List.mem_flatMap.1 mem
    obtain ⟨-, b, -, hop, -, rfl⟩ := mem_heardBy_iff.1 mem
    obtain ⟨a, -, rfl⟩ := List.mem_map.1 mem'
    exact .tick

/-- No event comes before itself, so none is told twice. -/
theorem nodup_round (board : Board) : board.round.Nodup := by
  refine board.pairwise_round.imp fun {first second} before same ↦ ?_
  subst same
  cases before with
  | node lower | neighbor lower | ticks lower => exact Nat.lt_irrefl _ lower

private theorem heard_mem_round_iff_hears (board : Board) (a b : Address) (hop : UInt8) :
    (a, .heard b hop) ∈ board.round ↔
      board.Hears a b ∧ board.announced.contains a = true ∧ board.announcedBy b = some hop := by
  rw [heard_mem_round_iff, Hears, around]
  cases known : board.links.get? a with
  | none => simp [Table.empty, Table.keys]
  | some neighbors => simp [and_left_comm]

private theorem tick_mem_round_iff (board : Board) (node : Address) :
    (node, .tick) ∈ board.round ↔ board.announced.contains node = true := by
  rw [round, List.mem_append, ← Table.mem_keys_iff]
  constructor
  · rintro (mem | mem)
    · obtain ⟨entry, -, mem⟩ := List.mem_flatMap.1 mem
      obtain ⟨-, b, -, hop, -, same⟩ := mem_heardBy_iff.1 mem
      cases same
    · obtain ⟨other, started, same⟩ := List.mem_map.1 mem
      cases same
      exact started
  · intro started
    exact .inr (List.mem_map.2 ⟨node, started, rfl⟩)

private theorem mem_heardFrom_iff {events : List (Address × Beacon)} :
    hop ∈ heardFrom events a b ↔ (a, .heard b hop) ∈ events := by
  rw [heardFrom, List.mem_filterMap]
  constructor
  · rintro ⟨⟨node, beacon⟩, mem, told⟩
    cases beacon with
    | heard neighbor hop' =>
      obtain ⟨⟨rfl, rfl⟩, rfl⟩ : (node = a ∧ neighbor = b) ∧ hop' = hop := by simpa using told
      exact mem
    | tick => cases told
  · intro mem
    exact ⟨_, mem, by simp⟩

/-- Nobody is told twice of one neighbour in a round. -/
theorem length_heardFrom_round_le (board : Board) (a b : Address) :
    (heardFrom board.round a b).length ≤ 1 := by
  have once : (heardFrom board.round a b).Pairwise fun _ _ ↦ False := by
    refine board.pairwise_round.filterMap _ fun event event' before first told first' told' ↦ ?_
    cases before with
    | node lower =>
      obtain ⟨⟨rfl, -⟩, -⟩ := Option.ite_none_right_eq_some.1 told
      obtain ⟨⟨rfl, -⟩, -⟩ := Option.ite_none_right_eq_some.1 told'
      exact Nat.lt_irrefl _ lower
    | neighbor lower =>
      obtain ⟨⟨-, rfl⟩, -⟩ := Option.ite_none_right_eq_some.1 told
      obtain ⟨⟨-, rfl⟩, -⟩ := Option.ite_none_right_eq_some.1 told'
      exact Nat.lt_irrefl _ lower
    | tick => cases told'
    | ticks => cases told
  match heard : heardFrom board.round a b with
  | [] | [_] => simp
  | first :: second :: rest =>
    rw [heard] at once
    exact ((List.pairwise_cons.1 once).1 second List.mem_cons_self).elim

private theorem heardFrom_round_eq_singleton_iff (board : Board) (a b : Address) (hop : UInt8) :
    heardFrom board.round a b = [hop] ↔ (a, .heard b hop) ∈ board.round := by
  rw [← mem_heardFrom_iff]
  constructor
  · intro told
    rw [told]
    exact List.mem_singleton_self hop
  · intro told
    have once := board.length_heardFrom_round_le a b
    obtain ⟨only, told'⟩ := List.length_eq_one_iff.1
      (Nat.le_antisymm once (List.length_pos_of_mem told))
    rw [told'] at told ⊢
    rw [List.mem_singleton.1 told]

/-- A round ticks every node once that announces something, and no other. -/
theorem count_tick_round (board : Board) (node : Address) :
    board.round.count (node, .tick) = if board.announced.contains node then 1 else 0 := by
  split
  · next started =>
    exact List.nodup_iff_count_eq_one.1 board.nodup_round _
      ((board.tick_mem_round_iff node).2 started)
  · next unstarted =>
    exact List.count_eq_zero_of_not_mem fun mem ↦ unstarted ((board.tick_mem_round_iff node).1 mem)

/-! ## Whatever was done to a line -/

section

variable {line : Nat} (small : line ≤ 65536) (acts : List Act)
include small

private theorem mutual_performed_line : ((Board.line line).performed acts).Mutual := by
  constructor
  · intro a b
    rw [hears_performed_line small, hears_performed_line small]
    exact Linked.symm
  · intro a
    rw [hears_performed_line small]
    exact not_linked_self line acts a

private theorem heardFrom_round_performed_eq_singleton_iff (a b : Address) (hop : UInt8) :
    heardFrom ((Board.line line).performed acts).round a b = [hop] ↔
      Linked line acts a b ∧ Started acts a ∧
        Started acts b ∧ (hopsFor acts b).getLast? = some hop := by
  have quiet : (Board.line line).announced = .empty := rfl
  rw [heardFrom_round_eq_singleton_iff, heard_mem_round_iff_hears, hears_performed_line small,
    contains_announced_performed_iff quiet, announcedBy_performed_iff quiet]

private theorem heardFrom_round_performed_eq_nil_iff (a b : Address) :
    heardFrom ((Board.line line).performed acts).round a b = [] ↔
      ¬(Linked line acts a b ∧ Started acts a ∧ Started acts b) := by
  rw [List.eq_nil_iff_forall_not_mem]
  constructor
  · rintro none ⟨linked, first, second⟩
    obtain ⟨hop, latest⟩ := second.exists_hop
    apply none hop
    rw [(heardFrom_round_performed_eq_singleton_iff small acts a b hop).2
      ⟨linked, first, second, latest⟩]
    exact List.mem_singleton_self hop
  · intro apart hop mem
    rw [mem_heardFrom_iff, ← heardFrom_round_eq_singleton_iff,
      heardFrom_round_performed_eq_singleton_iff small] at mem
    exact apart ⟨mem.1, mem.2.1, mem.2.2.1⟩

end

/-- Whatever was done to a board that started as a line: the nodes that were linked hear each other,
and none hears itself. A round tells a node of a neighbour exactly if they were linked and both are
started, once and with the hop count that the neighbour was given last, so of two nodes both are
told of the other or neither is. It ticks every started node once, and no other. All that is heard
comes before the ticks, and both come in ascending order of addresses. -/
theorem round_performed (line : UInt16) (acts : List Act) :
    let board := (Board.line line.toNat).performed acts
    (∀ a b, board.Hears a b ↔ Linked line.toNat acts a b) ∧ board.Mutual ∧
    (∀ a b, (∃ near, board.neighbors a = .ok near ∧ b ∈ near) ↔ board.Hears a b) ∧
    (∀ a b, Linked line.toNat acts a b ∧ Started acts a ∧ Started acts b →
      ∃ hop, (hopsFor acts b).getLast? = some hop ∧ heardFrom board.round a b = [hop]) ∧
    (∀ a b, ¬(Linked line.toNat acts a b ∧ Started acts a ∧ Started acts b) →
      heardFrom board.round a b = []) ∧
    (∀ a b, heardFrom board.round a b ≠ [] ↔ heardFrom board.round b a ≠ []) ∧
    (∀ a, Started acts a → board.round.count (a, .tick) = 1) ∧
    (∀ a, ¬Started acts a → board.round.count (a, .tick) = 0) ∧
    board.round.Pairwise Precedes := by
  intro board
  have small : line.toNat ≤ 65536 := Nat.le_of_lt line.toNat_lt
  have started (a : Address) : board.announced.contains a = true ↔ Started acts a :=
    contains_announced_performed_iff rfl acts a
  have silent := heardFrom_round_performed_eq_nil_iff small acts
  refine ⟨hears_performed_line small acts, mutual_performed_line small acts,
    board.mem_neighbors_iff, ?_,
    fun a b ↦ (silent a b).2, ?_, ?_, ?_, board.pairwise_round⟩
  · rintro a b ⟨linked, first, second⟩
    obtain ⟨hop, latest⟩ := second.exists_hop
    exact ⟨hop, latest, (heardFrom_round_performed_eq_singleton_iff small acts a b hop).2
      ⟨linked, first, second, latest⟩⟩
  · have both {a b : Address} :
        Linked line.toNat acts a b ∧ Started acts a ∧ Started acts b →
          Linked line.toNat acts b a ∧ Started acts b ∧ Started acts a :=
      fun ⟨linked, first, second⟩ ↦ ⟨linked.symm, second, first⟩
    intro a b
    rw [Ne, Ne, silent, silent, not_not, not_not]
    exact ⟨both, both⟩
  · intro a running
    rw [count_tick_round, if_pos ((started a).2 running)]
  · intro a stopped
    rw [count_tick_round, if_neg (mt (started a).1 stopped)]

/-- A hop count given before the start, a refused link and a node that was stopped are not heard of.
-/
example :
    ((Board.line 3).performed [.announce (.ofNat 1) 4, .start (.ofNat 0) 1, .start (.ofNat 1) 255,
      .announce (.ofNat 1) 2, .connect (.ofNat 1) (.ofNat 1), .start (.ofNat 2) 7,
      .stop (.ofNat 2)]).round =
      [(.ofNat 0, .heard (.ofNat 1) 2), (.ofNat 1, .heard (.ofNat 0) 1), (.ofNat 0, .tick),
        (.ofNat 1, .tick)] := by
  decide

end Board
end CollectionTree
