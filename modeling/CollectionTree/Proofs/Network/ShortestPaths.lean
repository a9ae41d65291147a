import CollectionTree.Proofs.Network.Rounds
import Mathlib.Combinatorics.SimpleGraph.Walk.Basic
import Mathlib.Order.Bounds.Basic
import Mathlib.Order.Lattice.Nat

/-!
# Rounds of discovery find shortest paths

After `r` rounds the nodes that are at most `r` hops away from a sink, and at most 254, know their
distance, and the parent of each is the lowest of its neighbours that are one hop nearer; all others
know nothing yet. `Stands` says this of one node, `Stands.hearing` takes it from one round to the
next, and `shortestPaths_discovered` says it of every network that is built link by link.
-/

namespace CollectionTree

/-! ## Distances -/

/-- The fewest hops from a node to a sink. -/
def SinkDistance (G : SimpleGraph Address) (sinks : Set Address) (v : Address) (d : Nat) : Prop :=
  IsLeast {hops | ∃ s ∈ sinks, ∃ walk : G.Walk v s, walk.length = hops} d

/-- The lowest of a node's neighbours that are one hop nearer to a sink. -/
structure NextHop (G : SimpleGraph Address) (sinks : Set Address) (v : Address) (d : Nat)
    (p : Address) : Prop where
  adj : G.Adj v p
  nearer : SinkDistance G sinks p (d - 1)
  lowest : ∀ q, G.Adj v q → SinkDistance G sinks q (d - 1) → p.toNat ≤ q.toNat

/-- Where a node stands when distances up to `most` are known. -/
inductive Stands (G : SimpleGraph Address) (sinks : Set Address) (most : Nat) (v : Address) :
    Gradient → Prop
  | sink (own : v ∈ sinks) : Stands G sinks most v .sink
  | routed {d : Nat} {p : Address} (other : v ∉ sinks) (distance : SinkDistance G sinks v d)
      (near : d ≤ most) (next : NextHop G sinks v d p) :
      Stands G sinks most v ⟨some p, d.toUInt8, false⟩
  | unrouted (other : v ∉ sinks) (far : ∀ d, SinkDistance G sinks v d → most < d) :
      Stands G sinks most v .unrouted

section Distances

variable {G : SimpleGraph Address} {sinks : Set Address} {v u p : Address} {d e most : Nat}

private theorem sinkDistance_zero_iff : SinkDistance G sinks v 0 ↔ v ∈ sinks := by
  constructor
  · rintro ⟨⟨s, sink, walk, short⟩, -⟩
    rwa [SimpleGraph.Walk.eq_of_length_eq_zero short]
  · intro own
    exact ⟨⟨v, own, .nil, rfl⟩, fun _ _ ↦ Nat.zero_le _⟩

private theorem exists_sinkDistance_le {hops : Nat} {s : Address} (sink : s ∈ sinks)
    (walk : G.Walk v s) (length : walk.length = hops) : ∃ d ≤ hops, SinkDistance G sinks v d := by
  have there : hops ∈ {hops | ∃ s ∈ sinks, ∃ walk : G.Walk v s, walk.length = hops} :=
    ⟨s, sink, walk, length⟩
  exact ⟨_, Nat.sInf_le there, Nat.sInf_mem ⟨hops, there⟩, fun _ other ↦ Nat.sInf_le other⟩

/-- A node is at most one hop farther away than its neighbours. -/
theorem SinkDistance.le_succ (near : SinkDistance G sinks u e) (adj : G.Adj v u) :
    ∃ d ≤ e + 1, SinkDistance G sinks v d := by
  obtain ⟨⟨s, sink, walk, length⟩, -⟩ := near
  exact exists_sinkDistance_le sink (.cons adj walk) (by simp [length])

/-- A node that is no sink has a neighbour that is one hop nearer. -/
theorem SinkDistance.exists_adj (far : SinkDistance G sinks v (d + 1)) :
    ∃ u, G.Adj v u ∧ SinkDistance G sinks u d := by
  obtain ⟨⟨s, sink, walk, length⟩, least⟩ := far
  cases walk with
  | nil => cases length
  | @cons _ u _ adj rest =>
    refine ⟨u, adj, ⟨s, sink, rest, by simpa using length⟩, ?_⟩
    rintro hops ⟨s', sink', other, rfl⟩
    have longer := least ⟨s', sink', .cons adj other, rfl⟩
    simpa using longer

private theorem SinkDistance.exists_nextHop (far : SinkDistance G sinks v (d + 1)) :
    ∃ p, NextHop G sinks v (d + 1) p := by
  obtain ⟨p, ⟨adj, nearer⟩, lowest⟩ := (InvImage.wf Address.toNat Nat.lt_wfRel.wf).has_min
    {u | G.Adj v u ∧ SinkDistance G sinks u d} far.exists_adj
  exact ⟨p, adj, nearer, fun q adj' nearer' ↦ Nat.not_lt.1 (lowest q ⟨adj', nearer'⟩)⟩

/-! ## One node hears its neighbours -/

variable {said : Address → UInt8} {g : Gradient}

/-- Nothing that is heard is better than what the node knows. -/
theorem hearing_of_forall_le {neighbors : List Address}
    (worse : ∀ u ∈ neighbors, g.hop.toNat ≤ (said u).toNat) : g.hearing said neighbors = g := by
  induction neighbors with
  | nil => rfl
  | cons u rest ih =>
    rw [Gradient.hearing, List.foldl_cons, Gradient.consider_of_le (worse u List.mem_cons_self)]
    exact ih fun u hu ↦ worse u (List.mem_cons_of_mem _ hu)

/-- Of several neighbours that announce the best hop count the lowest is taken. -/
theorem hearing_of_lowest {neighbors : List Address}
    (ascending : neighbors.Pairwise fun a b ↦ a.toNat < b.toNat) (mem : p ∈ neighbors)
    (better : (said p).toNat < g.hop.toNat)
    (best : ∀ u ∈ neighbors, (said p).toNat ≤ (said u).toNat)
    (lower : ∀ u ∈ neighbors, u.toNat < p.toNat → g.hop.toNat ≤ (said u).toNat) :
    g.hearing said neighbors = { g with parent := some p, hop := said p } := by
  induction neighbors with
  | nil => cases mem
  | cons u rest ih =>
    obtain ⟨behind, ascending⟩ := List.pairwise_cons.1 ascending
    rw [Gradient.hearing, List.foldl_cons]
    rcases List.mem_cons.1 mem with rfl | later
    · rw [Gradient.consider_of_lt better]
      exact hearing_of_forall_le fun u hu ↦ best u (List.mem_cons_of_mem _ hu)
    · rw [Gradient.consider_of_le (lower u List.mem_cons_self (behind p later))]
      exact ih ascending later (fun u hu ↦ best u (List.mem_cons_of_mem _ hu))
        fun u hu ↦ lower u (List.mem_cons_of_mem _ hu)

/-- What a node announces while distances up to `most` are known. -/
theorem Stands.advertised (h : Stands G sinks most v g) (bound : most ≤ 254) :
    (∃ d ≤ most, SinkDistance G sinks v d ∧ g.advertised.toNat = d + 1) ∨
      (∀ d, SinkDistance G sinks v d → most < d) ∧ g.advertised.toNat = 255 := by
  cases h with
  | sink own => exact .inl ⟨0, Nat.zero_le _, sinkDistance_zero_iff.2 own, rfl⟩
  | @routed d p other distance near next =>
    refine .inl ⟨d, near, distance, ?_⟩
    rw [Gradient.toNat_advertised]
    simp
    omega
  | unrouted other far => exact .inr ⟨far, rfl⟩

/-- A node that knows its distance keeps it, and the parent. -/
theorem Stands.hearing_of_isRouted (h : Stands G sinks most v g) (bound : most ≤ 254)
    (known : g.isRouted = true) {neighbors : List Address}
    (heard : ∀ u ∈ neighbors, G.Adj v u ∧ ∃ g', Stands G sinks most u g' ∧ said u = g'.advertised) :
    g.hearing said neighbors = g := by
  apply hearing_of_forall_le
  intro u hu
  obtain ⟨adj, g', stands, announced⟩ := heard u hu
  rw [announced]
  cases h with
  | sink own => exact Nat.zero_le _
  | @routed d p other distance near next =>
    have small : (d.toUInt8).toNat = d := by
      simp
      omega
    simp only [small]
    rcases stands.advertised bound with ⟨e, -, distance', count⟩ | ⟨-, none⟩
    · obtain ⟨d', closer, distance''⟩ := distance'.le_succ adj
      obtain rfl := distance.unique distance''
      omega
    · omega
  | unrouted other far => cases known

/-- Around a node that does not know its distance yet, a neighbour either came to know its own in
the round before or knows nothing: if it were nearer it would have told the node earlier. -/
theorem Stands.advertised_of_far {r : Nat} (h : Stands G sinks (min r 254) u g)
    (far : ∀ d, SinkDistance G sinks v d → min r 254 < d) (adj : G.Adj v u) :
    SinkDistance G sinks u r ∧ r ≤ 254 ∧ g.advertised.toNat = r + 1 ∨
      ¬(SinkDistance G sinks u r ∧ r ≤ 254) ∧ g.advertised.toNat = 255 := by
  rcases h.advertised (Nat.min_le_right ..) with ⟨e, close, distance, count⟩ | ⟨far', count⟩
  · obtain ⟨d, closer, distance'⟩ := distance.le_succ adj
    have unknown := far d distance'
    by_cases small : r ≤ 254
    · obtain rfl : e = r := by omega
      exact .inl ⟨distance, small, count⟩
    · exact .inr ⟨fun both ↦ small both.2, by omega⟩
  · refine .inr ⟨fun both ↦ ?_, count⟩
    have unknown := far' r both.1
    omega

/-- From one round to the next the nodes that are one hop farther away come to know their distance.
-/
theorem Stands.hearing {r : Nat} (h : Stands G sinks (min r 254) v g) {neighbors : List Address}
    (ascending : neighbors.Pairwise fun a b ↦ a.toNat < b.toNat)
    (near : ∀ u, u ∈ neighbors ↔ G.Adj v u)
    (heard : ∀ u ∈ neighbors, ∃ g', Stands G sinks (min r 254) u g' ∧ said u = g'.advertised) :
    Stands G sinks (min (r + 1) 254) v (g.hearing said neighbors) := by
  have bound : min r 254 ≤ 254 := Nat.min_le_right ..
  have known (routed : g.isRouted = true) : g.hearing said neighbors = g :=
    h.hearing_of_isRouted bound routed fun u hu ↦ ⟨(near u).1 hu, heard u hu⟩
  cases h with
  | sink own =>
    rw [known rfl]
    exact .sink own
  | routed other distance close next =>
    rw [known rfl]
    exact .routed other distance (by omega) next
  | unrouted other far =>
    have none : Gradient.unrouted.hop.toNat = 255 := rfl
    have counts : ∀ u ∈ neighbors,
        SinkDistance G sinks u r ∧ r ≤ 254 ∧ (said u).toNat = r + 1 ∨
          ¬(SinkDistance G sinks u r ∧ r ≤ 254) ∧ (said u).toNat = 255 := by
      intro u hu
      obtain ⟨g', stands, announced⟩ := heard u hu
      rw [announced]
      exact stands.advertised_of_far far ((near u).1 hu)
    by_cases reached : SinkDistance G sinks v (r + 1) ∧ r + 1 ≤ 254
    · -- Who announces less than 255 is `r` hops away, and the lowest of them is heard first.
      obtain ⟨distance, small⟩ := reached
      obtain ⟨p, next⟩ := distance.exists_nextHop
      have mem := (near p).2 next.adj
      have count : (said p).toNat = r + 1 := by
        rcases counts p mem with ⟨-, -, count⟩ | ⟨unknown, -⟩
        · exact count
        · exact absurd ⟨next.nearer, by omega⟩ unknown
      have hop : said p = (r + 1).toUInt8 := by
        rw [← UInt8.toNat_inj, count]
        simp
        omega
      rw [hearing_of_lowest ascending mem, hop]
      · exact .routed other distance (by omega) next
      · omega
      · intro u hu
        have counted := counts u hu
        omega
      · intro u hu lower
        rcases counts u hu with ⟨nearer, -, -⟩ | ⟨-, count⟩
        · have lowest := next.lowest u ((near u).1 hu) nearer
          omega
        · omega
    · -- Only a neighbour that is 254 hops away may know its distance, and it announces 255.
      rw [hearing_of_forall_le]
      · refine .unrouted other fun d distance ↦ ?_
        have unknown := far d distance
        by_cases same : d = r + 1
        · subst same
          have large : ¬r + 1 ≤ 254 := fun small ↦ reached ⟨distance, small⟩
          omega
        · omega
      · intro u hu
        rcases counts u hu with ⟨nearer, small, count⟩ | ⟨-, count⟩
        · obtain ⟨d, closer, distance⟩ := nearer.le_succ ((near u).1 hu)
          have unknown := far d distance
          obtain rfl : d = r + 1 := by omega
          have large : ¬r + 1 ≤ 254 := fun small ↦ reached ⟨distance, small⟩
          omega
        · omega

end Distances

/-! ## Networks that are built link by link -/

namespace Network

/-- Who hears whom. -/
def graph (net : Network) : SimpleGraph Address := .fromRel net.board.Hears

/-- The sinks. -/
def sinks (net : Network) : Set Address :=
  {a | ∃ n, net.nodes.get? a = some n ∧ n.gradient.isSink = true}

/-- All nodes were just opened, and those that are linked hear each other. -/
structure Assembled (net : Network) : Prop where
  running : net.Running
  links : net.board.Mutual
  initial : ∀ a n, net.nodes.get? a = some n → n.gradient = .initial n.gradient.isSink

variable {net : Network}

private theorem Assembled.adj_iff (h : net.Assembled) (a b : Address) :
    net.graph.Adj a b ↔ net.board.Hears a b := by
  rw [graph, SimpleGraph.fromRel_adj]
  constructor
  · rintro ⟨-, hears | heard⟩
    · exact hears
    · exact h.links.symm b a heard
  · intro hears
    refine ⟨?_, .inl hears⟩
    rintro rfl
    exact h.links.irrefl a hears

private theorem Assembled.openNode (h : net.Assembled) (address : Address) (isSink : Bool)
    (config : NodeConfig) (source : Source) :
    (net.openNode address isSink config source).Assembled := by
  have puts := net.puts_openNode address isSink config source
  have hears : ∀ a b, (net.openNode address isSink config source).board.Hears a b ↔
      net.board.Hears a b := net.board.hears_register address
  refine ⟨⟨?_, puts.truthful h.running.truthful⟩, ⟨?_, ?_⟩, ?_⟩
  · rw [puts.nodes]
    apply Table.forall_get?_insert
    · rfl
    · exact fun a n _ present ↦ h.running.opened a n present
  · intro a b
    rw [hears, hears]
    exact h.links.symm a b
  · intro a
    rw [hears]
    exact h.links.irrefl a
  · rw [puts.nodes]
    apply Table.forall_get?_insert
    · cases isSink <;> rfl
    · exact fun a n _ present ↦ h.initial a n present

/-! ## Rounds -/

private theorem Running.discovered (h : net.Running) (r : Nat) :
    (net.discovered r).Running ∧ (net.discovered r).board.links = net.board.links := by
  induction r with
  | zero => exact ⟨h, rfl⟩
  | succ r ih => exact ⟨ih.1.discover, (links_discover ih.1).trans ih.2⟩

private theorem Running.around_discovered (h : net.Running) (r : Nat) (a : Address) :
    (net.discovered r).board.around a = net.board.around a := by
  rw [Board.around, Board.around, (h.discovered r).2]

/-- Nodes stay. -/
theorem Running.isSome_gradientAt? (h : net.Running) (r : Nat) (a : Address) :
    ((net.discovered r).gradientAt? a).isSome = (net.nodes.get? a).isSome := by
  induction r with
  | zero => exact Option.isSome_map
  | succ r ih =>
    rw [Network.discovered, gradientAt?_discover (h.discovered r).1, Option.isSome_map, ih]

/-- A node announces one hop more than it is away from the sink. -/
theorem Running.said (h : net.Running) {a : Address} {g : Gradient}
    (stands : net.gradientAt? a = some g) : net.board.said a = g.advertised := by
  obtain ⟨n, present, rfl⟩ := Option.map_eq_some_iff.1 stands
  rw [Board.said, h.truthful a, present, Option.bind_some, Node.announcement, h.opened a n present]
  rfl

section Rounds

variable (h : net.Assembled)
  (everyone : ∀ a, net.board.links.contains a = true → (net.nodes.get? a).isSome = true)

include h everyone

private theorem Assembled.isSome_of_adj {a b : Address} (adj : net.graph.Adj a b) :
    (net.nodes.get? b).isSome = true := by
  apply everyone
  have back := h.links.symm a b ((h.adj_iff a b).1 adj)
  rw [Board.Hears, Board.around] at back
  rw [Table.contains]
  cases known : net.board.links.get? b with
  | none =>
    rw [known] at back
    cases back
  | some neighbors => rfl

/-- What a node hears in a round is announced by neighbours that stand where they should. -/
theorem Assembled.heard {r most : Nat}
    (stands : ∀ u g, (net.discovered r).gradientAt? u = some g →
      Stands net.graph net.sinks most u g) (v : Address) :
    ∀ u ∈ ((net.discovered r).board.around v).keys, net.graph.Adj v u ∧
      ∃ g', Stands net.graph net.sinks most u g' ∧
        (net.discovered r).board.said u = g'.advertised := by
  intro u hu
  rw [h.running.around_discovered] at hu
  have adj := (h.adj_iff v u).2 hu
  have there := h.isSome_of_adj everyone adj
  rw [← h.running.isSome_gradientAt? r u, Option.isSome_iff_exists] at there
  obtain ⟨g', found⟩ := there
  exact ⟨adj, g', stands u g' found, (h.running.discovered r).1.said found⟩

/-- After so many rounds every node stands where its distance says. -/
theorem Assembled.stands (r : Nat) {v : Address} {g : Gradient}
    (found : (net.discovered r).gradientAt? v = some g) :
    Stands net.graph net.sinks (min r 254) v g := by
  induction r generalizing v g with
  | zero =>
    obtain ⟨n, present, rfl⟩ := Option.map_eq_some_iff.1 found
    rw [h.initial v n present]
    cases isSink : n.gradient.isSink with
    | true => exact .sink ⟨n, present, isSink⟩
    | false =>
      have other : v ∉ net.sinks := by
        rintro ⟨m, present', own⟩
        obtain rfl := Option.some.inj (present.symm.trans present')
        rw [isSink] at own
        cases own
      refine .unrouted other fun d distance ↦ ?_
      cases d with
      | zero => exact absurd (sinkDistance_zero_iff.1 distance) other
      | succ d => exact Nat.succ_pos d
  | succ r ih =>
    rw [discovered, gradientAt?_discover (h.running.discovered r).1] at found
    obtain ⟨g, before, rfl⟩ := Option.map_eq_some_iff.1 found
    have heard := h.heard everyone (fun u g ↦ ih (v := u) (g := g)) v
    apply (ih before).hearing
    · exact Table.pairwise_keys _
    · intro u
      rw [h.running.around_discovered]
      exact (h.adj_iff v u).symm
    · exact fun u hu ↦ (heard u hu).2

/-- A node that knows its distance keeps it, and the parent. -/
theorem Assembled.keeps {r : Nat} {v : Address} {g : Gradient}
    (found : (net.discovered r).gradientAt? v = some g) (known : g.isRouted = true) (more : Nat) :
    (net.discovered (r + more)).gradientAt? v = some g := by
  induction more with
  | zero => exact found
  | succ more ih =>
    have stands := fun u g ↦ h.stands everyone (r + more) (v := u) (g := g)
    rw [← Nat.add_assoc, discovered, gradientAt?_discover (h.running.discovered _).1, ih,
      Option.map_some]
    rw [(stands v g ih).hearing_of_isRouted (Nat.min_le_right ..) known
      (h.heard everyone stands v)]

end Rounds

end Network

namespace Discovery

/-- Acts that take place before the first round: nodes are opened, and come to hear each other. -/
def Act.isSetup : Act → Bool
  | .join _ _ _ _ | .connect _ _ => true
  | .leave _ | .round | .deliver _ => false

/-- What is built from a line of so many addresses, or from nothing if it has none. -/
def built (medium : Medium) (line : UInt16) (acts : List Act) : Network :=
  ((start medium (Board.line line.toNat).links).run acts).network

variable {d : Discovery} {medium : Medium} {line : UInt16} {acts : List Act}

private theorem assembled_start (medium : Medium) (line : UInt16) :
    (start medium (Board.line line.toNat).links).network.Assembled := by
  refine ⟨⟨?_, fun _ ↦ rfl⟩, Board.mutual_line (Nat.le_of_lt line.toNat_lt), ?_⟩
  · intro a n present
    cases present
  · intro a n present
    cases present

private theorem assembled_step (h : d.network.Assembled) {act : Act} (setup : act.isSetup = true) :
    (d.step act).network.Assembled := by
  cases act with
  | join address isSink config source =>
    simp only [step]
    split
    · exact h
    · exact h.openNode address isSink config source
  | connect a b =>
    simp only [step, Network.connect]
    cases linked : d.network.board.connect a b with
    | error cause => exact h
    | ok board =>
      have same : board.announced = d.network.board.announced := (Board.hears_connect linked).2.1
      refine ⟨⟨h.running.opened, fun x ↦ ?_⟩, h.links.connect linked, h.initial⟩
      exact (congrArg (Table.get? · x) same).trans (h.running.truthful x)
  | leave | round | deliver => cases setup

private theorem assembled_built (setup : ∀ act ∈ acts, act.isSetup = true) :
    (built medium line acts).Assembled := by
  have from' {d : Discovery} (h : d.network.Assembled) : (d.run acts).network.Assembled := by
    induction acts generalizing d with
    | nil => exact h
    | cons act rest ih =>
      exact ih (fun a ha ↦ setup a (List.mem_cons_of_mem _ ha))
        (assembled_step h (setup act List.mem_cons_self))
  exact from' (assembled_start medium line)

/-- After so many rounds, every node that is at most as many hops away from a sink, and at most 254,
has its distance as hop count and the lowest of its neighbours that are one hop nearer as parent;
all other nodes but the sinks have neither. In further rounds nothing changes for whoever knows its
distance. -/
theorem shortestPaths_discovered (setup : ∀ act ∈ acts, act.isSetup = true)
    (everyone : ∀ a, (built medium line acts).board.links.contains a = true →
      ((built medium line acts).nodes.get? a).isSome = true) (r : Nat) :
    let net := built medium line acts
    (∀ v n, net.nodes.get? v = some n → n.gradient.isSink = false →
      ∃ n', (net.discovered r).nodes.get? v = some n' ∧
        (∀ d, SinkDistance net.graph net.sinks v d → d ≤ min r 254 →
          n'.gradient.hop.toNat = d ∧
            ∃ p, n'.gradient.parent = some p ∧ NextHop net.graph net.sinks v d p) ∧
        ((¬∃ d ≤ min r 254, SinkDistance net.graph net.sinks v d) →
          n'.gradient.hop.toNat = 255 ∧ n'.gradient.parent = none)) ∧
    ∀ v n, (net.discovered r).nodes.get? v = some n → n.gradient.isRouted = true → ∀ more,
      ∃ n', (net.discovered (r + more)).nodes.get? v = some n' ∧ n'.gradient = n.gradient ∧
        (net.discovered (r + more)).board.announcedBy v =
          (net.discovered r).board.announcedBy v := by
  intro net
  have h : net.Assembled := assembled_built setup
  constructor
  · intro v n present opened
    have there := h.running.isSome_gradientAt? r v
    rw [present, Option.isSome_some, Option.isSome_iff_exists] at there
    obtain ⟨g, found⟩ := there
    obtain ⟨n', present', same⟩ := Option.map_eq_some_iff.1 found
    have stands := same ▸ h.stands everyone r found
    refine ⟨n', present', ?_⟩
    generalize n'.gradient = g' at stands
    cases stands with
    | sink own =>
      obtain ⟨m, present', sink⟩ := own
      obtain rfl := Option.some.inj (present.symm.trans present')
      rw [opened] at sink
      cases sink
    | @routed d p other distance near next =>
      have hop : d.toUInt8.toNat = d := by
        simp
        omega
      refine ⟨fun d' distance' _ ↦ ?_, fun none ↦ (none ⟨d, near, distance⟩).elim⟩
      obtain rfl := distance.unique distance'
      exact ⟨hop, p, rfl, next⟩
    | unrouted other far =>
      refine ⟨fun d distance near ↦ ?_, fun _ ↦ ⟨rfl, rfl⟩⟩
      exact absurd (far d distance) (Nat.not_lt.2 near)
  · intro v n present known more
    have kept := h.keeps everyone (r := r) (v := v) (g := n.gradient)
      (by rw [Network.gradientAt?, present]; rfl) known more
    obtain ⟨n', present', same⟩ := Option.map_eq_some_iff.1 kept
    refine ⟨n', present', same, ?_⟩
    have before := (h.running.discovered r).1
    have after := (h.running.discovered (r + more)).1
    rw [before.truthful, after.truthful, present, present']
    simp [Node.announcement, same, before.opened v n present, after.opened v n' present']

/-- Nodes 0 to 3 in a line, nodes 4 and 5 next to both ends of it, and node 7 on its own. Node 0 is
the sink. -/
def threeWays : List Act :=
  let node (i : Nat) : Act := .join (.ofNat i) (i = 0) {} (.ofList [])
  [node 3, .connect (.ofNat 0) (.ofNat 5), .connect (.ofNat 3) (.ofNat 5), node 0, node 1, node 2,
    node 4, node 5, node 7, .connect (.ofNat 4) (.ofNat 3), .connect (.ofNat 4) (.ofNat 0),
    .connect (.ofNat 0) (.ofNat 0)]

/-- A medium that nothing is sent on. -/
def silent : Medium := { source := .ofList [], loss := .ofNumber (.ofDecimal false 0 0) }

/-- Node 3 is two hops away, and node 4 is the lowest of its two neighbours that are one hop away.
-/
theorem shortestPaths_threeWays :
    let net := built silent 4 threeWays
    (∀ act ∈ threeWays, act.isSetup = true) ∧
      (∀ a, net.board.links.contains a = true → (net.nodes.get? a).isSome = true) ∧
      SinkDistance net.graph net.sinks (.ofNat 3) 2 ∧
      NextHop net.graph net.sinks (.ofNat 3) 2 (.ofNat 4) := by
  intro net
  have setup : ∀ act ∈ threeWays, act.isSetup = true := by decide
  have everyone : ∀ a, net.board.links.contains a = true → (net.nodes.get? a).isSome = true := by
    have listed : ∀ a ∈ net.board.links.keys, (net.nodes.get? a).isSome = true := by
      decide +kernel
    exact fun a known ↦ listed a (Table.mem_keys_iff.2 known)
  have before : net.gradientAt? (.ofNat 3) = some .unrouted := by decide +kernel
  have after : (net.discovered 2).gradientAt? (.ofNat 3) = some ⟨some (.ofNat 4), 2, false⟩ := by
    decide +kernel
  obtain ⟨n, present, unrouted⟩ := Option.map_eq_some_iff.1 before
  obtain ⟨n', present', routed⟩ := Option.map_eq_some_iff.1 after
  obtain ⟨last, there, near, far⟩ :=
    (shortestPaths_discovered setup everyone 2).1 (.ofNat 3) n present
      (congrArg Gradient.isSink unrouted)
  obtain rfl := Option.some.inj (present'.symm.trans there)
  rw [routed] at near far
  have reached : ∃ d ≤ min 2 254, SinkDistance net.graph net.sinks (.ofNat 3) d := by
    by_contra none
    cases (far none).2
  obtain ⟨d, close, distance⟩ := reached
  obtain ⟨rfl, p, same, next⟩ := near d distance close
  obtain rfl := Option.some.inj same
  exact ⟨setup, everyone, distance, next⟩

end Discovery
end CollectionTree
