import CollectionTree.Proofs.Node.Closing
import CollectionTree.Proofs.Topology.Route

/-!
# Where a node's route comes from

Of all that is done to a node, only what it hears of its neighbours moves it: as long as it is open,
its place in the tree is what it heard in order makes of it, and every time it takes a parent it
announces its new hop count, once. `route_of_heard` states the place and the announcements in closed
form.
-/

namespace CollectionTree
namespace Node

/-- The neighbour that is heard in an act, and what it announces. -/
def Act.heard? : Act → Option (Address × UInt8)
  | .beacon (.heard neighbor hop) => some (neighbor, hop)
  | .beacon .tick | .sow _ _ _ _ | .flush _ _ | .bind _ | .unbind _ | .signal _ _ | .nextDelay
  | .close => none

/-- The neighbours that are heard in some acts, and what they announce, in order. -/
def heardIn (acts : List Act) : List (Address × UInt8) := acts.filterMap Act.heard?

/-- The hop counts that a node wants announced, in order. -/
def announcedIn (outputs : List Output) : List UInt8 :=
  outputs.filterMap fun
    | .start hop | .announce hop => some hop
    | .stop | .offer _ _ | .consume _ _ _ => none

/-- A step leaves a node in its place, and announces nothing. -/
structure Stays {α : Type} (n : Node) (r : Reaction α Node Output) : Prop where
  gradient : r.state.gradient = n.gradient
  silent : announcedIn r.outputs = []

variable {n : Node} {act : Act}

private theorem announcedIn_append (outputs more : List Output) :
    announcedIn (outputs ++ more) = announcedIn outputs ++ announcedIn more :=
  List.filterMap_append

private theorem heardIn_cons_of_none (none : act.heard? = none) (rest : List Act) :
    heardIn (act :: rest) = heardIn rest :=
  List.filterMap_cons_none none

private theorem heardIn_cons_of_some {e : Address × UInt8} (heard : act.heard? = some e)
    (rest : List Act) :
    heardIn (act :: rest) = e :: heardIn rest :=
  List.filterMap_cons_some heard

/-! ## One act -/

private theorem announcedIn_consumption (accs : List Accumulator) :
    announcedIn (consumption accs) = [] := by
  apply List.filterMap_eq_nil_iff.2
  intro output mem
  obtain ⟨acc, -, mem⟩ := List.mem_flatMap.1 mem
  obtain ⟨r, -, rfl⟩ := List.mem_map.1 mem
  rfl

private theorem stays_send (n : Node) (radio : Radio) (parent : Address) (urgent : Bool) :
    n.Stays (n.send radio parent urgent) := by
  have stands : (n.buildFrame urgent).2.gradient = n.gradient := rfl
  unfold send
  generalize n.buildFrame urgent = built at stands
  obtain ⟨builder, gathered⟩ := built
  dsimp only
  split
  · split <;> exact ⟨stands, rfl⟩
  · exact ⟨stands, rfl⟩

private theorem stays_flush (n : Node) (radio : Radio) (urgent : Bool) :
    n.Stays (n.flush radio urgent) := by
  unfold flush
  split
  · exact ⟨rfl, rfl⟩
  · split
    · exact ⟨rfl, announcedIn_consumption n.accumulators⟩
    · split
      · exact ⟨rfl, rfl⟩
      · next parent route =>
        split
        · exact ⟨rfl, rfl⟩
        · cases urgent with
          | false => exact n.stays_send radio parent false
          | true =>
            have sent := n.backOff.2.stays_send radio parent true
            simp only [if_true]
            split
            · exact ⟨rfl, rfl⟩
            · exact ⟨sent.gradient, sent.silent⟩

private theorem stays_onSignal (running : n.closed = false) (radio : Radio) (signal : Signal) :
    n.Stays (n.onSignal radio signal) := by
  cases signal with
  | sent target retries =>
    rw [onSignal_sent running]
    exact ⟨rfl, rfl⟩
  | timedOut target retries =>
    rw [onSignal_timedOut running]
    exact ⟨rfl, rfl⟩
  | received sender payload =>
    rw [onSignal_received running]
    have flushed := (n.takingIn payload).stays_flush radio true
    exact ⟨flushed.gradient.trans (n.gradient_takingIn payload), flushed.silent⟩

/-- An act in which no neighbour is heard leaves an open node in its place. -/
theorem stays_perform (running : n.closed = false) (none : act.heard? = none) :
    n.Stays (n.perform act) := by
  cases act with
  | sow id elapsed key value => exact ⟨(n.sow_keeps id elapsed key value).1, rfl⟩
  | flush radio urgent =>
    have flushed := n.stays_flush radio urgent
    exact ⟨flushed.gradient, flushed.silent⟩
  | bind acc =>
    cases bound : n.bind acc with
    | error cause =>
      rw [perform_bind_of_error bound]
      exact ⟨rfl, rfl⟩
    | ok n' =>
      rw [perform_bind_of_ok bound]
      obtain ⟨-, rfl⟩ := bind_eq_ok bound
      exact ⟨rfl, rfl⟩
  | unbind id =>
    cases taken : n.unbind id with
    | none =>
      rw [perform_unbind_of_none taken]
      exact ⟨rfl, rfl⟩
    | some pair =>
      obtain ⟨acc, n'⟩ := pair
      rw [perform_unbind_of_some taken]
      obtain ⟨before, after, -, -, -, rfl⟩ := unbind_eq_some taken
      exact ⟨rfl, rfl⟩
  | signal radio signal => exact stays_onSignal running radio signal
  | beacon beacon =>
    cases beacon with
    | heard neighbor hop => cases none
    | tick =>
      rw [perform, onBeacon_tick running]
      exact ⟨rfl, rfl⟩
  | nextDelay => exact ⟨rfl, rfl⟩
  | close =>
    rw [perform, close_of_running running]
    exact ⟨rfl, rfl⟩

private theorem eq_of_heard? {e : Address × UInt8} (heard : act.heard? = some e) :
    act = .beacon (.heard e.1 e.2) := by
  cases act with
  | beacon beacon =>
    cases beacon with
    | heard neighbor hop =>
      obtain rfl := Option.some.inj heard
      rfl
    | tick => cases heard
  | sow | flush | bind | unbind | signal | nextDelay | close => cases heard

/-- An act that moves a node makes it announce its new hop count, and nothing else. -/
theorem perform_cases (running : n.closed = false) (act : Act) :
    (n.perform act).state.gradient = n.gradient ∧ announcedIn (n.perform act).outputs = [] ∨
      (n.perform act).state.gradient ≠ n.gradient ∧
        (n.perform act).outputs = [.announce (n.perform act).state.gradient.advertised] := by
  cases heard : act.heard? with
  | none =>
    have stays := stays_perform running heard
    exact .inl ⟨stays.gradient, stays.silent⟩
  | some e =>
    obtain rfl := eq_of_heard? heard
    by_cases better : e.2.toNat < n.gradient.hop.toNat
    · have moved : { n.gradient with parent := some e.1, hop := e.2 } ≠ n.gradient :=
        fun same ↦ Nat.ne_of_lt better (congrArg (·.hop.toNat) same)
      rw [perform, onBeacon_heard_of_lt running better]
      exact .inr ⟨moved, rfl⟩
    · rw [perform, onBeacon_heard_of_le running (Nat.not_lt.1 better)]
      exact .inl ⟨rfl, rfl⟩

/-! ## A node's life -/

private theorem running_of_performed {acts : List Act}
    (running : (n.performed acts).closed = false) :
    n.closed = false := by
  cases shut : n.closed with
  | false => rfl
  | true =>
    rw [(performed_of_closed shut acts).2.1] at running
    cases running

/-- As long as it is open, a node stands where what it heard puts it, and announces one hop more for
every neighbour that it takes as parent. -/
theorem routed_performed {acts : List Act} (running : (n.performed acts).closed = false) :
    (n.performed acts).gradient = n.gradient.afterAll (heardIn acts) ∧
      (announcedIn (n.wanted acts)).map UInt8.toNat =
        (Gradient.adopted n.gradient.hop.toNat (heardIn acts)).map
          fun e ↦ min 255 (e.2.toNat + 1) := by
  induction acts generalizing n with
  | nil => exact ⟨rfl, rfl⟩
  | cons act rest ih =>
    have running' := running_of_performed running
    obtain ⟨place, announced⟩ := ih (n := (n.perform act).state) running
    rw [performed_cons, wanted, announcedIn_append, List.map_append, place, announced]
    cases heard : act.heard? with
    | none =>
      have stays := stays_perform running' heard
      rw [heardIn_cons_of_none heard, stays.silent, stays.gradient]
      exact ⟨rfl, rfl⟩
    | some e =>
      obtain rfl := eq_of_heard? heard
      rw [heardIn_cons_of_some heard, Gradient.afterAll_cons]
      by_cases better : e.2.toNat < n.gradient.hop.toNat
      · rw [perform, onBeacon_heard_of_lt running' better, Gradient.consider_of_lt better,
          Gradient.adopted_cons_of_lt better, List.map_cons]
        refine ⟨rfl, ?_⟩
        exact congrArg (· :: _) (Gradient.toNat_advertised _)
      · rw [perform, onBeacon_heard_of_le running' (Nat.not_lt.1 better),
          Gradient.consider_of_le (Nat.not_lt.1 better),
          Gradient.adopted_cons_of_le (Nat.not_lt.1 better)]
        exact ⟨rfl, rfl⟩

/-- A node announces one hop more than each hop count that it had, the first one included. -/
theorem announced_opened {address : Address} {isSink : Bool} {config : NodeConfig} {source : Source}
    {acts : List Act}
    (running : ((opened address isSink config source).state.performed acts).closed = false) :
    (announcedIn ((opened address isSink config source).outputs ++
        (opened address isSink config source).state.wanted acts)).map UInt8.toNat =
      ((Gradient.initial isSink).hop.toNat ::
        (Gradient.adopted (Gradient.initial isSink).hop.toNat (heardIn acts)).map
          fun e ↦ e.2.toNat).map fun hop ↦ min 255 (hop + 1) := by
  show (announcedIn ([.start _] ++ _)).map UInt8.toNat = _
  rw [announcedIn_append, List.map_append, (routed_performed running).2, List.map_cons,
    List.map_map]
  exact congrArg (· :: _) (Gradient.toNat_advertised _)

/-- Whatever is done to a node that is still open afterwards. Unless it is the sink, its hop count
is the least of 255 and all hop counts that it heard, and its parent is the neighbour that was the
first to announce it; a node at 255 has no parent. The sink stays at 0, and never has one. A node
announces one hop more than its own, but at most 255: when it is opened, and once in every act that
gives it a parent, which is one in which it hears less than ever before. So what it announces never
rises, and what it announced last is true. -/
theorem route_of_heard {address : Address} {isSink : Bool} {config : NodeConfig} {source : Source}
    {acts : List Act}
    (running : ((opened address isSink config source).state.performed acts).closed = false) :
    let start := opened address isSink config source
    let n := start.state.performed acts
    let heard := heardIn acts
    let announced := (announcedIn (start.outputs ++ start.state.wanted acts)).map UInt8.toNat
    (isSink = false →
      (255 :: heard.map fun e ↦ e.2.toNat).min? = some n.gradient.hop.toNat ∧
      n.gradient.parent =
        (if n.gradient.hop = unroutedHop then none
        else (heard.find? fun e ↦ e.2 = n.gradient.hop).map Prod.fst) ∧
      announced = 255 :: (Gradient.adopted 255 heard).map fun e ↦ min 255 (e.2.toNat + 1)) ∧
    (isSink = true → n.gradient.hop = 0 ∧ n.gradient.parent = none ∧ announced = [1]) ∧
    (∀ act, (n.perform act).state.gradient = n.gradient →
      announcedIn (n.perform act).outputs = []) ∧
    (∀ act, (n.perform act).state.gradient ≠ n.gradient → ∃ hop,
      (n.perform act).outputs = [.announce hop] ∧
        hop.toNat = min 255 ((n.perform act).state.gradient.hop.toNat + 1)) ∧
    announced.Pairwise (· ≥ ·) ∧
    announced.getLast? = some (min 255 (n.gradient.hop.toNat + 1)) := by
  intro start n heard announced
  have place := (routed_performed running).1
  have hops : announced = _ := announced_opened running
  refine ⟨?_, ?_, fun act ↦ ?_, fun act ↦ ?_, ?_, ?_⟩
  · rintro rfl
    refine ⟨?_, ?_, ?_⟩
    · rw [place, Gradient.toNat_hop_afterAll]
      exact List.min?_cons'
    · rw [place]
      exact Gradient.parent_afterAll .unrouted heard
    · rw [hops, List.map_cons, List.map_map]
      rfl
  · rintro rfl
    have least : n.gradient.hop = 0 := by
      rw [← UInt8.toNat_inj, place]
      exact Nat.le_zero.1 (Gradient.toNat_hop_afterAll_le .sink heard)
    refine ⟨least, ?_, ?_⟩
    · rw [place] at least ⊢
      exact (Gradient.parent_afterAll .sink heard).trans (if_pos least)
    · rw [hops]
      show List.map _ (0 :: (Gradient.adopted 0 heard).map _) = _
      rw [Gradient.adopted_zero]
      rfl
  · rcases perform_cases running act with ⟨-, silent⟩ | ⟨moved, -⟩
    · exact fun _ ↦ silent
    · exact fun same ↦ absurd same moved
  · rcases perform_cases running act with ⟨same, -⟩ | ⟨-, tells⟩
    · exact fun moved ↦ absurd same moved
    · exact fun _ ↦ ⟨_, tells, Gradient.toNat_advertised _⟩
  · rw [hops, List.pairwise_map]
    refine (Gradient.pairwise_adopted _ heard).imp fun {hop hop'} lower ↦ ?_
    omega
  · rw [hops, List.getLast?_map, Gradient.getLast?_adopted, place]
    rfl

/-- What is done to a node that hears of three neighbours, each of which may be its parent. -/
def threeParents : List Act :=
  [.beacon (.heard (.ofNat 7) 3), .flush idleRadio true, .beacon (.heard (.ofNat 8) 3),
    .beacon .tick, .beacon (.heard (.ofNat 8) 6), .nextDelay, .beacon (.heard (.ofNat 9) 1),
    .signal idleRadio (.received (.ofNat 3) [0, 0]), .beacon (.heard (.ofNat 7) 1)]

/-- Of two neighbours that announce the least hop count the one that was heard first is the parent.
-/
theorem route_of_heard_threeParents :
    ((opened (.ofNat 2) false {} (.ofList [])).state.performed threeParents).closed = false ∧
      ((opened (.ofNat 2) false {} (.ofList [])).state.performed threeParents).gradient.hop = 1 ∧
      ((opened (.ofNat 2) false {} (.ofList [])).state.performed threeParents).gradient.parent =
        some (.ofNat 9) ∧
      (announcedIn ((opened (.ofNat 2) false {} (.ofList [])).outputs ++
        (opened (.ofNat 2) false {} (.ofList [])).state.wanted threeParents)).map UInt8.toNat =
        [255, 4, 2] := by
  have running :
      ((opened (.ofNat 2) false {} (.ofList [])).state.performed threeParents).closed = false := by
    decide +kernel
  obtain ⟨least, parent, announced⟩ := (route_of_heard running).1 rfl
  have lowest : (255 :: (heardIn threeParents).map fun e ↦ e.2.toNat).min? = some 1 := by decide
  have told : 255 :: (Gradient.adopted 255 (heardIn threeParents)).map
      (fun e ↦ min 255 (e.2.toNat + 1)) = [255, 4, 2] := by decide
  rw [told] at announced
  generalize (opened (.ofNat 2) false {} (.ofList [])).state.performed threeParents = n
    at running least parent ⊢
  have hop : n.gradient.hop = 1 :=
    UInt8.toNat_inj.1 (Option.some.inj (least.symm.trans lowest))
  rw [hop] at parent
  exact ⟨running, hop, parent.trans (by decide), announced⟩

end Node
end CollectionTree
