import CollectionTree.Proofs.Node.Acts
import CollectionTree.Proofs.Node.Loading

/-!
# Flushes that come to nothing

A flush marks records before it knows whether there is a frame and whether the radio takes it. Where
it answers that no frame was taken, it leaves the node as it was, but for the draw of an urgent
flush (`state_flush_of_false`). A frame that was refused or given up is sent again byte by byte by
the next flush of the same kind (`retry_offers_same_frame`), since it depends on the records and the
settings only.
-/

namespace CollectionTree
namespace Node

/-- No record is on its way in a frame. -/
def AllReady (n : Node) : Prop := ∀ acc ∈ n.accumulators, Accumulator.pending acc.records = []

variable {n m : Node} {radio : Radio} {parent : Address} {urgent : Bool}

/-! ## The frame of a flush -/

/-- The frame of the ready records, if it is worth sending. -/
def frameFor? (n : Node) (parent : Address) (urgent : Bool) : Option Outgoing :=
  if (n.buildFrame urgent).1.isWorthSending then
    some ⟨parent, (n.buildFrame urgent).1.finish, n.config.maxRetries⟩
  else none

/-- The frame depends on the accumulators and the settings only. -/
theorem frameFor?_congr (accumulators : m.accumulators = n.accumulators)
    (config : m.config = n.config) : m.frameFor? parent urgent = n.frameFor? parent urgent := by
  unfold frameFor? buildFrame
  rw [accumulators, config]

private theorem target_of_frameFor? {frame : Outgoing}
    (h : n.frameFor? parent urgent = some frame) :
    frame.target = parent := by
  unfold frameFor? at h
  split at h
  · obtain rfl := Option.some.inj h
    rfl
  · cases h

/-- Where a frame is not worth sending, no record was marked for it. -/
theorem buildFrame_of_not_worth (h : ¬(n.buildFrame urgent).1.isWorthSending = true) :
    (n.buildFrame urgent).2 = n := by
  obtain ⟨shares, loads, holds, -, -, marked⟩ := loads_buildFrame n urgent
  rw [holds.isWorthSending_iff, not_not] at h
  rw [marked, loads.markShares_eq_self h]

/-- Taking back the marks of a frame takes back all marks. -/
theorem releasePending_buildFrame (n : Node) (urgent : Bool) :
    (n.buildFrame urgent).2.releasePending = n.releasePending := by
  obtain ⟨shares, loads, -, -, -, marked⟩ := loads_buildFrame n urgent
  rw [marked]
  simp only [releasePending, loads.map_releasePending_markShares]

private theorem AllReady.releasePending (h : n.AllReady) : n.releasePending = n := by
  have same : n.accumulators.map Accumulator.releasePending = n.accumulators := by
    conv_rhs => rw [← List.map_id n.accumulators]
    apply List.map_congr_left
    intro acc hacc
    rw [Accumulator.releasePending, Accumulator.map_unmark_of_pending_eq_nil (h acc hacc)]
    rfl
  rw [Node.releasePending, same]

private theorem send_of_none (h : n.frameFor? parent urgent = none) :
    n.send radio parent urgent = ⟨false, n, []⟩ := by
  unfold frameFor? at h
  split at h
  · cases h
  · next idle =>
    unfold send
    simp only [if_neg idle, buildFrame_of_not_worth idle]

private theorem send_of_some {frame : Outgoing} (h : n.frameFor? parent urgent = some frame) :
    n.send radio parent urgent =
      if radio.accepts frame then ⟨true, (n.buildFrame urgent).2, [.offer frame true]⟩
      else ⟨false, n.releasePending, [.offer frame false]⟩ := by
  unfold frameFor? at h
  split at h
  · next worth =>
    obtain rfl := Option.some.inj h
    unfold send
    simp only [if_pos worth, releasePending_buildFrame]
  · cases h

/-! ## What comes of a flush -/

/-- A flush that is held back asks for nothing, and draws at most. -/
theorem flush_of_hindered (inner : n.gradient.isSink = false)
    (h : ∀ parent, ¬n.Unhindered radio parent urgent) :
    (n.flush radio urgent).answer = false ∧ (n.flush radio urgent).outputs = [] ∧
      ((n.flush radio urgent).state = n ∨ (n.flush radio urgent).state = n.drawn urgent) := by
  unfold flush
  split
  · exact ⟨rfl, rfl, .inl rfl⟩
  · next opened =>
    rw [if_neg (by simp [inner])]
    split
    · exact ⟨rfl, rfl, .inl rfl⟩
    · next parent route =>
      split
      · exact ⟨rfl, rfl, .inl rfl⟩
      · next free =>
        simp only [Bool.not_eq_true] at opened free
        cases urgent with
        | false => exact absurd ⟨opened, inner, route, free, nofun⟩ (h parent)
        | true =>
          cases skip : n.backOff.1 with
          | false => exact absurd ⟨opened, inner, route, free, fun _ ↦ skip⟩ (h parent)
          | true =>
            simp only [skip, if_true]
            exact ⟨trivial, trivial, .inr rfl⟩

/-- A draw does not change which frame a node would send. -/
@[simp] theorem frameFor?_drawn (n : Node) (parent : Address) (urgent : Bool) :
    (n.drawn urgent).frameFor? parent urgent = n.frameFor? parent urgent := by
  apply frameFor?_congr
  · exact n.accumulators_drawn urgent
  · exact n.config_drawn urgent

private theorem AllReady.drawn (h : n.AllReady) (urgent : Bool) : (n.drawn urgent).AllReady := by
  intro acc hacc
  rw [accumulators_drawn] at hacc
  exact h acc hacc

private theorem Unhindered.flush_of_none (h : n.Unhindered radio parent urgent)
    (none : n.frameFor? parent urgent = none) :
    n.flush radio urgent = ⟨false, n.drawn urgent, []⟩ := by
  rw [h.flush_eq]
  apply send_of_none
  rw [frameFor?_drawn, none]

private theorem Unhindered.flush_of_some (h : n.Unhindered radio parent urgent) {frame : Outgoing}
    (some : n.frameFor? parent urgent = some frame) :
    n.flush radio urgent =
      if radio.accepts frame then
        ⟨true, ((n.drawn urgent).buildFrame urgent).2, [.offer frame true]⟩
      else ⟨false, (n.drawn urgent).releasePending, [.offer frame false]⟩ := by
  rw [h.flush_eq]
  apply send_of_some
  rw [frameFor?_drawn, some]

private theorem Unhindered.offers (h : n.Unhindered radio parent urgent) {frame : Outgoing}
    (some : n.frameFor? parent urgent = some frame) :
    (n.flush radio urgent).outputs = [.offer frame (radio.accepts frame)] ∧
      (n.flush radio urgent).answer = radio.accepts frame := by
  rw [h.flush_of_some some]
  cases radio.accepts frame with
  | true => exact ⟨rfl, rfl⟩
  | false => exact ⟨rfl, rfl⟩

/-- A flush offers the frame of the ready records to the parent, and says whether it was taken. -/
theorem flush_of_offer (inner : n.gradient.isSink = false) {frame : Outgoing} {accepted : Bool}
    (offered : (n.flush radio urgent).outputs = [.offer frame accepted]) :
    n.Unhindered radio frame.target urgent ∧ n.frameFor? frame.target urgent = some frame ∧
      accepted = radio.accepts frame := by
  by_cases sends : ∃ parent, n.Unhindered radio parent urgent
  · obtain ⟨parent, free⟩ := sends
    cases built : n.frameFor? parent urgent with
    | none =>
      rw [free.flush_of_none built] at offered
      cases offered
    | some other =>
      have same := (free.offers built).1.symm.trans offered
      simp only [List.cons.injEq, Output.offer.injEq, and_true] at same
      obtain ⟨rfl, rfl⟩ := same
      rw [target_of_frameFor? built]
      exact ⟨free, built, rfl⟩
  · rw [(flush_of_hindered inner (not_exists.1 sends)).2.1] at offered
    cases offered

/-- A flush that answers that no frame was taken leaves the node as it was: all records with their
values, marks and order, the ledger, the gradient and the counters. Only the draw that an urgent
flush starts with may have been made. It asks for nothing that was granted. -/
theorem state_flush_of_false (inner : n.gradient.isSink = false)
    (allReady : radio.busy = false → n.AllReady) (failed : (n.flush radio urgent).answer = false) :
    ((n.flush radio urgent).state = n ∨
        urgent = true ∧ (n.flush radio urgent).state =
          { n with gate := n.backOff.2.gate, source := n.backOff.2.source }) ∧
      ∀ frame, .offer frame true ∉ (n.flush radio urgent).outputs := by
  have at_most_drawn {state : Node} (h : state = n ∨ state = n.drawn urgent) :
      state = n ∨ urgent = true ∧
        state = { n with gate := n.backOff.2.gate, source := n.backOff.2.source } := by
    cases urgent with
    | false => exact .inl (h.elim id id)
    | true => exact h.imp id fun drawn ↦ ⟨rfl, drawn⟩
  by_cases sends : ∃ parent, n.Unhindered radio parent urgent
  · obtain ⟨parent, free⟩ := sends
    cases built : n.frameFor? parent urgent with
    | none =>
      rw [free.flush_of_none built]
      exact ⟨at_most_drawn (.inr rfl), fun _ ↦ List.not_mem_nil⟩
    | some frame =>
      rw [free.flush_of_some built] at failed ⊢
      split at failed
      · cases failed
      · next refused =>
        rw [if_neg refused, ((allReady free.free).drawn urgent).releasePending]
        exact ⟨at_most_drawn (.inr rfl), by simp⟩
  · obtain ⟨-, outputs, state⟩ := flush_of_hindered inner (not_exists.1 sends)
    rw [outputs]
    exact ⟨at_most_drawn state, fun _ ↦ List.not_mem_nil⟩

/-- A node with more urgent records in two accumulators than fit into one of its frames. Its first
draw has it skip an urgent flush under congestion, and its second does not. -/
def twoQueues : Node where
  address := .ofNat 2
  gradient := ⟨some (.ofNat 1), 1, false⟩
  config := { maxPayload := 20 }
  source := .ofList [0, 0xFFFFFFFFFFFFFFFF]
  ledger := { allocated := 53 }
  accumulators :=
    [{ id := 1, job := Bytewise.alarm, records := [⟨[97], [1], ⟨true, true, false⟩⟩] },
      { id := 2, job := Bytewise.alarm, records := [⟨[98], [2, 3], ⟨true, true, false⟩⟩,
        ⟨[99], [4], .storedOnly⟩, ⟨[100], [5], ⟨true, true, false⟩⟩,
        ⟨[101], [6], ⟨true, true, false⟩⟩] }]

private theorem allReady_twoQueues : twoQueues.AllReady := by
  unfold AllReady
  decide

/-- A radio that refuses every frame. -/
def refusingRadio : Radio := ⟨false, fun _ ↦ false⟩

/-- The frame of the first records of both accumulators is refused, and the node is as before. -/
theorem state_flush_twoQueues :
    twoQueues.gradient.isSink = false ∧ twoQueues.AllReady ∧
      (twoQueues.flush refusingRadio true).answer = false ∧
      (twoQueues.flush refusingRadio true).outputs =
        [.offer ⟨.ofNat 1, [1, 2, 1, 6, 1, 1, 97, 1, 2, 11, 1, 2, 98, 2, 3, 1, 1, 100, 5], 4⟩
          false] ∧
      ((twoQueues.flush refusingRadio true).state = twoQueues ∨
        true = true ∧ (twoQueues.flush refusingRadio true).state =
          { twoQueues with
            gate := twoQueues.backOff.2.gate
            source := twoQueues.backOff.2.source }) := by
  have inner : twoQueues.gradient.isSink = false := rfl
  have failed : (twoQueues.flush refusingRadio true).answer = false := by decide +kernel
  exact ⟨inner, allReady_twoQueues, failed, by decide +kernel,
    (state_flush_of_false inner (fun _ ↦ allReady_twoQueues) failed).1⟩

/-! ## Sending a frame again -/

/-- What may happen between a frame that came to nothing and the next flush. -/
inductive Pauses (n : Node) : Act → Prop
  /-- The radio gives a frame up. -/
  | timedOut (radio : Radio) (target : Address) (retries : Nat) :
      Pauses n (.signal radio (.timedOut target retries))
  /-- Discovery leaves the parent as it is. -/
  | beacon {beacon : Beacon}
      (stays : (n.onBeacon beacon).state.gradient.parent = n.gradient.parent) :
      Pauses n (.beacon beacon)
  /-- A flush is held back. -/
  | flush {radio : Radio} {urgent : Bool} (held : ∀ parent, ¬n.Unhindered radio parent urgent) :
      Pauses n (.flush radio urgent)
  /-- The time of the next flush is asked for. -/
  | nextDelay : Pauses n .nextDelay

/-- Each of some acts in order is one that may happen meanwhile. -/
def PausesAll (n : Node) : List Act → Prop
  | [] => True
  | act :: rest => n.Pauses act ∧ (n.perform act).state.PausesAll rest

/-- The radio gives its frame up. -/
def Act.givesUp : Act → Bool
  | .signal _ (.timedOut _ _) => true
  | _ => false

/-- All that such an act can do to a node. -/
theorem perform_of_pauses (running : n.closed = false) (inner : n.gradient.isSink = false)
    {act : Act} (pauses : n.Pauses act) :
    ∃ gradient counters gate source,
      gradient.parent = n.gradient.parent ∧ gradient.isSink = false ∧
        (n.perform act).state =
          { n with
            gradient, counters, gate, source
            accumulators :=
              if act.givesUp then n.accumulators.map Accumulator.releasePending
              else n.accumulators } := by
  cases pauses with
  | @flush radio urgent held =>
    rcases (flush_of_hindered inner held).2.2 with state | state
    · exact ⟨n.gradient, n.counters, n.gate, n.source, rfl, inner, state⟩
    · cases urgent with
      | false => exact ⟨n.gradient, n.counters, n.gate, n.source, rfl, inner, state⟩
      | true => exact ⟨n.gradient, n.counters, _, _, rfl, inner, state⟩
  | timedOut radio target retries =>
    exact ⟨n.gradient, n.counters.addTimedOut, n.gate, n.source, rfl, inner,
      congrArg Reaction.state (onSignal_timedOut running radio target retries)⟩
  | @beacon beacon stays =>
    cases beacon with
    | heard neighbor hop =>
      have state := congrArg Reaction.state (onBeacon_heard running neighbor hop)
      rw [state] at stays
      exact ⟨_, n.counters, n.gate, n.source, stays,
        (n.gradient.isSink_consider neighbor hop).trans inner, state⟩
    | tick =>
      exact ⟨n.gradient, n.counters.addCycle, n.gate, n.source, rfl, inner,
        congrArg Reaction.state (onBeacon_tick running)⟩
  | nextDelay =>
    exact ⟨n.gradient, n.counters, n.gate, n.nextFlushDelay.2.source, rfl, inner, rfl⟩

/-- An open node below the sink that has everything that another one has, but for marks of records
on their way, the hop count, counters, and draws. -/
structure Resembles (m n : Node) : Prop where
  accumulators : m.accumulators.map Accumulator.releasePending = n.accumulators
  ledger : m.ledger = n.ledger
  config : m.config = n.config
  parent : m.gradient.parent = n.gradient.parent
  inner : m.gradient.isSink = false
  running : m.closed = false

private theorem AllReady.map_releasePending (h : n.AllReady) :
    n.accumulators.map Accumulator.releasePending = n.accumulators :=
  congrArg Node.accumulators h.releasePending

private theorem Resembles.perform (allReady : n.AllReady) (h : m.Resembles n) {act : Act}
    (pauses : m.Pauses act) : (m.perform act).state.Resembles n := by
  obtain ⟨gradient, counters, gate, source, parent, inner, state⟩ :=
    perform_of_pauses h.running h.inner pauses
  rw [state]
  refine ⟨?_, h.ledger, h.config, parent.trans h.parent, inner, h.running⟩
  split
  · show (m.accumulators.map _).map _ = _
    rw [h.accumulators, allReady.map_releasePending]
  · exact h.accumulators

/-- Once the frame was given up, or if none was taken, all records stay ready. -/
theorem Resembles.accumulators_perform (h : m.Resembles n) {act : Act} (pauses : m.Pauses act)
    (ready : m.accumulators = n.accumulators ∨ act.givesUp = true) :
    (m.perform act).state.accumulators = n.accumulators := by
  obtain ⟨gradient, counters, gate, source, -, -, state⟩ :=
    perform_of_pauses h.running h.inner pauses
  rw [state]
  show (if act.givesUp then _ else _) = _
  split
  · exact h.accumulators
  · next waits => exact ready.resolve_right waits

private theorem Resembles.performed (allReady : n.AllReady) (h : m.Resembles n) {acts : List Act}
    (pauses : m.PausesAll acts)
    (ready : m.accumulators = n.accumulators ∨ ∃ act ∈ acts, act.givesUp = true) :
    (m.performed acts).Resembles n ∧ (m.performed acts).accumulators = n.accumulators := by
  induction acts generalizing m with
  | nil => exact ⟨h, ready.resolve_right (by simp)⟩
  | cons act rest ih =>
    apply ih (h.perform allReady pauses.1) pauses.2
    rcases ready with ready | ⟨other, mem, gaveUp⟩
    · exact .inl (h.accumulators_perform pauses.1 (.inl ready))
    · rcases List.mem_cons.1 mem with rfl | mem
      · exact .inl (h.accumulators_perform pauses.1 (.inr gaveUp))
      · exact .inr ⟨other, mem, gaveUp⟩

/-- A node whose flush offered a frame resembles the node from before, and has all records ready
unless the frame was taken. -/
theorem resembles_flush (allReady : n.AllReady) (inner : n.gradient.isSink = false)
    {frame : Outgoing} {accepted : Bool}
    (offered : (n.flush radio urgent).outputs = [.offer frame accepted]) :
    (n.flush radio urgent).state.Resembles n ∧
      (accepted = false → (n.flush radio urgent).state.accumulators = n.accumulators) := by
  obtain ⟨free, built, taken⟩ := flush_of_offer inner offered
  have drawn : (n.drawn urgent).Resembles n := by
    cases urgent with
    | false => exact ⟨allReady.map_releasePending, rfl, rfl, rfl, inner, free.running⟩
    | true => exact ⟨allReady.map_releasePending, rfl, rfl, rfl, inner, free.running⟩
  rw [free.flush_of_some built, taken]
  split
  · next accepts =>
    have unmarked := congrArg Node.accumulators (releasePending_buildFrame (n.drawn urgent) urgent)
    rw [(allReady.drawn urgent).releasePending, accumulators_drawn] at unmarked
    constructor
    · exact ⟨unmarked, drawn.ledger, drawn.config, drawn.parent, drawn.inner, drawn.running⟩
    · exact fun refused ↦ absurd accepts (by simp [refused])
  · rw [(allReady.drawn urgent).releasePending]
    exact ⟨drawn, fun _ ↦ n.accumulators_drawn urgent⟩

/-- Where a flush of a node with all records ready offered a frame, and the frame was refused, or
was taken and given up since, the next flush of the same kind that is not held back offers the same
frame to the same parent, whatever discovery told the node meanwhile, as long as its parent stayed.
By then every record is as it was before the first flush, in the same order, and so is the ledger;
and the second flush changes nothing but marks of records on their way again. -/
theorem retry_offers_same_frame (allReady : n.AllReady) (inner : n.gradient.isSink = false)
    {frame : Outgoing} {accepted : Bool}
    (offered : (n.flush radio urgent).outputs = [.offer frame accepted]) {acts : List Act}
    (pauses : (n.flush radio urgent).state.PausesAll acts)
    (failed : accepted = false ∨ ∃ act ∈ acts, act.givesUp = true) {again : Radio}
    (free : again.busy = false)
    (kept : urgent = true → ((n.flush radio urgent).state.performed acts).backOff.1 = false) :
    let before := (n.flush radio urgent).state.performed acts
    let retry := before.flush again urgent
    before.accumulators = n.accumulators ∧ before.ledger = n.ledger ∧
      retry.outputs = [.offer frame (again.accepts frame)] ∧ retry.answer = again.accepts frame ∧
      n.gradient.parent = some frame.target ∧ before.gradient.parent = some frame.target ∧
      retry.state.accumulators.map Accumulator.releasePending = n.accumulators ∧
      retry.state.ledger = n.ledger := by
  intro before retry
  obtain ⟨unhindered, built, -⟩ := flush_of_offer inner offered
  obtain ⟨flushed, refused⟩ := resembles_flush allReady inner offered
  obtain ⟨same, accumulators⟩ := flushed.performed allReady pauses (failed.imp_left refused)
  have allReady' : before.AllReady := by
    intro acc hacc
    exact allReady acc (accumulators ▸ hacc)
  have route : before.gradient.parent = some frame.target := same.parent.trans unhindered.route
  have sends : before.Unhindered again frame.target urgent :=
    ⟨same.running, same.inner, route, free, kept⟩
  have built' : before.frameFor? frame.target urgent = some frame :=
    (frameFor?_congr accumulators same.config).trans built
  obtain ⟨outputs, answer⟩ := sends.offers built'
  have after := (resembles_flush allReady' same.inner outputs).1
  exact ⟨accumulators, same.ledger, outputs, answer, unhindered.route, route,
    after.accumulators.trans accumulators, after.ledger.trans same.ledger⟩

/-- The frame is taken and given up, the parent comes nearer to the sink, and an urgent flush is
skipped under congestion. -/
def givenUpAndSkipped : List Act :=
  [.beacon .tick, .signal idleRadio (.timedOut (.ofNat 1) 4), .beacon (.heard (.ofNat 1) 0),
    .flush idleRadio true]

/-- The next flush sends the same frame, with the first records of both accumulators. -/
theorem retry_twoQueues :
    let frame : Outgoing :=
      ⟨.ofNat 1, [1, 2, 1, 6, 1, 1, 97, 1, 2, 11, 1, 2, 98, 2, 3, 1, 1, 100, 5], 4⟩
    let taken := (twoQueues.flush idleRadio true).state
    twoQueues.AllReady ∧ twoQueues.gradient.isSink = false ∧
      (twoQueues.flush idleRadio true).outputs = [.offer frame true] ∧
      taken.PausesAll givenUpAndSkipped ∧ idleRadio.busy = false ∧
      (taken.performed givenUpAndSkipped).backOff.1 = false ∧
      ((taken.performed givenUpAndSkipped).flush idleRadio true).outputs = [.offer frame true] ∧
      (taken.performed givenUpAndSkipped).accumulators = twoQueues.accumulators := by
  intro frame taken
  have inner : twoQueues.gradient.isSink = false := rfl
  have offered : (twoQueues.flush idleRadio true).outputs = [.offer frame true] := by decide +kernel
  have pauses : taken.PausesAll givenUpAndSkipped := by
    refine ⟨.beacon rfl, .timedOut .., .beacon ?_, .flush ?_, trivial⟩
    · decide +kernel
    · intro parent h
      exact absurd (h.kept rfl) (by decide +kernel)
  have kept : (taken.performed givenUpAndSkipped).backOff.1 = false := by decide +kernel
  have gaveUp : ∃ act ∈ givenUpAndSkipped, act.givesUp = true := by decide
  obtain ⟨same, -, again, -⟩ := retry_offers_same_frame allReady_twoQueues inner offered pauses
    (.inr gaveUp) (rfl : idleRadio.busy = false) fun _ ↦ kept
  exact ⟨allReady_twoQueues, inner, offered, pauses, rfl, kept, again, same⟩

end Node
end CollectionTree
