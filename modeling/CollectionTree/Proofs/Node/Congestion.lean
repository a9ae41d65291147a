import CollectionTree.Proofs.Node.Loading
import Mathlib.Order.Monotone.Basic

/-!
# Urgent flushes under congestion

A flush by the clock goes out whatever the radio made of earlier frames; an urgent one may be
skipped when more frames were given up than confirmed. `Node.recounted` is a node with another
history of sent and given-up frames, another gate and another source of draws: what else a node does
depends on none of them.

The main statement is `Node.flush_backs_off`. The gate compares a draw with a threshold that grows
with the overshoot (`threshold_mono`) and never reaches the largest draw (`threshold_lt`).
-/

namespace CollectionTree

/-! ## The gate -/

private theorem overshoot_mono {timedOut timedOut' sent sent' : Nat} (more : timedOut ≤ timedOut')
    (fewer : sent' ≤ sent) : overshoot timedOut sent ≤ overshoot timedOut' sent' := by
  simp only [overshoot]
  omega

private theorem overshoot_eq_zero_iff (timedOut sent : Nat) :
    overshoot timedOut sent = 0 ↔ timedOut ≤ sent := by
  simp only [overshoot, maxOvershoot]
  omega

/-- An overshoot beyond the largest makes no difference. -/
theorem skipChance_min (overshoot : Nat) :
    skipChance (min overshoot maxOvershoot) = skipChance overshoot := by
  simp [skipChance, skipProbability]

/-- With the overshoot grows the number of draws that skip. -/
theorem threshold_mono : Monotone fun overshoot ↦ (skipChance overshoot).threshold := by
  apply monotone_nat_of_le_succ
  intro overshoot
  by_cases few : overshoot < maxOvershoot
  · -- So few overshoots are told apart that their thresholds can be worked out.
    revert overshoot
    decide +kernel
  · have same : min overshoot maxOvershoot = min (overshoot + 1) maxOvershoot := by omega
    rw [← skipChance_min overshoot, same, skipChance_min]

/-- No overshoot makes the largest draw skip. -/
theorem threshold_lt (overshoot : Nat) :
    (skipChance overshoot).threshold < Width.word64.size - 1 := by
  have most : (skipChance maxOvershoot).threshold < Width.word64.size - 1 := by decide +kernel
  rw [← skipChance_min]
  exact Nat.lt_of_le_of_lt (threshold_mono (Nat.min_le_right ..)) most

namespace Gate

variable {gate : Gate} {timedOut sent : Nat} {source : Source}

/-- Without an overshoot nothing is skipped, and nothing drawn. -/
theorem shouldSkip_of_le (le : timedOut ≤ sent) (gate : Gate) (source : Source) :
    gate.shouldSkip timedOut sent source = (false, gate, source) := by
  simp only [shouldSkip, (overshoot_eq_zero_iff timedOut sent).2 le]

/-- With an overshoot one word is drawn and compared with the threshold. -/
theorem shouldSkip_of_lt (lt : sent < timedOut) (gate : Gate) (source : Source) :
    gate.shouldSkip timedOut sent source =
      (decide (source.next64.1.toNat < (skipChance (overshoot timedOut sent)).threshold),
        if source.next64.1.toNat < (skipChance (overshoot timedOut sent)).threshold then
          ⟨gate.skipped + 1⟩ else gate,
        source.next64.2) := by
  have some : overshoot timedOut sent ≠ 0 := by
    rw [ne_eq, overshoot_eq_zero_iff]
    omega
  obtain ⟨excess, excess_eq⟩ := Nat.exists_eq_succ_of_ne_zero some
  have unsure : ¬(skipChance (excess + 1)).threshold ≥ Width.word64.size := by
    have := threshold_lt (excess + 1)
    omega
  simp only [shouldSkip, excess_eq, Nat.succ_eq_add_one, Chance.draw, if_neg unsure, Source.draw]
  by_cases below : source.next64.1.toNat < (skipChance (excess + 1)).threshold
  · simp [below]
  · simp [below]

/-- A draw skips exactly if it is below the threshold of the overshoot. -/
theorem skips_iff : (gate.shouldSkip timedOut sent source).1 = true ↔
    source.next64.1.toNat < (skipChance (overshoot timedOut sent)).threshold := by
  by_cases le : timedOut ≤ sent
  · have never : (skipChance 0).threshold = 0 := by decide +kernel
    rw [shouldSkip_of_le le, (overshoot_eq_zero_iff timedOut sent).2 le, never]
    simp
  · rw [shouldSkip_of_lt (Nat.not_le.1 le)]
    simp

/-- The skips are counted. -/
theorem gate_shouldSkip : (gate.shouldSkip timedOut sent source).2.1 =
    if (gate.shouldSkip timedOut sent source).1 then ⟨gate.skipped + 1⟩ else gate := by
  by_cases le : timedOut ≤ sent
  · rw [shouldSkip_of_le le]
    rfl
  · rw [shouldSkip_of_lt (Nat.not_le.1 le)]
    simp

end Gate

namespace Node

/-! ## Other histories -/

/-- The node with other counts of confirmed and given-up frames, another gate and another source. -/
def recounted (n : Node) (sent timedOut : Nat) (gate : Gate) (source : Source) : Node :=
  { n with counters := { n.counters with sent, timedOut }, gate, source }

/-- The same reaction, with the state recounted. -/
def recountedReaction (r : Reaction Bool Node Output) (sent timedOut : Nat) (gate : Gate)
    (source : Source) : Reaction Bool Node Output :=
  { r with state := r.state.recounted sent timedOut gate source }

variable {n : Node} {radio : Radio} {parent : Address} {urgent : Bool}
  (sent timedOut : Nat) (gate : Gate) (source : Source)

/-- Removing records neither reads nor changes the counters. -/
theorem runEach_cleanup (flags : Flags) (ledger : Ledger) (counters other : Counters)
    (accs : List Accumulator) :
    runEach (fun store ↦ (store.cleanup flags).2) ledger counters accs =
      ((runEach (fun store ↦ (store.cleanup flags).2) ledger other accs).1,
        (runEach (fun store ↦ (store.cleanup flags).2) ledger other accs).2.1, counters) := by
  induction accs generalizing ledger with
  | nil => rfl
  | cons acc rest ih =>
    let store := (Store.cleanup { toAccumulator := acc, ledger, counters } flags).2
    exact congrArg (fun run ↦ (store.toAccumulator :: run.1, run.2)) (ih store.ledger)

private theorem cleanup_recounted (flags : Flags) :
    (n.recounted sent timedOut gate source).cleanup flags =
      (n.cleanup flags).recounted sent timedOut gate source := by
  have same := runEach_cleanup flags n.ledger { n.counters with sent, timedOut } n.counters
    n.accumulators
  have kept := runEach_cleanup flags n.ledger n.counters n.counters n.accumulators
  unfold cleanup onEach
  simp only [recounted, same]
  rw [kept]

private theorem send_recounted (n : Node) (radio : Radio) (parent : Address) (urgent : Bool) :
    (n.recounted sent timedOut gate source).send radio parent urgent =
      recountedReaction (n.send radio parent urgent) sent timedOut gate source := by
  have built : (n.recounted sent timedOut gate source).buildFrame urgent =
      ((n.buildFrame urgent).1, (n.buildFrame urgent).2.recounted sent timedOut gate source) := rfl
  unfold send
  rw [built]
  dsimp only
  split
  · have retries : (n.recounted sent timedOut gate source).config = n.config := rfl
    rw [retries]
    split <;> rfl
  · rfl

/-- A flush by the clock is the same for every history. -/
theorem flush_false_recounted (n : Node) (radio : Radio) :
    (n.recounted sent timedOut gate source).flush radio false =
      recountedReaction (n.flush radio false) sent timedOut gate source := by
  have same : (n.recounted sent timedOut gate source).closed = n.closed ∧
      (n.recounted sent timedOut gate source).gradient = n.gradient ∧
      (n.recounted sent timedOut gate source).accumulators = n.accumulators := ⟨rfl, rfl, rfl⟩
  unfold flush
  rw [same.1, same.2.1, same.2.2, cleanup_recounted]
  split
  · rfl
  · split
    · rfl
    · split
      · rfl
      · split
        · rfl
        · exact send_recounted ..

/-! ## What congestion does to a flush -/

/-- Two reactions have the same answer, want the same done and leave the same stores. -/
structure SameOutcome (r r' : Reaction Bool Node Output) : Prop where
  answer : r.answer = r'.answer
  outputs : r.outputs = r'.outputs
  accumulators : r.state.accumulators = r'.state.accumulators
  ledger : r.state.ledger = r'.state.ledger

private theorem sameOutcome_recounted (r : Reaction Bool Node Output) (sent' timedOut' : Nat)
    (gate' : Gate) (source' : Source) :
    SameOutcome (recountedReaction r sent timedOut gate source)
      (recountedReaction r sent' timedOut' gate' source') :=
  ⟨rfl, rfl, rfl, rfl⟩

/-- Where something else holds a flush back, an urgent one is as any other. -/
theorem flush_true_of_hindered (h : ∀ parent, ¬n.Unhindered radio parent false) :
    n.flush radio true = n.flush radio false := by
  unfold flush
  split
  · rfl
  · next opened =>
    split
    · rfl
    · next inner =>
      split
      · rfl
      · next parent route =>
        split
        · rfl
        · next free =>
          simp only [Bool.not_eq_true] at opened inner free
          exact absurd ⟨opened, inner, route, free, nofun⟩ (h parent)

/-- Where nothing else does, an urgent flush is skipped or sends what is ready. -/
theorem Unhindered.flush_true (free : n.Unhindered radio parent false) :
    n.flush radio true =
      if n.backOff.1 then ⟨false, n.backOff.2, []⟩ else n.backOff.2.send radio parent true := by
  unfold flush
  simp only [free.running, free.inner, free.route, free.free, Bool.false_eq_true, if_false, if_true]

/-- A node that gave up no more frames than were confirmed does not back off, and draws nothing. -/
theorem backOff_of_le (le : n.counters.timedOut ≤ n.counters.sent) : n.backOff = (false, n) := by
  unfold backOff
  rw [Gate.shouldSkip_of_le le]

/-- With equal counts an urgent flush is not skipped. -/
theorem Unhindered.flush_true_even (free : n.Unhindered radio parent false) (even : Nat) :
    (n.recounted even even gate source).flush radio true =
      recountedReaction (n.send radio parent true) even even gate source := by
  have same : (n.recounted even even gate source).Unhindered radio parent false :=
    ⟨free.running, free.inner, free.route, free.free, nofun⟩
  have kept : (n.recounted even even gate source).backOff =
      (false, n.recounted even even gate source) := backOff_of_le (Nat.le_refl even)
  rw [same.flush_true, kept, if_neg Bool.false_ne_true, send_recounted]

/-- An urgent flush is skipped and counted as such, with all else as it was, or it does what it
would do with equal counts. -/
theorem flush_true_cases (n : Node) (radio : Radio) :
    (∃ source, n.flush radio true =
        ⟨false, { n with gate := ⟨n.gate.skipped + 1⟩, source }, []⟩) ∨
      (n.flush radio true).state.gate = n.gate ∧
        ∀ even gate source, SameOutcome (n.flush radio true)
          ((n.recounted even even gate source).flush radio true) := by
  by_cases sends : ∃ parent, n.Unhindered radio parent false
  · obtain ⟨parent, free⟩ := sends
    have gate : n.backOff.2.gate = if n.backOff.1 then ⟨n.gate.skipped + 1⟩ else n.gate :=
      Gate.gate_shouldSkip
    cases skip : n.backOff.1 with
    | true =>
      rw [skip, if_pos rfl] at gate
      refine .inl ⟨n.backOff.2.source, ?_⟩
      rw [free.flush_true, if_pos skip, ← gate]
      rfl
    | false =>
      rw [skip, if_neg Bool.false_ne_true] at gate
      have sent : n.flush radio true = recountedReaction (n.send radio parent true)
          n.counters.sent n.counters.timedOut n.backOff.2.gate n.backOff.2.source := by
        rw [free.flush_true, skip, if_neg Bool.false_ne_true, ← send_recounted]
        rfl
      refine .inr ⟨by rw [sent, ← gate]; rfl, fun even gate source ↦ ?_⟩
      rw [sent, free.flush_true_even]
      exact sameOutcome_recounted ..
  · have hindered := not_exists.1 sends
    have gate : (n.flush radio false).state.gate = n.gate :=
      congrArg (·.state.gate)
        (flush_false_recounted n.counters.sent n.counters.timedOut n.gate n.source n radio)
    refine .inr ⟨by rw [flush_true_of_hindered hindered, gate], fun even gate source ↦ ?_⟩
    have alike (parent : Address) :
        ¬(n.recounted even even gate source).Unhindered radio parent false :=
      fun free ↦ hindered parent ⟨free.running, free.inner, free.route, free.free, nofun⟩
    rw [flush_true_of_hindered hindered, flush_true_of_hindered alike, flush_false_recounted]
    exact ⟨rfl, rfl, rfl, rfl⟩

/-- A flush by the clock does the same for every history of sent and given-up frames, every gate and
every source, and leaves those as they are. An urgent flush is skipped and counted as such, with all
stores as they were and nothing sent, or has the outcome, the frame and the stores of one with equal
counts. As for the gate: a draw that skips also skips with more frames given up and fewer confirmed,
nothing is skipped or drawn while no more were given up than confirmed, and there is a draw that
never skips. -/
theorem flush_backs_off (n : Node) (radio : Radio) :
    (∀ sent timedOut gate source, (n.recounted sent timedOut gate source).flush radio false =
      recountedReaction (n.flush radio false) sent timedOut gate source) ∧
    ((∃ source, n.flush radio true =
        ⟨false, { n with gate := ⟨n.gate.skipped + 1⟩, source }, []⟩) ∨
      (n.flush radio true).state.gate = n.gate ∧
        ∀ even gate source, SameOutcome (n.flush radio true)
          ((n.recounted even even gate source).flush radio true)) ∧
    (∀ (draw : UInt64) (gate gate' : Gate) (source source' : Source)
      (timedOut timedOut' sent sent' : Nat),
      source.next64.1 = draw → source'.next64.1 = draw → timedOut ≤ timedOut' → sent' ≤ sent →
        (gate.shouldSkip timedOut sent source).1 = true →
          (gate'.shouldSkip timedOut' sent' source').1 = true) ∧
    (∀ (gate : Gate) (source : Source) (timedOut sent : Nat), timedOut ≤ sent →
      gate.shouldSkip timedOut sent source = (false, gate, source)) ∧
    ∃ draw : UInt64, ∀ (gate : Gate) (source : Source) (timedOut sent : Nat),
      source.next64.1 = draw → (gate.shouldSkip timedOut sent source).1 = false := by
  refine ⟨fun sent timedOut gate source ↦ flush_false_recounted sent timedOut gate source n radio,
    flush_true_cases n radio, ?_, fun gate source _ _ le ↦ Gate.shouldSkip_of_le le gate source, ?_⟩
  · intro draw gate gate' source source' timedOut timedOut' sent sent' drawn drawn' more fewer skips
    rw [Gate.skips_iff, drawn] at skips
    rw [Gate.skips_iff, drawn']
    exact Nat.lt_of_lt_of_le skips (threshold_mono (overshoot_mono more fewer))
  · refine ⟨18446744073709551615, fun gate source timedOut sent drawn ↦ ?_⟩
    rw [Bool.eq_false_iff, ne_eq, Gate.skips_iff, drawn, Nat.not_lt]
    exact (threshold_lt _).le

/-- A node with one urgent record that gave up three frames. Its first draw has it skip an urgent
flush, and its second does not. -/
def congestedNode : Node where
  address := .ofNat 2
  gradient := ⟨some (.ofNat 1), 1, false⟩
  config := {}
  source := .ofList [0x1000000000000000, 0xFFFFFFFFFFFFFFFF]
  ledger := { allocated := 16 }
  counters := { timedOut := 3 }
  accumulators :=
    [{ id := 1, job := Bytewise.alarm, records := [⟨[97], [1], ⟨true, true, false⟩⟩] }]

/-- The first urgent flush is skipped and the second sends; the draw that skips at an overshoot of
one skips at three. -/
theorem flush_backs_off_congestedNode :
    ((congestedNode.flush idleRadio true).answer = false ∧
      (congestedNode.flush idleRadio true).state.gate = ⟨1⟩ ∧
      ((congestedNode.flush idleRadio true).state.flush idleRadio true).answer = true ∧
      SameOutcome ((congestedNode.flush idleRadio true).state.flush idleRadio true)
        (((congestedNode.flush idleRadio true).state.recounted 0 0 {} (.ofList [])).flush
          idleRadio true)) ∧
    ((1 : Nat) ≤ 3 ∧
      (Gate.shouldSkip {} 1 0 (.ofList [0x1000000000000000])).1 = true ∧
      (Gate.shouldSkip {} 3 0 (.ofList [0x1000000000000000])).1 = true) := by
  have skipped : (congestedNode.flush idleRadio true).answer = false := by decide +kernel
  have counted : (congestedNode.flush idleRadio true).state.gate = ⟨1⟩ := by decide +kernel
  have sends : ((congestedNode.flush idleRadio true).state.flush idleRadio true).answer = true := by
    decide +kernel
  have draw : (Gate.shouldSkip {} 1 0 (.ofList [0x1000000000000000])).1 = true := by
    decide +kernel
  have le : (1 : Nat) ≤ 3 := by decide
  obtain ⟨-, second, mono, -, -⟩ :=
    flush_backs_off (congestedNode.flush idleRadio true).state idleRadio
  refine ⟨⟨skipped, counted, sends, ?_⟩, le, draw, mono _ _ _ _ _ _ _ _ _ rfl rfl le le_rfl draw⟩
  rcases second with ⟨source, again⟩ | ⟨-, same⟩
  · rw [again] at sends
    cases sends
  · exact same 0 {} (.ofList [])

end Node

end CollectionTree
