import CollectionTree.Node.Basic
import CollectionTree.Proofs.Store.Marks
import CollectionTree.Proofs.Wire.Assembly
import CollectionTree.Workload.Bytewise

/-!
# How a frame is loaded

Accumulators add to a frame in binding order, each what still fits of its ready records. `Loads`
states this for the entries that each of them adds, its share; it says nothing about bytes.
`loads_gatherAll` says that a frame is built of the shares, and `offers_flush` what a flush offers
to the radio and which records are on their way then.
-/

namespace CollectionTree

open Wire (Part FrameBuilder segmentsOf)

namespace Accumulator

/-- The entries that an accumulator adds to a frame of these parts: the longest prefix of its ready
entries whose segment fits into the room left and into one length byte, and none to a frame of 255
parts. -/
def Share (urgent : Bool) (maxPayload : Nat) (parts : List Part) (acc : Accumulator)
    (taken : List Wire.Entry) : Prop :=
  if parts.length = 255 then taken = []
  else
    LongestWithin
      (min (maxPayload - (Wire.frameHeaderLength + (segmentsOf parts).length)) Wire.maxFieldLength)
      (ready urgent acc.records) taken

/-- The part that a frame gets of a share: none without entries. -/
def partOf (acc : Accumulator) (taken : List Wire.Entry) : List Part :=
  if taken = [] then [] else [(acc.id, taken)]

/-- A share is a prefix of the ready entries. -/
theorem Share.front {urgent : Bool} {maxPayload : Nat} {parts : List Part} {acc : Accumulator}
    {taken : List Wire.Entry} (share : acc.Share urgent maxPayload parts taken) :
    taken <+: ready urgent acc.records := by
  unfold Share at share
  split at share
  · rw [share]
    exact List.nil_prefix
  · exact share.front

private theorem Share.unique {urgent : Bool} {maxPayload : Nat} {parts : List Part}
    {acc : Accumulator}
    {taken other : List Wire.Entry} (share : acc.Share urgent maxPayload parts taken)
    (share' : acc.Share urgent maxPayload parts other) : taken = other := by
  unfold Share at share share'
  split at share
  · next full =>
    rw [if_pos full] at share'
    rw [share, share']
  · next more =>
    rw [if_neg more] at share'
    exact share.unique share'

/-- Where not even a header fits, nothing is the longest prefix that does. -/
theorem longestWithin_nil {limit : Nat} (small : limit < Wire.segmentHeaderLength)
    (entries : List Wire.Entry) : LongestWithin limit entries [] where
  front := List.nil_prefix
  fits some := absurd rfl some
  longest other _ fits := absurd fits (by omega)

end Accumulator

namespace Node

open Accumulator (Share partOf)

/-- The shares of some accumulators in a frame that has these parts before their turn. -/
inductive Loads (urgent : Bool) (maxPayload : Nat) :
    List Part → List Accumulator → List (List Wire.Entry) → Prop
  | done {parts : List Part} : Loads urgent maxPayload parts [] []
  | next {parts : List Part} {acc : Accumulator} {rest : List Accumulator}
      {taken : List Wire.Entry} {shares : List (List Wire.Entry)}
      (share : acc.Share urgent maxPayload parts taken)
      (more : Loads urgent maxPayload (parts ++ acc.partOf taken) rest shares) :
      Loads urgent maxPayload parts (acc :: rest) (taken :: shares)

/-- The shares are determined by the accumulators. -/
theorem Loads.unique {urgent : Bool} {maxPayload : Nat} {parts : List Part}
    {accs : List Accumulator} {shares others : List (List Wire.Entry)}
    (loads : Loads urgent maxPayload parts accs shares)
    (loads' : Loads urgent maxPayload parts accs others) : shares = others := by
  induction loads generalizing others with
  | done =>
    cases loads'
    rfl
  | next share more ih =>
    cases loads' with
    | next share' more' =>
      obtain rfl := share.unique share'
      rw [ih more']

/-- The parts of a frame that these shares make. -/
def partsOf (accs : List Accumulator) (shares : List (List Wire.Entry)) : List Part :=
  (List.zipWith partOf accs shares).flatten

/-- The accumulators with the records of these shares marked. -/
def markShares (urgent : Bool) (accs : List Accumulator) (shares : List (List Wire.Entry)) :
    List Accumulator :=
  List.zipWith (fun acc taken ↦ acc.marked urgent taken.length) accs shares

/-- The first accumulator's part comes first. -/
@[simp] theorem partsOf_cons (acc : Accumulator) (rest : List Accumulator)
    (taken : List Wire.Entry) (shares : List (List Wire.Entry)) :
    partsOf (acc :: rest) (taken :: shares) = acc.partOf taken ++ partsOf rest shares := rfl

/-- The first accumulator has its own share marked. -/
@[simp] theorem markShares_cons (urgent : Bool) (acc : Accumulator) (rest : List Accumulator)
    (taken : List Wire.Entry) (shares : List (List Wire.Entry)) :
    markShares urgent (acc :: rest) (taken :: shares) =
      acc.marked urgent taken.length :: markShares urgent rest shares := rfl

/-- An accumulator adds its share, and the records of that share are marked. -/
theorem appendWith_gather {builder : FrameBuilder} {parts : List Part}
    (held : builder.Holds parts) (urgent : Bool) (acc : Accumulator) :
    ∃ taken, acc.Share urgent builder.maxPayload parts taken ∧
      (builder.appendWith fun room ↦ (acc.gather room urgent).swap).1.getD acc =
        acc.marked urgent taken.length ∧
      (builder.appendWith fun room ↦ (acc.gather room urgent).swap).2.Holds
        (parts ++ acc.partOf taken) := by
  have left : builder.remaining =
      builder.maxPayload - (Wire.frameHeaderLength + (segmentsOf parts).length) := by
    rw [FrameBuilder.remaining, FrameBuilder.length, held.segments]
  have full : builder.segmentCount = 255 ↔ parts.length = 255 := by
    rw [← held.count, ← UInt8.toNat_inj]
    rfl
  cases offered : builder.room? with
  | none =>
    refine ⟨[], ?_, by simp [FrameBuilder.appendWith, offered, held, partOf]⟩
    unfold Share
    split
    · rfl
    · next more =>
      have small : builder.remaining < Wire.segmentHeaderLength := by
        simpa [FrameBuilder.room?, full, more] using offered
      exact Accumulator.longestWithin_nil (by omega) _
  | some room =>
    obtain ⟨more, rfl⟩ : builder.segmentCount ≠ 255 ∧ builder.remaining = room := by
      unfold FrameBuilder.room? at offered
      split at offered
      · cases offered
      · next free => exact ⟨fun count ↦ free (.inl count), Option.some.inj offered⟩
    obtain ⟨taken, longest, marked, bytes, sized, short⟩ := acc.gather_spec builder.remaining urgent
    obtain ⟨answer, -, holds⟩ := held.appendWith offered
      (fun room ↦ (acc.gather room urgent).swap) bytes sized short
    rw [left] at longest
    refine ⟨taken, ?_, by rw [answer]; exact marked, ?_⟩
    · unfold Share
      rwa [if_neg fun count ↦ more (full.2 count)]
    by_cases empty : taken = []
    · simpa [empty, partOf] using holds
    · simpa [empty, partOf] using holds

/-- Accumulators add their shares in order, and the records of the shares are marked. -/
theorem loads_gatherAll (urgent : Bool) {builder : FrameBuilder} {parts : List Part}
    (held : builder.Holds parts) (accs : List Accumulator) :
    ∃ shares, Loads urgent builder.maxPayload parts accs shares ∧
      (gatherAll urgent builder accs).1.Holds (parts ++ partsOf accs shares) ∧
      (gatherAll urgent builder accs).2 = markShares urgent accs shares := by
  induction accs generalizing builder parts with
  | nil => exact ⟨[], .done, by simpa [gatherAll, partsOf] using held, rfl⟩
  | cons acc rest ih =>
    obtain ⟨taken, share, marked, holds⟩ := appendWith_gather held urgent acc
    obtain ⟨shares, loads, holds', gathered⟩ := ih holds
    rw [FrameBuilder.maxPayload_appendWith] at loads
    refine ⟨taken :: shares, .next share loads, ?_, ?_⟩
    · simpa [gatherAll] using holds'
    · simp only [gatherAll, marked, gathered, markShares_cons]

/-- Loading keeps a frame's urgency, and its length within what the radio carries. -/
theorem gatherAll_keeps (urgent : Bool) (builder : FrameBuilder) (accs : List Accumulator) :
    (gatherAll urgent builder accs).1.urgency = builder.urgency ∧
      (gatherAll urgent builder accs).1.length ≤ max builder.maxPayload builder.length := by
  induction accs generalizing builder with
  | nil => exact ⟨rfl, Nat.le_max_right ..⟩
  | cons acc rest ih =>
    have one := builder.length_appendWith_le fun room ↦ (acc.gather room urgent).swap
    obtain ⟨urgency, within⟩ := ih
      (builder.appendWith fun room ↦ (acc.gather room urgent).swap).2
    rw [FrameBuilder.maxPayload_appendWith] at within
    rw [FrameBuilder.urgency_appendWith] at urgency
    exact ⟨urgency, by simp only [gatherAll]; omega⟩

/-- A frame is built of the shares, and their records are marked. -/
theorem loads_buildFrame (n : Node) (urgent : Bool) :
    ∃ shares, Loads urgent n.config.maxPayload [] n.accumulators shares ∧
      (n.buildFrame urgent).1.Holds (partsOf n.accumulators shares) ∧
      (n.buildFrame urgent).1.urgency = .ofBool urgent ∧
      (n.buildFrame urgent).1.length ≤ max n.config.maxPayload Wire.frameHeaderLength ∧
      (n.buildFrame urgent).2 =
        { n with accumulators := markShares urgent n.accumulators shares } := by
  have start := FrameBuilder.holds_start (.ofBool urgent) n.config.maxPayload
  obtain ⟨shares, loads, holds, marked⟩ := loads_gatherAll urgent start n.accumulators
  obtain ⟨urgency, within⟩ := gatherAll_keeps urgent
    { urgency := .ofBool urgent, maxPayload := n.config.maxPayload } n.accumulators
  refine ⟨shares, loads, holds, urgency, within, ?_⟩
  rw [← marked]
  rfl

/-! ## What a flush sends -/

/-- The node after the draw that an urgent flush starts with; any other flush draws nothing. -/
def drawn (n : Node) (urgent : Bool) : Node :=
  if urgent then { n with gate := n.backOff.2.gate, source := n.backOff.2.source } else n

/-- What comes of offering these shares to a parent. -/
structure Offers (n : Node) (radio : Radio) (parent : Address) (urgent : Bool)
    (shares : List (List Wire.Entry)) (r : Reaction Bool Node Output) : Prop where
  /-- Without a share that has entries, nothing is sent. -/
  nothing : partsOf n.accumulators shares = [] → r = ⟨false, n, []⟩
  /-- With one, a single frame is offered to the radio. It is worth sending and within what the
  radio carries, and is read back to the shares. If it is taken, the records of the shares are on
  their way, and all else is as it was. -/
  frame : partsOf n.accumulators shares ≠ [] → ∃ payload,
    r.outputs = [.offer ⟨parent, payload, n.config.maxRetries⟩ r.answer] ∧
    r.answer = radio.accepts ⟨parent, payload, n.config.maxRetries⟩ ∧
    Wire.minFrameLength ≤ payload.length ∧ payload.length ≤ n.config.maxPayload ∧
    Wire.ReadsBack payload (.ofBool urgent) (partsOf n.accumulators shares) ∧
    (r.answer = true →
      r.state = { n with accumulators := markShares urgent n.accumulators shares })

/-- A draw keeps the accumulators. -/
@[simp] theorem accumulators_drawn (n : Node) (urgent : Bool) :
    (n.drawn urgent).accumulators = n.accumulators := by
  cases urgent <;> rfl

/-- A draw keeps the configuration. -/
@[simp] theorem config_drawn (n : Node) (urgent : Bool) : (n.drawn urgent).config = n.config := by
  cases urgent <;> rfl

/-- Where no share has entries, no record is marked. -/
theorem Loads.markShares_eq_self {urgent : Bool} {maxPayload : Nat} {parts : List Part}
    {accs : List Accumulator} {shares : List (List Wire.Entry)}
    (loads : Loads urgent maxPayload parts accs shares) (empty : partsOf accs shares = []) :
    markShares urgent accs shares = accs := by
  induction loads with
  | done => rfl
  | @next parts acc rest taken shares share more ih =>
    rw [partsOf_cons, List.append_eq_nil_iff] at empty
    have none : taken = [] := by simpa [partOf] using empty.1
    rw [markShares_cons, ih empty.2, none, List.length_nil, Accumulator.marked_zero]

/-- Taking back the marks of some shares takes back all marks. -/
theorem Loads.map_releasePending_markShares {urgent : Bool} {maxPayload : Nat} {parts : List Part}
    {accs : List Accumulator} {shares : List (List Wire.Entry)}
    (loads : Loads urgent maxPayload parts accs shares) :
    (markShares urgent accs shares).map Accumulator.releasePending =
      accs.map Accumulator.releasePending := by
  induction loads with
  | done => rfl
  | next share more ih =>
    rw [markShares_cons, List.map_cons, List.map_cons, ih, Accumulator.releasePending_marked]

/-- Sending offers the frame that the shares of the accumulators make. -/
theorem offers_send (n : Node) (radio : Radio) (parent : Address) (urgent : Bool) :
    ∃ shares, Loads urgent n.config.maxPayload [] n.accumulators shares ∧
      n.Offers radio parent urgent shares (n.send radio parent urgent) := by
  obtain ⟨shares, loads, holds, urgency, within, marked⟩ := loads_buildFrame n urgent
  refine ⟨shares, loads, ?_⟩
  have worth := holds.isWorthSending_iff
  have readsBack := holds.readsBack
  rw [urgency] at readsBack
  unfold send
  generalize n.buildFrame urgent = built at holds within marked worth readsBack
  obtain ⟨builder, gathered⟩ := built
  obtain rfl : gathered = _ := marked
  refine ⟨fun empty ↦ ?_, fun some ↦ ?_⟩
  · have idle : ¬ builder.isWorthSending = true := fun h ↦ worth.1 h empty
    simp only [if_neg idle, loads.markShares_eq_self empty]
  · have long : Wire.minFrameLength ≤ builder.finish.length := by
      simpa [FrameBuilder.isWorthSending] using worth.2 some
    have short : builder.finish.length ≤ n.config.maxPayload := by
      rw [FrameBuilder.length_finish] at long ⊢
      simp only [Wire.minFrameLength, Wire.frameHeaderLength, Wire.segmentHeaderLength,
        Wire.recordHeaderLength] at long within
      omega
    simp only [if_pos (worth.2 some)]
    by_cases accepted : radio.accepts ⟨parent, builder.finish, n.config.maxRetries⟩ = true
    · simp only [if_pos accepted]
      exact ⟨builder.finish, rfl, accepted.symm, long, short, readsBack, fun _ ↦ trivial⟩
    · simp only [if_neg accepted]
      have refused : false = radio.accepts ⟨parent, builder.finish, n.config.maxRetries⟩ := by
        simpa using accepted
      exact ⟨builder.finish, rfl, refused, long, short, readsBack, fun taken ↦
        absurd taken Bool.false_ne_true⟩

/-- Nothing holds a flush to a parent back. -/
structure Unhindered (n : Node) (radio : Radio) (parent : Address) (urgent : Bool) : Prop where
  running : n.closed = false
  inner : n.gradient.isSink = false
  route : n.gradient.parent = some parent
  free : radio.busy = false
  kept : urgent = true → n.backOff.1 = false

/-- A flush that nothing holds back sends the ready records, after its draw. -/
theorem Unhindered.flush_eq {n : Node} {radio : Radio} {parent : Address} {urgent : Bool}
    (h : n.Unhindered radio parent urgent) :
    n.flush radio urgent = (n.drawn urgent).send radio parent urgent := by
  have kept := h.kept
  unfold flush
  simp only [h.running, h.inner, h.route, h.free, Bool.false_eq_true, if_false]
  cases urgent with
  | false => rfl
  | true =>
    simp only [kept rfl, if_true, Bool.false_eq_true, if_false]
    rfl

/-- A flush that nothing holds back loads a frame and sends it to the parent. -/
theorem offers_flush {n : Node} {radio : Radio} {parent : Address} {urgent : Bool}
    (running : n.closed = false) (inner : n.gradient.isSink = false)
    (route : n.gradient.parent = some parent) (free : radio.busy = false)
    (kept : urgent = true → n.backOff.1 = false) :
    ∃ shares, (∀ other, Loads urgent n.config.maxPayload [] n.accumulators other ↔ other = shares) ∧
      (n.drawn urgent).Offers radio parent urgent shares (n.flush radio urgent) := by
  have sent := (Unhindered.mk running inner route free kept).flush_eq
  obtain ⟨shares, loads, offered⟩ := offers_send (n.drawn urgent) radio parent urgent
  rw [accumulators_drawn, config_drawn] at loads
  refine ⟨shares, fun other ↦ ⟨fun h ↦ h.unique loads, ?_⟩, by rwa [sent]⟩
  rintro rfl
  exact loads

/-- A node with two jobs, of which the second has more urgent records than fit into a small frame.
-/
def twoJobs : Node where
  address := .ofNat 2
  gradient := ⟨some (.ofNat 1), 1, false⟩
  config := { maxPayload := 20 }
  source := .ofList []
  ledger := { allocated := 53 }
  accumulators :=
    [{ id := 1, job := Bytewise.alarm, records := [⟨[97], [1], ⟨true, true, false⟩⟩] },
      { id := 2, job := Bytewise.alarm, records := [⟨[98], [2, 3], ⟨true, true, false⟩⟩,
        ⟨[99], [4], ⟨true, true, true⟩⟩, ⟨[100], [5], .storedOnly⟩,
        ⟨[101], [6], ⟨true, true, false⟩⟩, ⟨[102], [7], ⟨true, true, false⟩⟩] }]

/-- A radio that takes every frame. -/
def idleRadio : Radio := ⟨false, fun _ ↦ true⟩

/-- A record on its way already is passed over and so is one that is not urgent, and the last one is
left for the next frame. -/
theorem offers_twoJobs :
    (twoJobs.closed = false ∧ twoJobs.gradient.isSink = false ∧
      twoJobs.gradient.parent = some (.ofNat 1) ∧ idleRadio.busy = false ∧
      twoJobs.backOff.1 = false) ∧
    (twoJobs.flush idleRadio true).outputs =
      [.offer ⟨.ofNat 1, [1, 2, 1, 6, 1, 1, 97, 1, 2, 11, 1, 2, 98, 2, 3, 1, 1, 101, 6], 4⟩ true] ∧
    ∃ shares,
      (∀ other, Loads true twoJobs.config.maxPayload [] twoJobs.accumulators other ↔
        other = shares) ∧
      (twoJobs.drawn true).Offers idleRadio (.ofNat 1) true shares
        (twoJobs.flush idleRadio true) := by
  have running : twoJobs.closed = false := rfl
  have inner : twoJobs.gradient.isSink = false := rfl
  have route : twoJobs.gradient.parent = some (.ofNat 1) := rfl
  have free : idleRadio.busy = false := rfl
  have kept : twoJobs.backOff.1 = false := rfl
  exact ⟨⟨running, inner, route, free, kept⟩, by decide +kernel,
    offers_flush running inner route free fun _ ↦ kept⟩

end Node
end CollectionTree
