import CollectionTree.Proofs.Lookup
import CollectionTree.Radio.Medium
import Mathlib.Algebra.GroupWithZero.Nat

/-!
# How a medium settles frames

The signals of a settled medium come frame by frame, the arrival of a frame right before its
confirmation (`settles_settleAll`). A `Settlement` says what became of one frame: its signals and
its share in the counts follow from that (`settleAll_eq`).
-/

namespace CollectionTree

/-- The signals that settle some frames, in the order of the frames. -/
inductive Settles : List (Address × Outgoing) → List (Address × Signal) → Prop
  | done : Settles [] []
  | delivered {sender : Address} {frame : Outgoing} {rest : List (Address × Outgoing)}
      {signals : List (Address × Signal)} (retries : Nat) (more : Settles rest signals) :
      Settles ((sender, frame) :: rest)
        ((frame.target, .received sender frame.payload) :: (sender, .sent frame.target retries) ::
          signals)
  | givenUp {sender : Address} {frame : Outgoing} {rest : List (Address × Outgoing)}
      {signals : List (Address × Signal)} (retries : Nat) (more : Settles rest signals) :
      Settles ((sender, frame) :: rest) ((sender, .timedOut frame.target retries) :: signals)

namespace Medium

private theorem settles_settleAll (m : Medium) (frames : List (Address × Outgoing)) :
    Settles frames (m.settleAll frames).1 := by
  induction frames generalizing m with
  | nil => exact .done
  | cons head rest ih =>
    obtain ⟨sender, frame⟩ := head
    have more := ih (m.settle sender frame).2
    simp only [settleAll]
    generalize (settleAll (m.settle sender frame).2 rest).1 = signals at more ⊢
    unfold settle
    simp only
    split
    · exact .delivered _ more
    · exact .givenUp _ more

/-- A pump settles all frames that were under way. -/
theorem settles_pump (m : Medium) : Settles m.inFlight.entries m.pump.1 :=
  settles_settleAll { m with inFlight := .empty } m.inFlight.entries

/-- Settling a frame opens and closes no radio. -/
@[simp] theorem opened_settle (m : Medium) (sender : Address) (frame : Outgoing) :
    (m.settle sender frame).2.opened = m.opened := by
  simp only [settle]
  split <;> rfl

/-- Settling frames opens and closes no radio. -/
@[simp] theorem opened_settleAll (m : Medium) (frames : List (Address × Outgoing)) :
    (m.settleAll frames).2.opened = m.opened := by
  induction frames generalizing m with
  | nil => rfl
  | cons head rest ih => simp [settleAll, ih]

/-- Pumping opens and closes no radio. -/
@[simp] theorem opened_pump (m : Medium) : m.pump.2.opened = m.opened :=
  opened_settleAll { m with inFlight := .empty } m.inFlight.entries

/-- Nothing is pending if nobody has a frame under way. -/
theorem pending_eq_zero_iff (m : Medium) : m.pending = 0 ↔ ∀ a, m.inFlight.get? a = none := by
  constructor
  · intro quiet a
    have nothing : m.inFlight.entries = [] := List.eq_nil_of_length_eq_zero quiet
    rw [Table.get?, nothing]
    rfl
  · intro idle
    have nothing : m.inFlight.entries = [] := by
      rw [List.eq_nil_iff_forall_not_mem]
      intro e he
      have found := m.inFlight.get?_of_mem he
      rw [idle e.1] at found
      cases found
    rw [pending, Table.size, nothing]
    rfl

/-- The medium with a node's frame under way too, if there is one. -/
def carrying (m : Medium) (sender : Address) : Option Outgoing → Medium
  | none => m
  | some frame => { m with inFlight := m.inFlight.insert sender frame }

/-- A frame that the radio accepts comes under way. -/
theorem submit_of_accepts {m : Medium} {sender : Address} {frame : Outgoing}
    (h : (m.radio sender).accepts frame = true) :
    m.submit sender frame = .ok (m.carrying sender (some frame)) := by
  have ok : (m.submit sender frame).isOk = true := h
  unfold submit at ok ⊢
  split
  · next closed => simp [closed, Except.isOk, Except.toBool] at ok
  · next opened =>
    split
    · next empty => simp [opened, empty, Except.isOk, Except.toBool] at ok
    · next filled =>
      split
      · next busy => simp [opened, filled, busy, Except.isOk, Except.toBool] at ok
      · rfl

/-- Putting a frame under way opens and closes no radio. -/
@[simp] theorem opened_carrying (m : Medium) (sender : Address) (frame : Option Outgoing) :
    (m.carrying sender frame).opened = m.opened := by
  cases frame <;> rfl

/-- An open node's radio takes every frame while none is under way. -/
theorem accepts_of_opened {m : Medium} {sender : Address} (opened : m.opened.contains sender = true)
    (frame : Outgoing) (filled : frame.payload ≠ []) (free : (m.radio sender).busy = false) :
    (m.radio sender).accepts frame = true :=
  (m.submit_isOk_iff sender frame).2 ⟨opened, filled, free⟩

/-- Putting a frame under way leaves those of other senders alone. -/
theorem get?_carrying_of_ne (m : Medium) {sender other : Address} (h : other ≠ sender)
    (frame : Option Outgoing) :
    (m.carrying sender frame).inFlight.get? other = m.inFlight.get? other := by
  cases frame with
  | none => rfl
  | some frame => exact m.inFlight.get?_insert_of_ne h frame

/-- A frame that is put under way is the one that is under way then. -/
theorem get?_carrying (m : Medium) (sender : Address) (frame : Option Outgoing) :
    (m.carrying sender frame).inFlight.get? sender = frame.or (m.inFlight.get? sender) := by
  cases frame with
  | none => rfl
  | some frame => exact m.inFlight.get?_insert_self sender frame

/-- A radio is idle while nothing is under way from it. -/
theorem busy_radio_of_free {m : Medium} {a : Address} (free : m.inFlight.get? a = none) :
    (m.radio a).busy = false := by
  show (m.inFlight.get? a).isSome = false
  rw [free]
  rfl

/-- What is under way stays so. -/
theorem isSome_get?_carrying (m : Medium) {a : Address} (flying : (m.inFlight.get? a).isSome = true)
    (sender : Address) (frame : Option Outgoing) :
    ((m.carrying sender frame).inFlight.get? a).isSome = true := by
  cases frame with
  | none => exact flying
  | some frame => exact Table.isSome_get?_insert flying sender frame

end Medium

/-! ## What became of a frame -/

/-- How the sending of a frame ended. -/
inductive Fate where
  /-- The frame arrived after being sent again so often. -/
  | arrived (retries : Nat)
  /-- The frame was given up. -/
  | givenUp
  deriving DecidableEq, Repr

/-- How a frame was settled. -/
structure Settlement where
  sender : Address
  frame : Outgoing
  fate : Fate
  deriving DecidableEq, Repr

namespace Settlement

/-- The frame with its sender, as it was under way. -/
def sending (r : Settlement) : Address × Outgoing := (r.sender, r.frame)

/-- How often the frame was sent again: as often as allowed, if it was given up. -/
def retries (r : Settlement) : Nat :=
  match r.fate with
  | .arrived retries => retries
  | .givenUp => r.frame.maxRetries.toNat

/-- What receiver and sender are told. -/
def signals (r : Settlement) : List (Address × Signal) :=
  match r.fate with
  | .arrived retries =>
    [(r.frame.target, .received r.sender r.frame.payload), (r.sender, .sent r.frame.target retries)]
  | .givenUp => [(r.sender, .timedOut r.frame.target r.frame.maxRetries.toNat)]

/-- The frame did not arrive, or it arrived at an open node and within the retries allowed. -/
def Allowed (opened : OrderedSet Address) (r : Settlement) : Prop :=
  ∀ retries, r.fate = .arrived retries →
    opened.contains r.frame.target = true ∧ retries ≤ r.frame.maxRetries.toNat

end Settlement

/-- The counts after a frame was settled. -/
def MediumStats.count (s : MediumStats) (r : Settlement) : MediumStats :=
  match r.fate with
  | .arrived retries =>
    { s with
      attempts := s.attempts + (retries + 1)
      lost := s.lost + retries
      delivered := s.delivered + 1 }
  | .givenUp =>
    { s with
      attempts := s.attempts + (r.frame.maxRetries.toNat + 1)
      lost := s.lost + (r.frame.maxRetries.toNat + 1)
      timedOut := s.timedOut + 1 }

namespace Medium

/-- What becomes of a frame that is settled next. -/
def fate (m : Medium) (frame : Outgoing) : Fate :=
  if (m.losses frame.target (frame.maxRetries.toNat + 1)).1 < frame.maxRetries.toNat + 1 then
    .arrived (m.losses frame.target (frame.maxRetries.toNat + 1)).1
  else .givenUp

/-- What becomes of frames that are settled in order. -/
def settlements (m : Medium) : List (Address × Outgoing) → List Settlement
  | [] => []
  | (sender, frame) :: rest =>
    ⟨sender, frame, m.fate frame⟩ :: (m.settle sender frame).2.settlements rest

/-- A frame is told and counted as its fate has it. -/
theorem settle_eq (m : Medium) (sender : Address) (frame : Outgoing) :
    (m.settle sender frame).1 = Settlement.signals ⟨sender, frame, m.fate frame⟩ ∧
      (m.settle sender frame).2.stats = m.stats.count ⟨sender, frame, m.fate frame⟩ := by
  unfold settle fate
  simp only
  split
  · exact ⟨rfl, rfl⟩
  · exact ⟨rfl, rfl⟩

/-- No attempt at a closed node succeeds. -/
theorem allowed_fate (m : Medium) (sender : Address) (frame : Outgoing) :
    Settlement.Allowed m.opened ⟨sender, frame, m.fate frame⟩ := by
  intro retries arrived
  simp only [fate] at arrived
  split at arrived
  · next within =>
    obtain rfl := Fate.arrived.inj arrived
    refine ⟨?_, Nat.le_of_lt_succ within⟩
    by_cases opened : m.opened.contains frame.target = true
    · exact opened
    · simp only [losses, if_neg opened] at within
      exact absurd within (Nat.lt_irrefl _)
  · cases arrived

/-- The settlements are of the frames that are settled, in order. -/
@[simp] theorem map_sending_settlements (m : Medium) (frames : List (Address × Outgoing)) :
    (m.settlements frames).map Settlement.sending = frames := by
  induction frames generalizing m with
  | nil => rfl
  | cons head rest ih => simp [settlements, Settlement.sending, ih]

/-- The signals and the counts are those of the reports, in the order of the frames. -/
theorem settleAll_eq (m : Medium) (frames : List (Address × Outgoing)) :
    (m.settleAll frames).1 = (m.settlements frames).flatMap Settlement.signals ∧
      (m.settleAll frames).2.stats = (m.settlements frames).foldl MediumStats.count m.stats := by
  induction frames generalizing m with
  | nil => exact ⟨rfl, rfl⟩
  | cons head rest ih =>
    obtain ⟨sender, frame⟩ := head
    obtain ⟨signals, stats⟩ := m.settle_eq sender frame
    obtain ⟨moreSignals, moreStats⟩ := ih (m.settle sender frame).2
    rw [stats] at moreStats
    simp only [settleAll, settlements, List.flatMap_cons, List.foldl_cons]
    exact ⟨by rw [signals, moreSignals], moreStats⟩

private theorem allowed_settlements (m : Medium) (frames : List (Address × Outgoing)) :
    ∀ r ∈ m.settlements frames, r.Allowed m.opened := by
  induction frames generalizing m with
  | nil => simp [settlements]
  | cons head rest ih =>
    obtain ⟨sender, frame⟩ := head
    have later := ih (m.settle sender frame).2
    rw [opened_settle] at later
    exact List.forall_mem_cons.2 ⟨m.allowed_fate sender frame, later⟩

/-- What a pump has to report, of each frame under way. -/
def reports (m : Medium) : List Settlement :=
  { m with inFlight := .empty }.settlements m.inFlight.entries

/-- A pump reports on each frame under way, in order. -/
theorem map_sending_reports (m : Medium) : m.reports.map Settlement.sending = m.inFlight.entries :=
  map_sending_settlements ..

/-- What a pump reports could have happened. -/
theorem allowed_reports (m : Medium) : ∀ r ∈ m.reports, r.Allowed m.opened :=
  allowed_settlements { m with inFlight := .empty } m.inFlight.entries

/-- A pump tells the signals of its reports and counts them. -/
theorem pump_eq (m : Medium) :
    m.pump.1 = m.reports.flatMap Settlement.signals ∧
      m.pump.2.stats = m.reports.foldl MediumStats.count m.stats :=
  settleAll_eq { m with inFlight := .empty } m.inFlight.entries

end Medium

/-! ## Counts -/

namespace MediumStats

/-- Every attempt was lost or delivered a frame. -/
def Balanced (s : MediumStats) : Prop := s.attempts = s.lost + s.delivered

private theorem Balanced.count {s : MediumStats} (h : s.Balanced) (r : Settlement) :
    (s.count r).Balanced := by
  obtain ⟨sender, frame, fate⟩ := r
  unfold Balanced at h ⊢
  cases fate with
  | arrived retries =>
    simp only [MediumStats.count]
    omega
  | givenUp =>
    simp only [MediumStats.count]
    omega

/-- A report stands for one more attempt than retries, and for one frame that was delivered or given
up. -/
theorem count_adds (s : MediumStats) (r : Settlement) :
    (s.count r).attempts = s.attempts + (r.retries + 1) ∧
      (s.count r).delivered + (s.count r).timedOut = s.delivered + s.timedOut + 1 := by
  obtain ⟨sender, frame, fate⟩ := r
  cases fate with
  | arrived retries => exact ⟨rfl, Nat.succ_add ..⟩
  | givenUp => exact ⟨rfl, rfl⟩

/-- Counting reports leaves the counts balanced. -/
theorem Balanced.countAll {s : MediumStats} (h : s.Balanced) (reports : List Settlement) :
    (reports.foldl MediumStats.count s).Balanced := by
  induction reports generalizing s with
  | nil => exact h
  | cons r rest ih => exact ih (h.count r)

/-- The reports of a pump add their attempts, and one frame each. -/
theorem countAll_adds (s : MediumStats) (reports : List Settlement) :
    (reports.foldl count s).attempts = s.attempts + (reports.map fun r ↦ r.retries + 1).sum ∧
      (reports.foldl count s).delivered + (reports.foldl count s).timedOut =
        s.delivered + s.timedOut + reports.length := by
  induction reports generalizing s with
  | nil => exact ⟨rfl, rfl⟩
  | cons r rest ih =>
    obtain ⟨attempts, frames⟩ := s.count_adds r
    obtain ⟨moreAttempts, moreFrames⟩ := ih (s.count r)
    simp only [List.foldl_cons, List.map_cons, List.sum_cons, List.length_cons]
    omega

end MediumStats

/-- Pumping the medium makes these reports: one of every frame under way, in ascending order of
senders, as one that arrived only if it could. Nothing else is told and nothing is under way then;
the attempts grew for each frame by its retries and one. -/
structure Medium.Pumps (m : Medium) (reports : List Settlement) : Prop where
  /-- The frames under way are reported in order. -/
  sendings : reports.map Settlement.sending = m.inFlight.entries
  /-- Only an open node is reached, within the retries allowed. -/
  allowed : ∀ r ∈ reports, r.Allowed m.opened
  /-- The signals are those of the reports. -/
  signals : m.pump.1 = reports.flatMap Settlement.signals
  /-- Nothing is left under way. -/
  settled : m.pump.2.inFlight = .empty
  /-- The same nodes are open. -/
  opened : m.pump.2.opened = m.opened
  /-- The attempts were made for the reported frames. -/
  attempts : m.pump.2.stats.attempts =
    m.stats.attempts + (reports.map fun r ↦ r.retries + 1).sum

/-- A pump does what its reports say. -/
theorem Medium.pumps_reports (m : Medium) : m.Pumps m.reports where
  sendings := m.map_sending_reports
  allowed := m.allowed_reports
  signals := m.pump_eq.1
  settled := m.inFlight_pump
  opened := m.opened_pump
  attempts := by
    rw [m.pump_eq.2]
    exact (MediumStats.countAll_adds m.stats m.reports).1

end CollectionTree
