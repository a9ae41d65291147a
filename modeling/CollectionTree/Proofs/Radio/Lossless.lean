import CollectionTree.Proofs.Radio.Settling

/-!
# A medium without losses

Where no attempt is ever lost, every frame for an open node arrives at the first attempt: the
signals of a pump are determined by the frames under way, whatever is drawn (`pump_of_lossless`).
-/

namespace CollectionTree

namespace Chance

/-- Zero, with or without a sign, states no chance at all. -/
theorem ofNumber_of_magnitude_eq_zero {p : Binary64} (zero : p.magnitude = 0) :
    ofNumber p = never := by
  unfold ofNumber
  split
  · rfl
  · have nothing : p.scaledFloor 64 = 0 := by
      have significand : p.significand = 0 := by
        simp [Binary64.significand, zero, Binary64.exponentUnit]
      simp [Binary64.scaledFloor, significand]
    rw [nothing]
    rfl

private theorem streak_never (tries : Nat) (source : Source) :
    (never.streak tries source).1 = 0 := by
  cases tries with
  | zero => rfl
  | succ tries =>
    have not := draw_never source
    simp only [streak, not, Bool.false_eq_true, if_false]

end Chance

/-- The signals of some frames that all arrive at the first attempt. -/
def deliveries (frames : List (Address × Outgoing)) : List (Address × Signal) :=
  frames.flatMap fun e ↦ [(e.2.target, .received e.1 e.2.payload), (e.1, .sent e.2.target 0)]

namespace Medium

variable {m : Medium}

/-- Settling a frame keeps the loss. -/
@[simp] theorem loss_settle (m : Medium) (sender : Address) (frame : Outgoing) :
    (m.settle sender frame).2.loss = m.loss := by
  simp only [settle]
  split <;> rfl

/-- Settling frames keeps the loss. -/
@[simp] theorem loss_settleAll (m : Medium) (frames : List (Address × Outgoing)) :
    (m.settleAll frames).2.loss = m.loss := by
  induction frames generalizing m with
  | nil => rfl
  | cons head rest ih => simp [settleAll, ih]

/-- Pumping keeps the loss. -/
@[simp] theorem loss_pump (m : Medium) : m.pump.2.loss = m.loss :=
  loss_settleAll { m with inFlight := .empty } m.inFlight.entries

/-- Putting a frame under way keeps the loss. -/
@[simp] theorem loss_carrying (m : Medium) (sender : Address) (frame : Option Outgoing) :
    (m.carrying sender frame).loss = m.loss := by
  cases frame <;> rfl

/-- The first attempt at an open node succeeds. -/
theorem fate_of_lossless (lossless : m.loss = .never) {frame : Outgoing}
    (opened : m.opened.contains frame.target = true) : m.fate frame = .arrived 0 := by
  have none : (m.losses frame.target (frame.maxRetries.toNat + 1)).1 = 0 := by
    rw [losses, if_pos opened, lossless, Chance.streak_never]
  rw [fate, none, if_pos (Nat.succ_pos _)]

private theorem settleAll_of_lossless (lossless : m.loss = .never)
    {frames : List (Address × Outgoing)}
    (opened : ∀ e ∈ frames, m.opened.contains e.2.target = true) :
    (m.settleAll frames).1 = deliveries frames := by
  induction frames generalizing m with
  | nil => rfl
  | cons head rest ih =>
    obtain ⟨sender, frame⟩ := head
    have first := (m.settle_eq sender frame).1
    rw [fate_of_lossless lossless (opened (sender, frame) List.mem_cons_self)] at first
    have later : ((m.settle sender frame).2.settleAll rest).1 = deliveries rest := by
      apply ih
      · rw [loss_settle, lossless]
      · intro e he
        rw [opened_settle]
        exact opened e (List.mem_cons_of_mem _ he)
    simp only [settleAll, first, later]
    rfl

/-- Every frame under way to an open node arrives. -/
theorem pump_of_lossless (lossless : m.loss = .never)
    (opened : ∀ e ∈ m.inFlight.entries, m.opened.contains e.2.target = true) :
    m.pump.1 = deliveries m.inFlight.entries := by
  have vacant : { m with inFlight := .empty }.loss = .never := lossless
  exact settleAll_of_lossless vacant opened

end Medium
end CollectionTree
