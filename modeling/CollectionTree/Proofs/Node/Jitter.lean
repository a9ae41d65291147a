import CollectionTree.Node.Schedule
import CollectionTree.Proofs.Random.Sampling
import Mathlib.Algebra.GroupWithZero.Nat

/-!
# Delays between flushes

The delay to the next flush by the clock is the shortest interval that is asked for and at most a
quarter of it more. The quarter is drawn from a source of any kind, and in one of three ways that
depend on its size; nothing is drawn where it is no time at all.

The main statement is `FlushSchedule.nextDelay_within_quarter`.
-/

namespace CollectionTree

namespace Duration

/-- The whole seconds are a number of 64 bits. -/
def Representable (d : Duration) : Prop := d.secs < UInt64.size

instance (d : Duration) : Decidable d.Representable := inferInstanceAs (Decidable (_ < _))

/-- What is no longer than a representable span is representable. -/
theorem Representable.of_le {d most : Duration} (representable : most.Representable)
    (normal : most.Normal) (le : d.toNanos ≤ most.toNanos) : d.Representable := by
  simp only [Representable, Normal, toNanos, nanosPerSecond] at representable normal le ⊢
  omega

private theorem eq_of_toNanos_eq {d e : Duration} (d_normal : d.Normal) (e_normal : e.Normal)
    (same : d.toNanos = e.toNanos) : d = e := by
  rw [← ofNanos_toNanos d_normal, same, ofNanos_toNanos e_normal]

/-! ## The shortest span -/

/-- Of some spans one is the shortest. -/
theorem isSome_shortest {spans : List Duration} (some : spans ≠ []) :
    (shortest spans).isSome = true := by
  cases spans with
  | nil => exact absurd rfl some
  | cons d rest =>
    unfold shortest
    split <;> rfl

/-- What is found as the shortest is one of the spans, and none is shorter. -/
theorem shortest_spec {spans : List Duration} (normal : ∀ d ∈ spans, d.Normal) {e : Duration}
    (found : shortest spans = some e) : e ∈ spans ∧ ∀ d ∈ spans, e.toNanos ≤ d.toNanos := by
  induction spans generalizing e with
  | nil => cases found
  | cons d rest ih =>
    obtain ⟨head, tail⟩ := List.forall_mem_cons.1 normal
    unfold shortest at found
    split at found
    · next none =>
      obtain rfl := Option.some.inj found
      have alone : rest = [] := by
        by_contra some
        rw [← Option.not_isSome_iff_eq_none, isSome_shortest some] at none
        exact none rfl
      simp [alone]
    · next other best =>
      obtain ⟨mem, least⟩ := ih tail best
      have order := le_iff head (tail other mem)
      obtain rfl := Option.some.inj found
      split
      · next before =>
        have first := order.1 before
        exact ⟨List.mem_cons_self, List.forall_mem_cons.2
          ⟨Nat.le_refl _, fun f f_mem ↦ Nat.le_trans first (least f f_mem)⟩⟩
      · next behind =>
        have later : other.toNanos ≤ d.toNanos := by
          have := order.not.1 behind
          omega
        exact ⟨List.mem_cons_of_mem _ mem, List.forall_mem_cons.2 ⟨later, least⟩⟩

/-- A span among others than which none is shorter is found as the shortest. -/
theorem shortest_eq {spans : List Duration} (normal : ∀ d ∈ spans, d.Normal) {least : Duration}
    (mem : least ∈ spans) (le : ∀ d ∈ spans, least.toNanos ≤ d.toNanos) :
    shortest spans = some least := by
  obtain ⟨e, found⟩ := Option.isSome_iff_exists.1 (isSome_shortest (List.ne_nil_of_mem mem))
  obtain ⟨e_mem, e_le⟩ := shortest_spec normal found
  have same : e.toNanos = least.toNanos := Nat.le_antisymm (e_le least mem) (le e e_mem)
  rw [found, eq_of_toNanos_eq (normal e e_mem) (normal least mem) same]

end Duration

namespace FlushSchedule

variable {isSink : Bool} {intervals : List Duration} {base least : Duration} {source : Source}

private theorem base_ofRole (isSink : Bool) (intervals : List Duration) :
    (ofRole isSink).base intervals = if isSink then none else Duration.shortest intervals := by
  cases isSink <;> rfl

private theorem base_eq_none_iff : (ofRole isSink).base intervals = none ↔
    isSink = true ∨ intervals = [] := by
  rw [base_ofRole]
  cases isSink with
  | true => simp
  | false =>
    cases intervals with
    | nil => simp [Duration.shortest]
    | cons d rest =>
      have some : (Duration.shortest (d :: rest)).isSome = true :=
        Duration.isSome_shortest (List.cons_ne_nil _ _)
      simpa [Option.isSome_iff_ne_none] using some

private theorem nextDelay_of_none {schedule : FlushSchedule}
    (none : schedule.base intervals = none) :
    schedule.nextDelay intervals source = (.none, source) := by
  simp only [nextDelay, none]

/-- Where a quarter of the base is no time at all, the delay is the base, and nothing is drawn. -/
theorem nextDelay_of_zero {schedule : FlushSchedule} (found : schedule.base intervals = some base)
    (zero : base.toNanos / 4 = 0) : schedule.nextDelay intervals source = (some base, source) := by
  have isZero : base.quarter.isZero = true := by
    rw [Duration.isZero_iff, Duration.toNanos_quarter, zero]
  simp only [nextDelay, found, if_pos isZero]

/-- Elsewhere a span up to the quarter is drawn and added. -/
theorem nextDelay_of_pos {schedule : FlushSchedule} (found : schedule.base intervals = some base)
    (pos : base.toNanos / 4 ≠ 0) : schedule.nextDelay intervals source =
      (some (base.add (source.span base.quarter).1), (source.span base.quarter).2) := by
  have isZero : ¬base.quarter.isZero = true := by
    rwa [Duration.isZero_iff, Duration.toNanos_quarter]
  simp only [nextDelay, found, if_neg isZero]

private theorem nextDelay_eq_none_iff : ((ofRole isSink).nextDelay intervals source).1 = none ↔
    isSink = true ∨ intervals = [] := by
  rw [← base_eq_none_iff]
  cases found : (ofRole isSink).base intervals with
  | none => simp [nextDelay_of_none found]
  | some base =>
    by_cases zero : base.toNanos / 4 = 0
    · simp [nextDelay_of_zero found zero]
    · simp [nextDelay_of_pos found zero]

/-- The delay is the base and at most a quarter more, in a form that the machine can hold. -/
def Within (least d : Duration) : Prop :=
  d.Normal ∧ d.Representable ∧ least.toNanos ≤ d.toNanos ∧
    d.toNanos ≤ least.toNanos + least.toNanos / 4

instance (least d : Duration) : Decidable (Within least d) := inferInstanceAs (Decidable (_ ∧ _))

private theorem within_add {jitter : Duration}
    (representable : (least.add least.quarter).Representable)
    (le : jitter.toNanos ≤ least.quarter.toNanos) : Within least (least.add jitter) := by
  have long : (least.add jitter).toNanos ≤ (least.add least.quarter).toNanos := by
    rw [Duration.toNanos_add, Duration.toNanos_add]
    omega
  refine ⟨Duration.normal_add .., representable.of_le (Duration.normal_add ..) long, ?_, ?_⟩
  · rw [Duration.toNanos_add]
    omega
  · rwa [Duration.toNanos_add least least.quarter, Duration.toNanos_quarter] at long

/-- There is a delay unless the node is the sink or nothing asks for an interval. It is the shortest
interval and at most a quarter more, whatever is drawn, and the shortest interval itself without a
draw where the quarter is no time at all. Elsewhere what is added is drawn in the way that the size
of the quarter asks for: with a list that is played back as many words are taken as it takes, and
from any source all that can be drawn so stays within the quarter. -/
theorem nextDelay_within_quarter (isSink : Bool) (intervals : List Duration)
    (normal : ∀ d ∈ intervals, d.Normal) (source : Source) :
    (((ofRole isSink).nextDelay intervals source).1 = none ↔ isSink = true ∨ intervals = []) ∧
      ∀ least ∈ intervals, (∀ d ∈ intervals, least.toNanos ≤ d.toNanos) → isSink = false →
        ((least.add least.quarter).Representable →
          (∃ d, ((ofRole isSink).nextDelay intervals source).1 = some d ∧ Within least d) ∧
          ∀ jitter after, Source.Samples least.quarter source jitter after →
            Within least (least.add jitter)) ∧
        (least.toNanos / 4 = 0 →
          (ofRole isSink).nextDelay intervals source = (some least, source)) ∧
        (least.toNanos / 4 ≠ 0 → ∀ left, source.Plays left →
          ∃ jitter after, Source.Samples least.quarter source jitter after ∧
            (ofRole isSink).nextDelay intervals source = (some (least.add jitter), after)) := by
  refine ⟨nextDelay_eq_none_iff, fun least mem le inner ↦ ?_⟩
  have found : (ofRole isSink).base intervals = some least := by
    rw [base_ofRole, inner]
    exact Duration.shortest_eq normal mem le
  have quarter : least.quarter.Normal := Duration.normal_quarter (normal least mem)
  refine ⟨fun representable ↦ ⟨?_, ?_⟩, nextDelay_of_zero found, ?_⟩
  · by_cases zero : least.toNanos / 4 = 0
    · have self : Within least least := by
        refine ⟨normal least mem, ?_, Nat.le_refl _, Nat.le_add_right ..⟩
        apply representable.of_le (Duration.normal_add ..)
        rw [Duration.toNanos_add]
        omega
      exact ⟨least, by rw [nextDelay_of_zero found zero], self⟩
    · exact ⟨_, by rw [nextDelay_of_pos found zero],
        within_add representable (source.span_le quarter).2⟩
  · intro jitter after drawn
    exact within_add representable (drawn.le quarter).2
  · intro pos left plays
    exact ⟨_, _, plays.samples_span least.quarter, nextDelay_of_pos found pos⟩

/-- Two intervals of thousands of years, so that seconds and nanoseconds are drawn apart. -/
def longIntervals : List Duration := [⟨2 ^ 40, 0⟩, ⟨2 ^ 37, 8⟩]

/-- Two pairs of draws: with the first the largest seconds and nanoseconds are drawn, with the
second half of those. -/
def twoPairs : Source :=
  .ofList [0xFFFFFFFFFFFFFFFF, 0xFFFFFFFF, 0x8000000000000000, 0x80000000]

/-- The first pair of draws is longer than the quarter and refused, the second is taken. -/
theorem nextDelay_longIntervals :
    (∀ d ∈ longIntervals, d.Normal) ∧ ⟨2 ^ 37, 8⟩ ∈ longIntervals ∧
      (∀ d ∈ longIntervals, Duration.toNanos ⟨2 ^ 37, 8⟩ ≤ d.toNanos) ∧
      (Duration.add ⟨2 ^ 37, 8⟩ (Duration.quarter ⟨2 ^ 37, 8⟩)).Representable ∧
      Duration.toNanos ⟨2 ^ 37, 8⟩ / 4 ≠ 0 ∧
      ∃ d, (ofRole false).nextDelay longIntervals twoPairs = (some d, .listed [] 4) ∧
        d = ⟨2 ^ 37 + 2 ^ 34, 500000008⟩ ∧ Within ⟨2 ^ 37, 8⟩ d ∧
        ∃ jitter, Source.Samples (Duration.quarter ⟨2 ^ 37, 8⟩) twoPairs jitter (.listed [] 4) := by
  have normal : ∀ d ∈ longIntervals, d.Normal := by decide
  have mem : (⟨2 ^ 37, 8⟩ : Duration) ∈ longIntervals := by decide
  have least : ∀ d ∈ longIntervals, Duration.toNanos ⟨2 ^ 37, 8⟩ ≤ d.toNanos := by decide
  have representable :
      (Duration.add ⟨2 ^ 37, 8⟩ (Duration.quarter ⟨2 ^ 37, 8⟩)).Representable := by decide
  have pos : Duration.toNanos ⟨2 ^ 37, 8⟩ / 4 ≠ 0 := by decide
  have run : (ofRole false).nextDelay longIntervals twoPairs =
      (some ⟨2 ^ 37 + 2 ^ 34, 500000008⟩, .listed [] 4) := by decide +kernel
  obtain ⟨-, delays⟩ := nextDelay_within_quarter false longIntervals normal twoPairs
  obtain ⟨within, -, sampled⟩ := delays _ mem least rfl
  obtain ⟨d, found, d_within⟩ := (within representable).1
  obtain ⟨jitter, after, drawn, same⟩ := sampled pos _ (Source.plays_ofList _)
  rw [run] at found same
  obtain rfl := Option.some.inj found
  obtain ⟨-, rfl⟩ := Prod.mk.inj same
  exact ⟨normal, mem, least, representable, pos, _, run, rfl, d_within, jitter, drawn⟩

end FlushSchedule

end CollectionTree
