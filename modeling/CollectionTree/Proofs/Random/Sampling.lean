import CollectionTree.Random.Uniform
import Mathlib.Tactic.Common

/-!
# Sampling without a bound on the draws

`Source.below` and `Source.span` give up after so many draws. The relations of this module say what
is drawn without giving up: a draw that is refused is followed by another, however long that takes.

The main statements: with a list that is played back the bounded sampling is the unbounded one
(`Source.Plays.samples_span`), and what is drawn up to a span is no longer than it
(`Source.span_le`).
-/

namespace CollectionTree.Source

/-! ## Played-back lists -/

/-- The source plays back a list, of which this much is left. -/
def Plays (source : Source) (left : Nat) : Prop :=
  ∃ rest used, source = listed rest used ∧ rest.length = left

/-- A list that nothing was taken from is left as a whole. -/
theorem plays_ofList (draws : List UInt64) : (ofList draws).Plays draws.length :=
  ⟨draws, 0, rfl, rfl⟩

variable {source after : Source} {left count n : Nat} {width : Width}

/-- A draw takes the next word of the list, if there is one left. -/
theorem Plays.draw (plays : source.Plays left) (width : Width) :
    (source.draw width).2.Plays (left - 1) := by
  obtain ⟨rest, used, rfl, rfl⟩ := plays
  cases rest with
  | nil => exact ⟨[], used + 1, by cases width <;> rfl, rfl⟩
  | cons word rest => exact ⟨rest, used + 1, by cases width <;> rfl, rfl⟩

/-- The list goes on with zeros. -/
theorem Plays.fst_draw (plays : source.Plays 0) (width : Width) : (source.draw width).1 = 0 := by
  obtain ⟨rest, used, rfl, none⟩ := plays
  obtain rfl := List.eq_nil_of_length_eq_zero none
  cases width <;> rfl

private theorem Plays.patience (plays : source.Plays left) : source.patience = left + 1 := by
  obtain ⟨rest, used, rfl, rfl⟩ := plays
  rfl

/-! ## Even draws -/

/-- From `count` numbers `n` is drawn, all equally likely, which leaves the source as `after`. -/
inductive Evenly (width : Width) (count : Nat) : Source → Nat → Source → Prop
  /-- The next draw lies in the zone and is taken. -/
  | taken {source : Source}
    (inside : (source.draw width).1 * count % width.size ≤ zone width count) :
    Evenly width count source ((source.draw width).1 * count / width.size) (source.draw width).2
  /-- The next draw is refused, and another one follows. -/
  | refused {source after : Source} {n : Nat}
    (outside : zone width count < (source.draw width).1 * count % width.size)
    (later : Evenly width count (source.draw width).2 n after) :
    Evenly width count source n after

/-- With more tries than words left, the bounded search ends with a draw that is taken: the zeros
behind the list are never refused. -/
theorem Plays.evenly_belowWithin (plays : source.Plays left) {tries : Nat} (enough : left < tries) :
    Evenly width count source (belowWithin width count tries source).1
      (belowWithin width count tries source).2 := by
  induction tries generalizing source left with
  | zero => cases enough
  | succ tries ih =>
    simp only [belowWithin]
    split
    · next inside => exact .taken inside
    · next outside =>
      have some : left ≠ 0 := by
        rintro rfl
        simp [plays.fst_draw] at outside
      exact .refused (Nat.not_le.1 outside) (ih (plays.draw width) (by omega))

private theorem Plays.evenly_below (plays : source.Plays left) :
    Evenly width count source (source.below width count).1 (source.below width count).2 :=
  plays.evenly_belowWithin (by rw [plays.patience]; exact Nat.lt_succ_self left)

/-- An even draw uses up words of the list, at least one unless it is the least number. -/
theorem Evenly.plays (drawn : Evenly width count source n after) (plays : source.Plays left) :
    ∃ rest, after.Plays rest ∧ rest ≤ left ∧ (n ≠ 0 → rest < left) := by
  induction drawn generalizing left with
  | taken inside =>
    refine ⟨left - 1, plays.draw width, Nat.sub_le .., fun some ↦ ?_⟩
    by_contra none
    obtain rfl : left = 0 := by omega
    simp [plays.fst_draw] at some
  | refused outside later ih =>
    have some : left ≠ 0 := by
      rintro rfl
      simp [plays.fst_draw] at outside
    obtain ⟨rest, kept, le, -⟩ := ih (plays.draw width)
    exact ⟨rest, kept, by omega, fun _ ↦ by omega⟩

/-! ## Spans -/

/-- Seconds and nanoseconds are drawn apart, as often as together they are longer than `most`. -/
inductive Pairs (most : Duration) : Source → Duration → Source → Prop
  /-- The pair is no longer than `most` and taken. -/
  | taken {source middle after : Source} {secs nanos : Nat}
    (first : Evenly .word64 (most.secs + 1) source secs middle)
    (second : Evenly .word32 nanosPerSecond middle nanos after)
    (inside : ¬(secs = most.secs ∧ most.nanos < nanos)) : Pairs most source ⟨secs, nanos⟩ after
  /-- The pair is longer, and another one follows. -/
  | refused {source middle next after : Source} {secs nanos : Nat} {span : Duration}
    (first : Evenly .word64 (most.secs + 1) source secs middle)
    (second : Evenly .word32 nanosPerSecond middle nanos next)
    (outside : secs = most.secs ∧ most.nanos < nanos) (later : Pairs most next span after) :
    Pairs most source span after

/-- A span up to `most` is drawn: below a second as nanoseconds of 32 bits, as nanoseconds of 64
bits where `most` has so few, and beyond that in pairs. -/
inductive Samples (most : Duration) : Source → Duration → Source → Prop
  | small {source after : Source} {nanos : Nat} (below : most.secs = 0)
    (drawn : Evenly .word32 (most.nanos + 1) source nanos after) :
    Samples most source ⟨0, nanos⟩ after
  | medium {source after : Source} {nanos : Nat} (above : most.secs ≠ 0)
    (stated : most.toNanos < Width.word64.size)
    (drawn : Evenly .word64 (most.toNanos + 1) source nanos after) :
    Samples most source (.ofNanos nanos) after
  | large {source after : Source} {span : Duration} (beyond : Width.word64.size ≤ most.toNanos)
    (drawn : Pairs most source span after) : Samples most source span after

/-- With more tries than words left, the bounded search ends with a pair that is taken: a pair that
is refused has seconds, and those were not drawn as zero. -/
theorem Plays.pairs_spanWithin {most : Duration} (long : most.secs ≠ 0) (plays : source.Plays left)
    {tries : Nat} (enough : left < tries) :
    Pairs most source (spanWithin most tries source).1 (spanWithin most tries source).2 := by
  induction tries generalizing source left with
  | zero => cases enough
  | succ tries ih =>
    have first : Evenly .word64 (most.secs + 1) source _ _ := plays.evenly_below
    obtain ⟨between, middle, le, less⟩ := first.plays plays
    have second : Evenly .word32 nanosPerSecond _ _ _ := middle.evenly_below
    obtain ⟨rest, later, lower, -⟩ := second.plays middle
    simp only [spanWithin]
    split
    · next outside =>
      have fewer := less (outside.1.trans_ne long)
      exact .refused first second outside (ih later (by omega))
    · next inside => exact .taken first second inside

/-- With a list that is played back, sampling does not give up. -/
theorem Plays.samples_span (plays : source.Plays left) (most : Duration) :
    Samples most source (source.span most).1 (source.span most).2 := by
  unfold span
  split
  · next below => exact .small below plays.evenly_below
  · next above =>
    split
    · next stated => exact .medium above stated plays.evenly_below
    · next beyond =>
      apply Samples.large (Nat.not_lt.1 beyond)
      apply plays.pairs_spanWithin above
      rw [plays.patience]
      exact Nat.lt_succ_self left

/-! ## What is drawn is in range -/

private theorem Evenly.lt (some : 0 < count) (drawn : Evenly width count source n after) :
    n < count := by
  induction drawn with
  | taken inside =>
    rw [Nat.div_lt_iff_lt_mul (by cases width <;> decide), Nat.mul_comm]
    exact Nat.mul_lt_mul_of_pos_left (draw_lt ..) some
  | refused outside later ih => exact ih

/-- A pair that is taken is no longer than it may be. -/
theorem pair_le {most : Duration} {secs nanos : Nat} (few : secs < most.secs + 1)
    (short : nanos < nanosPerSecond) (inside : ¬(secs = most.secs ∧ most.nanos < nanos)) :
    Duration.Normal ⟨secs, nanos⟩ ∧ Duration.toNanos ⟨secs, nanos⟩ ≤ most.toNanos := by
  simp only [Duration.Normal, Duration.toNanos, nanosPerSecond] at short inside ⊢
  omega

private theorem small_le {most : Duration} (normal : most.Normal) (none : most.secs = 0)
    {nanos : Nat} (few : nanos < most.nanos + 1) :
    Duration.Normal ⟨0, nanos⟩ ∧ Duration.toNanos ⟨0, nanos⟩ ≤ most.toNanos := by
  simp only [Duration.Normal, Duration.toNanos, none] at normal ⊢
  omega

private theorem ofNanos_le {most : Duration} {nanos : Nat} (few : nanos < most.toNanos + 1) :
    (Duration.ofNanos nanos).Normal ∧ (Duration.ofNanos nanos).toNanos ≤ most.toNanos := by
  rw [Duration.toNanos_ofNanos]
  exact ⟨Duration.normal_ofNanos _, Nat.le_of_lt_succ few⟩

private theorem Pairs.le {most span : Duration} (drawn : Pairs most source span after) :
    span.Normal ∧ span.toNanos ≤ most.toNanos := by
  induction drawn with
  | taken first second inside =>
    exact pair_le (first.lt (Nat.succ_pos _)) (second.lt (by decide)) inside
  | refused first second outside later ih => exact ih

/-- Sampling without a bound on the draws, from whatever source, gives a span no longer than it may
be. -/
theorem Samples.le {most span : Duration} (normal : most.Normal)
    (drawn : Samples most source span after) : span.Normal ∧ span.toNanos ≤ most.toNanos := by
  cases drawn with
  | small none drawn => exact small_le normal none (drawn.lt (Nat.succ_pos _))
  | medium above stated drawn => exact ofNanos_le (drawn.lt (Nat.succ_pos _))
  | large beyond drawn => exact drawn.le

private theorem spanWithin_le {most : Duration} (tries : Nat) (source : Source) :
    (spanWithin most tries source).1.Normal ∧
      (spanWithin most tries source).1.toNanos ≤ most.toNanos := by
  induction tries generalizing source with
  | zero => simp [spanWithin, Duration.Normal, Duration.zero, Duration.toNanos, nanosPerSecond]
  | succ tries ih =>
    simp only [spanWithin]
    split
    · exact ih _
    · next inside => exact pair_le (below_lt (Nat.succ_pos _) _) (below_lt (by decide) _) inside

/-- Nor is one that is drawn with a bound on the draws. -/
theorem span_le {most : Duration} (normal : most.Normal) (source : Source) :
    (source.span most).1.Normal ∧ (source.span most).1.toNanos ≤ most.toNanos := by
  unfold span
  split
  · next none => exact small_le normal none (below_lt (Nat.succ_pos _) source)
  · split
    · exact ofNanos_le (below_lt (Nat.succ_pos _) source)
    · exact spanWithin_le _ source

end CollectionTree.Source
