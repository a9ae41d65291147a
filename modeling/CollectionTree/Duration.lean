/-!
# Spans of time

A span is a number of whole seconds and the nanoseconds beyond them. Sums carry nanoseconds into
seconds, and a quarter carries seconds into nanoseconds, so both stay exact; `toNanos` is the view
in which the operations are plain arithmetic.
-/

namespace CollectionTree

/-- Nanoseconds in a second. -/
def nanosPerSecond : Nat := 1000000000

/-- A span of time. -/
structure Duration where
  secs : Nat
  nanos : Nat
  deriving DecidableEq, Repr

namespace Duration

/-- The nanoseconds beyond the whole seconds make less than one more second. -/
def Normal (d : Duration) : Prop := d.nanos < nanosPerSecond

instance (d : Duration) : Decidable d.Normal := inferInstanceAs (Decidable (_ < _))

/-- The whole span in nanoseconds. -/
def toNanos (d : Duration) : Nat := d.secs * nanosPerSecond + d.nanos

/-- The span of so many nanoseconds. -/
def ofNanos (nanos : Nat) : Duration := ⟨nanos / nanosPerSecond, nanos % nanosPerSecond⟩

/-- The span of so many seconds. -/
def ofSecs (secs : Nat) : Duration := ⟨secs, 0⟩

/-- The span of so many milliseconds. -/
def ofMillis (millis : Nat) : Duration := ⟨millis / 1000, millis % 1000 * 1000000⟩

/-- The span of seconds and nanoseconds, where the latter may make whole seconds. -/
def make (secs nanos : Nat) : Duration :=
  ⟨secs + nanos / nanosPerSecond, nanos % nanosPerSecond⟩

/-- The whole span in milliseconds, rounded down. -/
def toMillis (d : Duration) : Nat := d.secs * 1000 + d.nanos / 1000000

/-- No time at all. -/
def zero : Duration := ⟨0, 0⟩

/-- Whether the span is no time at all. -/
def isZero (d : Duration) : Bool := d.secs == 0 && d.nanos == 0

/-- One span after the other. -/
def add (a b : Duration) : Duration := make (a.secs + b.secs) (a.nanos + b.nanos)

/-- A quarter of the span, rounded down to nanoseconds. -/
def quarter (d : Duration) : Duration :=
  ⟨d.secs / 4, d.nanos / 4 + (d.secs % 4 * nanosPerSecond + d.nanos % 4) / 4⟩

/-- Whether the first span is at most as long as the second: seconds decide before nanoseconds. -/
def le (a b : Duration) : Bool := a.secs < b.secs || a.secs == b.secs && a.nanos ≤ b.nanos

/-- The shortest of some spans, the first of equal ones; none of none. -/
def shortest : List Duration → Option Duration
  | [] => none
  | d :: rest =>
    match shortest rest with
    | none => some d
    | some e => some (if d.le e then d else e)

/-- A span made from nanoseconds has that many. -/
@[simp] theorem toNanos_ofNanos (nanos : Nat) : (ofNanos nanos).toNanos = nanos := by
  simp [ofNanos, toNanos, nanosPerSecond]; omega

/-- A normal span is the one that its nanoseconds make. -/
theorem ofNanos_toNanos {d : Duration} (h : d.Normal) : ofNanos d.toNanos = d := by
  cases d
  simp_all [ofNanos, toNanos, Normal, nanosPerSecond]
  omega

/-- What is made from nanoseconds is normal. -/
theorem normal_ofNanos (nanos : Nat) : (ofNanos nanos).Normal := by
  simp [ofNanos, Normal, nanosPerSecond]; omega

private theorem normal_make (secs nanos : Nat) : (make secs nanos).Normal := by
  simp [make, Normal, nanosPerSecond]; omega

/-- Nanoseconds beyond a second are carried over, and none is lost. -/
@[simp] theorem toNanos_make (secs nanos : Nat) :
    (make secs nanos).toNanos = secs * nanosPerSecond + nanos := by
  simp [make, toNanos, nanosPerSecond]; omega

/-- A sum is normal, whatever was added. -/
theorem normal_add (a b : Duration) : (a.add b).Normal := normal_make _ _

/-- Adding spans adds their nanoseconds. -/
@[simp] theorem toNanos_add (a b : Duration) : (a.add b).toNanos = a.toNanos + b.toNanos := by
  simp [add, make, toNanos, nanosPerSecond]; omega

/-- A quarter of a span has a quarter of its nanoseconds, rounded down. -/
@[simp] theorem toNanos_quarter (d : Duration) : d.quarter.toNanos = d.toNanos / 4 := by
  simp [quarter, toNanos, nanosPerSecond]; omega

/-- A quarter of a normal span is normal. -/
theorem normal_quarter {d : Duration} (h : d.Normal) : d.quarter.Normal := by
  simp_all [quarter, Normal, nanosPerSecond]; omega

/-- A span is zero if it has no nanoseconds. -/
theorem isZero_iff (d : Duration) : d.isZero ↔ d.toNanos = 0 := by
  simp only [isZero, toNanos, nanosPerSecond, Bool.and_eq_true, beq_iff_eq]
  omega

/-- On normal spans the order is that of the nanoseconds. -/
theorem le_iff {a b : Duration} (ha : a.Normal) (hb : b.Normal) :
    a.le b ↔ a.toNanos ≤ b.toNanos := by
  simp_all [le, Normal, toNanos, nanosPerSecond]; omega

end Duration

end CollectionTree
