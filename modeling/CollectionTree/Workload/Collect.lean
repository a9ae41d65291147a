import CollectionTree.Store.Job
import CollectionTree.Table

/-!
# Collecting readings

The collecting job keeps, for each time window, position and sensor, how many readings were taken,
their sum and the sum of their squares. All three wrap around at their width, so the order and the
grouping in which readings are combined never matter.
-/

namespace CollectionTree.Collect

/-- The id of the accumulators of this job. -/
def jobId : UInt8 := 1

/-- The sensor tag of temperature readings. -/
def temperature : UInt8 := 1

/-- What a tally of readings is about: the number of the time window, the position of the node, and
the sensor that was read. -/
structure Key where
  window : UInt16
  x : UInt8
  y : UInt8
  sensor : UInt8
  deriving DecidableEq, Repr

namespace Key

/-- The five bytes of a key. -/
def toBytes (key : Key) : Bytes := Bytes.ofUInt16 key.window ++ [key.x, key.y, key.sensor]

/-- The key with these bytes, if there are five. -/
def ofBytes? : Bytes → Option Key
  | [low, high, x, y, sensor] => some ⟨Bytes.uint16 low high, x, y, sensor⟩
  | _ => none

/-- The place of a key in the order of windows, then positions, then sensors. -/
def rank (key : Key) : Nat :=
  ((key.window.toNat * 256 + key.x.toNat) * 256 + key.y.toNat) * 256 + key.sensor.toNat

private theorem rank_inj {a b : Key} (h : a.rank = b.rank) : a = b := by
  have ha₁ := a.x.toNat_lt
  have ha₂ := a.y.toNat_lt
  have ha₃ := a.sensor.toNat_lt
  have hb₁ := b.x.toNat_lt
  have hb₂ := b.y.toNat_lt
  have hb₃ := b.sensor.toNat_lt
  cases a
  cases b
  simp only [rank] at *
  simp only [mk.injEq, ← UInt16.toNat_inj, ← UInt8.toNat_inj]
  omega

instance : Ranked Key where
  rank := rank
  eq_of_rank := rank_inj

/-- A key is read back from its bytes. -/
@[simp] theorem ofBytes?_toBytes (key : Key) : ofBytes? key.toBytes = some key := by
  simp [toBytes, ofBytes?, Bytes.ofUInt16]

/-- What is read as a key is that key's bytes. -/
theorem eq_toBytes_of_ofBytes? {bytes : Bytes} {key : Key} (h : ofBytes? bytes = some key) :
    bytes = key.toBytes := by
  unfold ofBytes? at h
  split at h
  · obtain rfl := Option.some.inj h
    simp [toBytes]
  · simp at h

end Key

/-- What is known about some readings: the sums of the squares and of the values, and how many there
are. -/
structure Tally where
  sqrSum : UInt32
  sum : Int32
  count : UInt16
  deriving DecidableEq, Repr

namespace Tally

/-- Nothing read yet. -/
def empty : Tally := ⟨0, 0, 0⟩

/-- One reading. -/
def reading (value : Int8) : Tally :=
  ⟨(value.toInt32 * value.toInt32).toUInt32, value.toInt32, 1⟩

/-- Two tallies together. -/
def merge (a b : Tally) : Tally := ⟨a.sqrSum + b.sqrSum, a.sum + b.sum, a.count + b.count⟩

/-- The mean of the readings; zero if there are none. -/
def mean (t : Tally) : Float :=
  if t.count = 0 then 0 else Float.ofInt t.sum.toInt / Float.ofNat t.count.toNat

/-- The variance of the readings; zero if there are none. -/
def variance (t : Tally) : Float :=
  if t.count = 0 then 0
  else Float.ofNat t.sqrSum.toNat / Float.ofNat t.count.toNat - t.mean * t.mean

/-- The ten bytes of a tally. -/
def toBytes (t : Tally) : Bytes :=
  Bytes.ofUInt32 t.sqrSum ++ Bytes.ofUInt32 t.sum.toUInt32 ++ Bytes.ofUInt16 t.count

/-- The tally with these bytes, if there are ten. -/
def ofBytes? : Bytes → Option Tally
  | [q₀, q₁, q₂, q₃, s₀, s₁, s₂, s₃, low, high] =>
    some ⟨Bytes.uint32 q₀ q₁ q₂ q₃, (Bytes.uint32 s₀ s₁ s₂ s₃).toInt32, Bytes.uint16 low high⟩
  | _ => none

/-- Merging does not depend on which tally comes first. -/
theorem merge_comm (a b : Tally) : a.merge b = b.merge a := by
  simp [merge, UInt32.add_comm, Int32.add_comm, UInt16.add_comm]

/-- Merging does not depend on grouping. -/
theorem merge_assoc (a b c : Tally) : (a.merge b).merge c = a.merge (b.merge c) := by
  simp [merge, UInt32.add_assoc, Int32.add_assoc, UInt16.add_assoc]

/-- Merging into an empty tally changes nothing. -/
@[simp] theorem empty_merge (t : Tally) : empty.merge t = t := by simp [merge, empty]

/-- A tally is read back from its bytes. -/
@[simp] theorem ofBytes?_toBytes (t : Tally) : ofBytes? t.toBytes = some t := by
  simp [toBytes, ofBytes?, Bytes.ofUInt16, Bytes.ofUInt32]

/-- What is read as a tally is that tally's bytes. -/
theorem eq_toBytes_of_ofBytes? {bytes : Bytes} {t : Tally} (h : ofBytes? bytes = some t) :
    bytes = t.toBytes := by
  unfold ofBytes? at h
  split at h
  · obtain rfl := Option.some.inj h
    simp [toBytes]
  · simp at h

/-- A tally has ten bytes. -/
@[simp] theorem length_toBytes (t : Tally) : t.toBytes.length = 10 := rfl

end Tally

/-- The window that a moment belongs to, counted in windows of so many seconds but at least one; the
last window that can be counted holds all that comes later. -/
def windowAt (windowSecs elapsed : Nat) : UInt16 :=
  (min (elapsed / max windowSecs 1) 65535).toUInt16

/-- The record of one reading; a fact without a sensor or a value makes none. -/
def map (x y : UInt8) (windowSecs elapsed : Nat) : (key value : Bytes) → List Record
  | sensor :: _, value :: _ =>
    [{ key := Key.toBytes ⟨windowAt windowSecs elapsed, x, y, sensor⟩
       value := (Tally.reading value.toInt8).toBytes }]
  | _, _ => []

/-- Merge a tally into a stored one, unless either is no tally. -/
def reduce (existing : Record) (incoming : Bytes) : Record :=
  match Tally.ofBytes? existing.value, Tally.ofBytes? incoming with
  | some stored, some further => { existing with value := (stored.merge further).toBytes }
  | _, _ => existing

/-- The collecting job of a node at a position. -/
def job (x y : UInt8) (windowSecs : Nat) : Job where
  map := map x y windowSecs
  reduce := reduce

end CollectionTree.Collect
