import CollectionTree.Store.Job
import CollectionTree.Table

/-!
# Reporting sightings

The detecting job keeps one record for each second and animal. The key says it all: values are
empty, and a second report of a sighting adds nothing to the first. Sightings are urgent.
-/

namespace CollectionTree.Detect

/-- The id of the accumulators of this job. -/
def jobId : UInt8 := 2

/-- An animal seen in some second. The last second that can be stated holds all later ones. -/
structure Detection where
  second : UInt16
  animal : UInt8
  deriving DecidableEq, Repr

namespace Detection

/-- The three bytes of a sighting. -/
def toBytes (d : Detection) : Bytes := Bytes.ofUInt16 d.second ++ [d.animal]

/-- The sighting with these bytes, if there are three. -/
def ofBytes? : Bytes → Option Detection
  | [low, high, animal] => some ⟨Bytes.uint16 low high, animal⟩
  | _ => none

/-- The place of a sighting in the order of seconds, then animals. -/
def rank (d : Detection) : Nat := d.second.toNat * 256 + d.animal.toNat

private theorem rank_inj {a b : Detection} (h : a.rank = b.rank) : a = b := by
  have ha := a.animal.toNat_lt
  have hb := b.animal.toNat_lt
  cases a
  cases b
  simp only [rank] at *
  simp only [mk.injEq, ← UInt16.toNat_inj, ← UInt8.toNat_inj]
  omega

instance : Ranked Detection where
  rank := rank
  eq_of_rank := rank_inj

/-- A sighting is read back from its bytes. -/
@[simp] theorem ofBytes?_toBytes (d : Detection) : ofBytes? d.toBytes = some d := by
  simp [toBytes, ofBytes?, Bytes.ofUInt16]

/-- What is read as a sighting is that sighting's bytes. -/
theorem eq_toBytes_of_ofBytes? {bytes : Bytes} {d : Detection} (h : ofBytes? bytes = some d) :
    bytes = d.toBytes := by
  unfold ofBytes? at h
  split at h
  · obtain rfl := Option.some.inj h
    simp [toBytes]
  · simp at h

end Detection

/-- The record of a sighting; a fact without a value, or with zero for "nothing seen", makes none.
-/
def map (elapsed : Nat) (_key : Bytes) : (value : Bytes) → List Record
  | [] => []
  | animal :: _ =>
    if animal = 0 then []
    else [Record.urgent
      { key := Detection.toBytes ⟨(min elapsed 65535).toUInt16, animal⟩, value := [] }]

/-- The detecting job. -/
def job : Job where
  map := map
  reduce existing _ := existing

end CollectionTree.Detect
