import CollectionTree.Proofs.Workload.Tallies
import Mathlib.Algebra.Group.WithOne.Defs

/-!
# Rows as weights

A row at the sink is more than the tally in it: there is none before the first reading, and a tally
of readings may well be that of no readings. So what an entry brings to a row is measured with a
zero of its own, below all tallies. `Collect.weigh_map_record_row` tells from the measure of some
records whether one of them is about the key, and `Results.rowOf_record` says that the sink adds
what it is given.
-/

namespace CollectionTree

namespace Collect

/-! ## What is brought to a row -/

/-- What an entry brings to the row of a key: its tally, or nothing if it is about something else.
-/
def rowUnder (key : Key) (entry : Wire.Entry) : WithZero Tally :=
  match Key.ofBytes? entry.key, Tally.ofBytes? entry.value with
  | some about, some tally => if about = key then (tally : WithZero Tally) else 0
  | _, _ => 0

private theorem rowUnder_toBytes (key about : Key) (tally : Tally) :
    rowUnder key ⟨about.toBytes, tally.toBytes⟩ =
      if about = key then (tally : WithZero Tally) else 0 := by
  simp [rowUnder]

/-- An entry under another key brings nothing to a row. -/
theorem rowUnder_of_ne {key : Key} {entry : Wire.Entry} (other : entry.key ≠ key.toBytes) :
    rowUnder key entry = 0 := by
  unfold rowUnder
  split
  · next about tally decoded read =>
    have differ : about ≠ key := by
      rintro rfl
      exact other (Key.eq_toBytes_of_ofBytes? decoded)
    rw [if_neg differ]
  · rfl

/-- The collecting job adds up what is brought to a row. -/
theorem additive_row (x y : UInt8) (windowSecs : Nat) (key : Key) :
    (job x y windowSecs).Additive shape.Fits (rowUnder key) :=
  additive_of_measure x y windowSecs WithZero.coe_add (rowUnder_toBytes key)

/-- Readings under other keys bring nothing to a tally. -/
theorem tallyOver_filter (key : Key) (readings : List Reading) :
    tallyOver key (readings.filter (·.key = key)) = tallyOver key readings := by
  simp [tallyOver]

/-- Records of readings bring to a row what the readings under its key merge to, if there are any.
-/
theorem weigh_map_record_row (key : Key) (readings : List Reading) :
    weigh (rowUnder key) (readings.map Reading.record) =
      if readings.filter (·.key = key) = [] then 0
      else (tallyOver key readings : WithZero Tally) := by
  induction readings with
  | nil => rfl
  | cons r rest ih =>
    have first : rowUnder key r.record.entry =
        if r.key = key then (Tally.reading r.value : WithZero Tally) else 0 :=
      rowUnder_toBytes key r.key _
    rw [List.map_cons, weigh_cons, ih, first]
    by_cases same : r.key = key
    · have merged : tallyOver key (r :: rest) = Tally.reading r.value + tallyOver key rest := by
        rw [tallyOver, tallyOver, List.filter_cons_of_pos (by simpa using same)]
        rfl
      rw [if_pos same, List.filter_cons_of_pos (by simpa using same), if_neg (List.cons_ne_nil _ _),
        merged]
      split
      · next none =>
        have zero : tallyOver key rest = 0 := by
          rw [tallyOver, none]
          rfl
        rw [zero, add_zero, add_zero]
      · exact (WithZero.coe_add _ _).symm
    · have merged : tallyOver key (r :: rest) = tallyOver key rest := by
        rw [tallyOver, tallyOver, List.filter_cons_of_neg (by simpa using same)]
      rw [if_neg same, zero_add, List.filter_cons_of_neg (by simpa using same), merged]

end Collect

namespace Results

/-- The row of a key, if there is one. -/
def rowOf (results : Results) (key : Collect.Key) : WithZero Collect.Tally :=
  results.readings.get? key

/-- The sink adds what it is given to the row. -/
theorem rowOf_record (results : Results) (job : UInt8) (about value : Bytes) (key : Collect.Key) :
    (results.record job about value).rowOf key = results.rowOf key +
      if job = Collect.jobId then Collect.rowUnder key ⟨about, value⟩ else 0 := by
  unfold record
  split
  · unfold recordReading Collect.rowUnder
    cases Collect.Key.ofBytes? about with
    | none => exact (add_zero _).symm
    | some k =>
      cases Collect.Tally.ofBytes? value with
      | none => exact (add_zero _).symm
      | some tally =>
        simp only [rowOf, Table.alter]
        by_cases same : k = key
        · subst same
          rw [Table.get?_insert_self, if_pos rfl]
          cases results.readings.get? k with
          | none => exact congrArg _ (zero_add tally)
          | some held => exact WithZero.coe_add held tally
        · rw [Table.get?_insert_of_ne _ (Ne.symm same), if_neg same]
          exact (add_zero (results.rowOf key)).symm
  · rw [add_zero]
    split
    · unfold recordDetection
      split <;> rfl
    · rfl

end Results
end CollectionTree
