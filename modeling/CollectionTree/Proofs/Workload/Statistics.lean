import CollectionTree.Proofs.Workload.Tallies

/-!
# Statistics of readings, however they are combined

On their way to the sink readings are merged into partial tallies, these into larger ones, and what
arrives into the row of its key. A `Grouping` is one such history, as a binary tree over readings,
and `Grouping.record` the record that it ends in, merged on encoded bytes at every step.

`Tally.Summarises` says that a tally is the number, the sum and the sum of the squares of some
readings, each up to its own width. It is kept by merging (`Tally.Summarises.merge`), does not
depend on the order of the readings (`Tally.Summarises.perm`), and is exact as long as the count is
(`Tally.Summarises.exact`).

The main statement: each row at the sink, and each partial tally, summarises the readings under its
key (`Collect.statistics_summarise`).
-/

namespace CollectionTree
namespace Collect

/-! ## Summaries -/

/-- The sum of some readings. -/
def sumOf (readings : List Int8) : Int := (readings.map Int8.toInt).sum

/-- The sum of the squares of some readings. -/
def squaresOf (readings : List Int8) : Nat := (readings.map fun v ↦ v.toInt.natAbs ^ 2).sum

/-- Sums add up over two lots of readings. -/
@[simp] theorem sumOf_append (readings more : List Int8) :
    sumOf (readings ++ more) = sumOf readings + sumOf more := by
  simp [sumOf]

/-- Sums of squares add up over two lots of readings. -/
@[simp] theorem squaresOf_append (readings more : List Int8) :
    squaresOf (readings ++ more) = squaresOf readings + squaresOf more := by
  simp [squaresOf]

/-- No reading is further than 128 from zero. -/
theorem natAbs_toInt_le (value : Int8) : value.toInt.natAbs ≤ 128 := by
  have low := value.le_toInt
  have high := value.toInt_lt
  omega

private theorem natAbs_sumOf_le (readings : List Int8) :
    (sumOf readings).natAbs ≤ 128 * readings.length := by
  induction readings with
  | nil => exact Nat.zero_le _
  | cons value readings ih =>
    have head := natAbs_toInt_le value
    have split : sumOf (value :: readings) = value.toInt + sumOf readings := by simp [sumOf]
    rw [split, List.length_cons]
    omega

private theorem squaresOf_le (readings : List Int8) :
    squaresOf readings ≤ 16384 * readings.length := by
  induction readings with
  | nil => exact Nat.zero_le _
  | cons value readings ih =>
    have head : value.toInt.natAbs ^ 2 ≤ 128 ^ 2 := Nat.pow_le_pow_left (natAbs_toInt_le value) 2
    have split : squaresOf (value :: readings) = value.toInt.natAbs ^ 2 + squaresOf readings := by
      simp [squaresOf]
    rw [split, List.length_cons]
    omega

/-- The tally holds the sum of the squares, the sum and the number of some readings, each as far as
its width reaches. -/
structure Tally.Summarises (tally : Tally) (readings : List Int8) : Prop where
  sqrSum : tally.sqrSum.toNat = squaresOf readings % 2 ^ 32
  sum : tally.sum.toInt = (sumOf readings).bmod (2 ^ 32)
  count : tally.count.toNat = readings.length % 2 ^ 16

/-- The tally holds the sum of the squares, the sum and the number of some readings. -/
structure Tally.Exact (tally : Tally) (readings : List Int8) : Prop where
  sqrSum : tally.sqrSum.toNat = squaresOf readings
  sum : tally.sum.toInt = sumOf readings
  count : tally.count.toNat = readings.length

namespace Tally

variable {t u : Tally} {readings more : List Int8}

private theorem summarises_empty : empty.Summarises [] := ⟨rfl, rfl, rfl⟩

/-- One reading is summarised by its own tally. -/
theorem summarises_reading (value : Int8) : (reading value).Summarises [value] where
  sqrSum := by
    have low := value.le_toInt
    have high := value.toInt_lt
    have small : value.toInt * value.toInt ≤ 16384 := by nlinarith
    have large : 0 ≤ value.toInt * value.toInt := mul_self_nonneg _
    -- The square does not reach the sign bit, so reading it without a sign changes nothing.
    have squared : (value.toInt32 * value.toInt32).toBitVec.toInt = value.toInt * value.toInt := by
      have wrapped := Int32.toInt_mul value.toInt32 value.toInt32
      rw [Int8.toInt_toInt32, Int.bmod_eq_of_le (by omega) (by omega)] at wrapped
      exact wrapped
    rw [BitVec.toInt_eq_toNat_cond] at squared
    have unsigned : (value.toInt32 * value.toInt32).toBitVec.toNat = value.toInt.natAbs ^ 2 := by
      have natAbs : ((value.toInt.natAbs ^ 2 : Nat) : Int) = value.toInt * value.toInt := by
        rw [Nat.cast_pow, Int.natAbs_sq, sq]
      split at squared <;> omega
    have bound : value.toInt.natAbs ^ 2 ≤ 128 ^ 2 := Nat.pow_le_pow_left (natAbs_toInt_le value) 2
    have same : (reading value).sqrSum.toNat = value.toInt.natAbs ^ 2 := unsigned
    rw [same, squaresOf, List.map_singleton, List.sum_singleton, Nat.mod_eq_of_lt (by omega)]
  sum := by
    have low := value.le_toInt
    have high := value.toInt_lt
    have same : (reading value).sum.toInt = value.toInt := Int8.toInt_toInt32 value
    rw [same, sumOf, List.map_singleton, List.sum_singleton,
      Int.bmod_eq_of_le (by omega) (by omega)]
  count := rfl

/-- Merging summarises the readings of both. -/
theorem Summarises.merge (first : t.Summarises readings) (second : u.Summarises more) :
    (t.merge u).Summarises (readings ++ more) where
  sqrSum := by
    have wrapped : (t.merge u).sqrSum.toNat = (t.sqrSum.toNat + u.sqrSum.toNat) % 2 ^ 32 :=
      UInt32.toNat_add ..
    rw [wrapped, first.sqrSum, second.sqrSum, squaresOf_append, ← Nat.add_mod]
  sum := by
    have wrapped : (t.merge u).sum.toInt = (t.sum.toInt + u.sum.toInt).bmod (2 ^ 32) :=
      Int32.toInt_add ..
    rw [wrapped, first.sum, second.sum, sumOf_append, Int.bmod_add_bmod, Int.add_bmod_bmod]
  count := by
    have wrapped : (t.merge u).count.toNat = (t.count.toNat + u.count.toNat) % 2 ^ 16 :=
      UInt16.toNat_add ..
    rw [wrapped, first.count, second.count, List.length_append, ← Nat.add_mod]

/-- The order of the readings does not matter. -/
theorem Summarises.perm (summary : t.Summarises readings) (same : more.Perm readings) :
    t.Summarises more where
  sqrSum := by rw [summary.sqrSum, squaresOf, squaresOf, (same.map _).sum_eq]
  sum := by rw [summary.sum, sumOf, sumOf, (same.map _).sum_eq]
  count := by rw [summary.count, same.length_eq]

/-- As many readings as the count can hold cannot make either sum wrap around. -/
theorem Summarises.exact (summary : t.Summarises readings) (few : readings.length ≤ 65535) :
    t.Exact readings where
  sqrSum := by
    have bound := squaresOf_le readings
    rw [summary.sqrSum, Nat.mod_eq_of_lt (by omega)]
  sum := by
    have bound := natAbs_sumOf_le readings
    rw [summary.sum, Int.bmod_eq_of_le (by omega) (by omega)]
  count := by rw [summary.count, Nat.mod_eq_of_lt (by omega)]

/-- Exactly the strings of ten bytes are read as a tally. -/
theorem isSome_ofBytes?_iff (bytes : Bytes) : (ofBytes? bytes).isSome ↔ bytes.length = 10 := by
  constructor
  · intro some
    obtain ⟨tally, read⟩ := Option.isSome_iff_exists.1 some
    rw [eq_toBytes_of_ofBytes? read, length_toBytes]
  · intro length
    obtain ⟨tally, rfl⟩ := exists_tally_of_length length
    rw [ofBytes?_toBytes, Option.isSome_some]

/-- Reading a tally undoes writing it, and writing undoes reading. -/
theorem ofBytes?_eq_some_iff (bytes : Bytes) (tally : Tally) :
    ofBytes? bytes = some tally ↔ bytes = tally.toBytes := by
  constructor
  · exact eq_toBytes_of_ofBytes?
  · rintro rfl
    exact ofBytes?_toBytes tally

end Tally

namespace Key

/-- Exactly the strings of five bytes are read as a key. -/
theorem isSome_ofBytes?_iff (bytes : Bytes) : (ofBytes? bytes).isSome ↔ bytes.length = 5 := by
  constructor
  · intro some
    obtain ⟨key, read⟩ := Option.isSome_iff_exists.1 some
    rw [eq_toBytes_of_ofBytes? read]
    rfl
  · intro length
    obtain ⟨key, rfl⟩ := exists_key_of_length length
    rw [ofBytes?_toBytes, Option.isSome_some]

/-- Reading a key undoes writing it, and writing undoes reading. -/
theorem ofBytes?_eq_some_iff (bytes : Bytes) (key : Key) :
    ofBytes? bytes = some key ↔ bytes = key.toBytes := by
  constructor
  · exact eq_toBytes_of_ofBytes?
  · rintro rfl
    exact ofBytes?_toBytes key

end Key

/-- A stored value or an incoming one that is not ten bytes long leaves the record as it is. -/
theorem reduce_of_length_ne {existing : Record} {incoming : Bytes}
    (odd : existing.value.length ≠ 10 ∨ incoming.length ≠ 10) :
    reduce existing incoming = existing := by
  have unread {bytes : Bytes} (h : bytes.length ≠ 10) : Tally.ofBytes? bytes = none := by
    rwa [← Option.not_isSome_iff_eq_none, Tally.isSome_ofBytes?_iff]
  rcases odd with stored | further
  · rw [reduce, unread stored]
  · rw [reduce, unread further]
    cases Tally.ofBytes? existing.value <;> rfl

/-! ## Partial tallies -/

/-- How some readings were merged: one by itself, or two groups of them into one. -/
inductive Grouping where
  | one (value : Int8)
  | both (first second : Grouping)
  deriving DecidableEq, Repr

namespace Grouping

/-- The readings of a grouping. -/
def readings : Grouping → List Int8
  | one value => [value]
  | both first second => first.readings ++ second.readings

/-- The record that a grouping ends in: each reading is sown by itself, and where two groups meet
the value of the second is merged into the record of the first. -/
def record (key : Key) : Grouping → Record
  | one value => Reading.record ⟨key, value⟩
  | both first second => reduce (first.record key) (second.record key).value

private theorem readings_ne_nil (grouping : Grouping) : grouping.readings ≠ [] := by
  induction grouping with
  | one value => simp [readings]
  | both first second ih _ => simp [readings, ih]

/-- Every partial tally summarises its readings. -/
theorem record_summarises (key : Key) (grouping : Grouping) :
    ∃ tally : Tally, grouping.record key = { key := key.toBytes, value := tally.toBytes } ∧
      tally.Summarises grouping.readings := by
  induction grouping with
  | one value => exact ⟨_, rfl, Tally.summarises_reading value⟩
  | both first second ih ih' =>
    obtain ⟨t, record, summary⟩ := ih
    obtain ⟨u, record', summary'⟩ := ih'
    exact ⟨t.merge u, by simp [Grouping.record, record, record', reduce], summary.merge summary'⟩

end Grouping

/-! ## Rows at the sink -/

/-- The readings under a key among the groupings that arrive. -/
def readingsUnder (key : Key) (arrivals : List (Key × Grouping)) : List Int8 :=
  arrivals.flatMap fun arrival ↦ if arrival.1 = key then arrival.2.readings else []

end Collect

namespace Results

open Collect

/-- The sink after some records of the collecting job. -/
def recordAll (results : Results) (arrivals : List (Key × Grouping)) : Results :=
  arrivals.foldl (fun results arrival ↦
    results.record jobId (arrival.2.record arrival.1).key (arrival.2.record arrival.1).value)
    results

/-- The row of a key summarises some readings; there is none where there are no readings. -/
def RowOver (results : Results) (key : Key) (readings : List Int8) : Prop :=
  match results.readings.get? key with
  | none => readings = []
  | some tally => readings ≠ [] ∧ tally.Summarises readings

private theorem RowOver.tallyOf {results : Results} {key : Key} {readings : List Int8}
    (row : results.RowOver key readings) : (results.tallyOf key).Summarises readings := by
  unfold RowOver at row
  unfold Results.tallyOf
  split at row
  · next none =>
    rw [none, row]
    exact Tally.summarises_empty
  · next tally some =>
    rw [some]
    exact row.2

/-- A partial tally that arrives joins the row of its key and leaves the others alone. -/
theorem RowOver.record {results : Results} {key : Key} {readings : List Int8}
    (row : results.RowOver key readings) (about : Key) (grouping : Grouping) :
    (results.record jobId (grouping.record about).key (grouping.record about).value).RowOver key
      (readings ++ if about = key then grouping.readings else []) := by
  obtain ⟨tally, record, summary⟩ := grouping.record_summarises about
  have rows : (results.record jobId (grouping.record about).key
      (grouping.record about).value).readings =
        results.readings.insert about ((results.tallyOf about).merge tally) := by
    simp [Results.record, recordReading, record, Table.alter, Results.tallyOf]
  unfold RowOver
  rw [rows]
  by_cases same : about = key
  · subst same
    rw [Table.get?_insert_self, if_pos rfl]
    exact ⟨by simp [grouping.readings_ne_nil], row.tallyOf.merge summary⟩
  · rw [Table.get?_insert_of_ne _ (Ne.symm same), if_neg same, List.append_nil]
    exact row

/-- After any number of arrivals every row summarises the readings under its key. -/
theorem RowOver.recordAll {results : Results} {key : Key} {readings : List Int8}
    (row : results.RowOver key readings) (arrivals : List (Key × Grouping)) :
    (results.recordAll arrivals).RowOver key (readings ++ readingsUnder key arrivals) := by
  induction arrivals generalizing results readings with
  | nil => simpa [Results.recordAll, readingsUnder] using row
  | cons arrival arrivals ih =>
    have later := ih (row.record arrival.1 arrival.2)
    rwa [List.append_assoc] at later

end Results

namespace Collect

/-- However readings are grouped, ordered and merged, every partial tally and every row at the sink
summarises the readings under its key, exactly if there are at most 65535; keys and tallies are
recovered from their bytes and only those are read; a value that is no tally changes nothing. -/
theorem statistics_summarise :
    (∀ (arrivals : List (Key × Grouping)) (key : Key) (readings : List Int8),
      readings.Perm (readingsUnder key arrivals) → readings ≠ [] →
        ∃ tally, (Results.recordAll {} arrivals).readings.get? key = some tally ∧
          tally.Summarises readings ∧ (readings.length ≤ 65535 → tally.Exact readings)) ∧
      (∀ (grouping : Grouping) (key : Key) (readings : List Int8),
        readings.Perm grouping.readings →
          ∃ tally : Tally, grouping.record key = { key := key.toBytes, value := tally.toBytes } ∧
            tally.Summarises readings ∧ (readings.length ≤ 65535 → tally.Exact readings)) ∧
      (∀ (bytes : Bytes) (tally : Tally), Tally.ofBytes? bytes = some tally ↔
        bytes = tally.toBytes) ∧
      (∀ bytes : Bytes, (Tally.ofBytes? bytes).isSome ↔ bytes.length = 10) ∧
      (∀ (bytes : Bytes) (key : Key), Key.ofBytes? bytes = some key ↔ bytes = key.toBytes) ∧
      (∀ bytes : Bytes, (Key.ofBytes? bytes).isSome ↔ bytes.length = 5) ∧
      ∀ (existing : Record) (incoming : Bytes),
        existing.value.length ≠ 10 ∨ incoming.length ≠ 10 →
          reduce existing incoming = existing := by
  refine ⟨?_, ?_, Tally.ofBytes?_eq_some_iff, Tally.isSome_ofBytes?_iff, Key.ofBytes?_eq_some_iff,
    Key.isSome_ofBytes?_iff, fun _ _ ↦ reduce_of_length_ne⟩
  · intro arrivals key readings same some
    have start : Results.RowOver {} key [] := rfl
    have row := start.recordAll arrivals
    rw [List.nil_append] at row
    unfold Results.RowOver at row
    split at row
    · rw [row] at same
      exact absurd same.eq_nil some
    · next tally found =>
      have summary := row.2.perm same
      exact ⟨tally, found, summary, summary.exact⟩
  · intro grouping key readings same
    obtain ⟨tally, record, summary⟩ := grouping.record_summarises key
    exact ⟨tally, record, summary.perm same, (summary.perm same).exact⟩

/-- Four readings of one sensor that reach the sink in two parts, one after a reading of another. -/
theorem statistics_summarise_fourReadings :
    ∃ tally, (Results.recordAll {} [(⟨0, 3, 4, 1⟩, .both (.one 20) (.both (.one 22) (.one 18))),
        (⟨0, 5, 4, 1⟩, .one 7), (⟨0, 3, 4, 1⟩, .one (-4))]).readings.get? ⟨0, 3, 4, 1⟩ =
          some tally ∧
      tally.Exact [-4, 18, 20, 22] := by
  obtain ⟨tally, found, -, exact⟩ := statistics_summarise.1
    [(⟨0, 3, 4, 1⟩, .both (.one 20) (.both (.one 22) (.one 18))), (⟨0, 5, 4, 1⟩, .one 7),
      (⟨0, 3, 4, 1⟩, .one (-4))] ⟨0, 3, 4, 1⟩ [-4, 18, 20, 22] (by decide) (by decide)
  exact ⟨tally, found, exact (by decide)⟩

end Collect
end CollectionTree
