import CollectionTree.Node.Basic
import CollectionTree.Proofs.Lookup
import CollectionTree.Proofs.Store.Books
import CollectionTree.Workload.Results

/-!
# Tallies as weights

Tallies with their merging are a commutative monoid in which one can cancel. The weight of an entry
under a key is the tally that it holds for the key, so that stored records, frames and what reached
the sink are measured alike. `additive_job` says that the collecting job adds weights, and
`tallyOf_record` that the sink does.
-/

namespace CollectionTree
namespace Collect

instance : Zero Tally := ⟨Tally.empty⟩

instance : Add Tally := ⟨Tally.merge⟩

instance : AddCancelCommMonoid Tally where
  add_assoc := Tally.merge_assoc
  add_comm := Tally.merge_comm
  zero_add := Tally.empty_merge
  add_zero t := (Tally.merge_comm t .empty).trans (Tally.empty_merge t)
  nsmul := nsmulRec
  add_left_cancel a b c h := by
    obtain ⟨q, s, m⟩ := a
    have same := Tally.mk.inj h
    cases b
    cases c
    simpa using same

/-- Merging is the addition of the monoid of tallies. -/
theorem Tally.merge_eq_add (a b : Tally) : a.merge b = a + b := rfl

/-- The tally that an entry of the collecting job holds for a key. -/
def tallyUnder (key : Key) (entry : Wire.Entry) : Tally :=
  match Key.ofBytes? entry.key, Tally.ofBytes? entry.value with
  | some about, some tally => if about = key then tally else 0
  | _, _ => 0

/-- The lengths of keys and tallies. -/
def shape : Shape := ⟨5, 10⟩

/-- Five bytes are the key of some row. -/
theorem exists_key_of_length {bytes : Bytes} (h : bytes.length = 5) :
    ∃ key, bytes = Key.toBytes key := by
  match bytes, h with
  | [low, high, x, y, sensor], _ =>
    exact ⟨⟨Bytes.uint16 low high, x, y, sensor⟩, by simp [Key.toBytes]⟩

/-- Ten bytes are a tally. -/
theorem exists_tally_of_length {bytes : Bytes} (h : bytes.length = 10) :
    ∃ tally, bytes = Tally.toBytes tally := by
  match bytes, h with
  | [q₀, q₁, q₂, q₃, s₀, s₁, s₂, s₃, low, high], _ =>
    exact ⟨⟨Bytes.uint32 q₀ q₁ q₂ q₃, (Bytes.uint32 s₀ s₁ s₂ s₃).toInt32, Bytes.uint16 low high⟩,
      by simp [Tally.toBytes]⟩

private theorem tallyUnder_toBytes (key about : Key) (tally : Tally) :
    tallyUnder key ⟨about.toBytes, tally.toBytes⟩ = if about = key then tally else 0 := by
  simp [tallyUnder]

private theorem keepsIdentity_job (x y : UInt8) (windowSecs : Nat) :
    (job x y windowSecs).KeepsIdentity := by
  intro r value
  simp only [job, reduce]
  split
  · exact ⟨rfl, rfl⟩
  · exact ⟨rfl, rfl⟩

private theorem entry_reduce {r : Record} {value : Bytes} {key : Key} {stored further : Tally}
    (about : r.key = key.toBytes) (held : r.value = stored.toBytes)
    (incoming : value = further.toBytes) :
    (reduce r value).entry = ⟨key.toBytes, (stored + further).toBytes⟩ := by
  simp [reduce, held, incoming, Record.entry, about, Tally.merge_eq_add]

/-- The collecting job adds whatever is measured of the tallies under one key, as long as merging
adds it. -/
theorem additive_of_measure {M : Type} [AddCommMonoid M] {key : Key} {measure : Tally → M}
    {weight : Wire.Entry → M} (x y : UInt8) (windowSecs : Nat)
    (adds : ∀ t u, measure (t + u) = measure t + measure u)
    (weighs : ∀ about tally, weight ⟨Key.toBytes about, Tally.toBytes tally⟩ =
      if about = key then measure tally else 0) :
    (job x y windowSecs).Additive shape.Fits weight where
  keeps := keepsIdentity_job x y windowSecs
  valid_reduce r value fits fits' := by
    obtain ⟨about, hkey⟩ := exists_key_of_length fits.1
    obtain ⟨stored, held⟩ := exists_tally_of_length fits.2
    obtain ⟨further, incoming⟩ := exists_tally_of_length fits'.2
    have reduced := entry_reduce hkey held incoming
    rw [job, reduced]
    exact ⟨rfl, rfl⟩
  weight_reduce r value fits fits' := by
    obtain ⟨about, hkey⟩ := exists_key_of_length fits.1
    obtain ⟨stored, held⟩ := exists_tally_of_length fits.2
    obtain ⟨further, incoming⟩ := exists_tally_of_length fits'.2
    have hkey : r.key = about.toBytes := hkey
    have held : r.value = stored.toBytes := held
    have incoming : value = further.toBytes := incoming
    have before : r.entry = ⟨about.toBytes, stored.toBytes⟩ := by rw [Record.entry, hkey, held]
    rw [job, entry_reduce hkey held incoming, before, hkey, incoming]
    simp only [weighs]
    split
    · exact adds stored further
    · exact (add_zero 0).symm

/-- The collecting job adds tallies. -/
theorem additive_job (x y : UInt8) (windowSecs : Nat) (key : Key) :
    (job x y windowSecs).Additive shape.Fits (tallyUnder key) :=
  additive_of_measure x y windowSecs (fun _ _ ↦ rfl) (tallyUnder_toBytes key)

/-! ## Readings -/

/-- A reading, with the time window, the position and the sensor that it is about. -/
structure Reading where
  key : Key
  value : Int8
  deriving DecidableEq, Repr

/-- The record that a reading is sown as. -/
def Reading.record (r : Reading) : Record where
  key := r.key.toBytes
  value := (Tally.reading r.value).toBytes

/-- All readings under a key merged. -/
def tallyOver (key : Key) (readings : List Reading) : Tally :=
  ((readings.filter (·.key = key)).map fun r ↦ Tally.reading r.value).foldr Tally.merge .empty

private theorem fits_record (r : Reading) : shape.Fits r.record.entry := ⟨rfl, rfl⟩

/-- A reading is not urgent. -/
theorem isUrgent_record (r : Reading) : r.record.isUrgent = false := rfl

/-- Records of readings weigh what the readings merge to. -/
theorem weigh_map_record (key : Key) (readings : List Reading) :
    weigh (tallyUnder key) (readings.map Reading.record) = tallyOver key readings := by
  induction readings with
  | nil => rfl
  | cons r rest ih =>
    have first : tallyUnder key r.record.entry =
        if r.key = key then Tally.reading r.value else 0 := tallyUnder_toBytes key r.key _
    rw [List.map_cons, weigh_cons, ih, first]
    by_cases same : r.key = key
    · rw [if_pos same, tallyOver, tallyOver, List.filter_cons_of_pos (by simpa using same)]
      rfl
    · rw [if_neg same, zero_add, tallyOver, tallyOver,
        List.filter_cons_of_neg (by simpa using same)]

/-- Readings are sown with keys and tallies of the right lengths. -/
theorem fits_map_record (readings : List Reading) :
    ∀ c ∈ readings.map Reading.record, shape.Fits c.entry := by
  intro c hc
  obtain ⟨r, -, rfl⟩ := List.mem_map.1 hc
  exact fits_record r

/-- A fact becomes the record of one reading at the position of the job, or nothing. -/
theorem map_eq_records (x y : UInt8) (windowSecs elapsed : Nat) (fact value : Bytes) :
    ∃ readings : List Reading, map x y windowSecs elapsed fact value =
      readings.map Reading.record ∧ ∀ r ∈ readings, r.key.x = x := by
  unfold map
  split
  · next sensor _ value _ =>
    refine ⟨[⟨⟨windowAt windowSecs elapsed, x, y, sensor⟩, value.toInt8⟩], rfl, fun r mem ↦ ?_⟩
    rw [List.mem_singleton.1 mem]
  · exact ⟨[], rfl, fun _ mem ↦ nomatch mem⟩

end Collect

namespace Detect

/-- The lengths of sightings and of the empty values under them. -/
def shape : Shape := ⟨3, 0⟩

/-- The job keeps to the lengths of its keys and tallies. -/
theorem shaped_job : job.Shaped shape where
  keeps _ _ := ⟨rfl, rfl⟩
  fits_reduce _ _ fits _ := fits

/-- What is made of a fact has the lengths of the job. -/
theorem fits_map (elapsed : Nat) (key value : Bytes) :
    ∀ r ∈ map elapsed key value, shape.Fits r.entry := by
  unfold map
  split
  · simp
  · split
    · simp
    · intro r hr
      obtain rfl := List.mem_singleton.1 hr
      exact ⟨rfl, rfl⟩

/-- The record that a sighting is sown as. -/
def Detection.record (d : Detection) : Record := Record.urgent { key := d.toBytes, value := [] }

/-- A fact becomes the record of one sighting or nothing. -/
theorem map_eq_sightings (elapsed : Nat) (key value : Bytes) :
    ∃ seen : List Detection, map elapsed key value = seen.map Detection.record := by
  unfold map
  split
  · exact ⟨[], rfl⟩
  · next animal _ =>
    split
    · exact ⟨[], rfl⟩
    · exact ⟨[⟨(min elapsed 65535).toUInt16, animal⟩], rfl⟩

/-- A fact makes one record at most. -/
theorem length_map_le (elapsed : Nat) (key value : Bytes) : (map elapsed key value).length ≤ 1 := by
  unfold map
  split
  · exact Nat.zero_le _
  · split
    · exact Nat.zero_le _
    · exact Nat.le_refl _

/-- The keys of sightings that were sown are their bytes. -/
theorem map_key_map_record (seen : List Detection) :
    (seen.map Detection.record).map Record.key = seen.map Detection.toBytes := by
  simp [Detection.record, Record.urgent, Record.mark]

/-- Sightings are told apart by their bytes. -/
theorem Detection.toBytes_inj {a b : Detection} : a.toBytes = b.toBytes ↔ a = b := by
  constructor
  · intro same
    have decoded := ofBytes?_toBytes a
    rw [same, ofBytes?_toBytes] at decoded
    exact (Option.some.inj decoded).symm
  · rintro rfl
    rfl

/-- Three bytes are some sighting's. -/
theorem Detection.exists_eq_toBytes {bytes : Bytes} (length : bytes.length = 3) :
    ∃ d : Detection, bytes = d.toBytes := by
  obtain ⟨low, high, animal, rfl⟩ := List.length_eq_three.1 length
  exact ⟨⟨Bytes.uint16 low high, animal⟩, eq_toBytes_of_ofBytes? rfl⟩

end Detect

namespace Results

variable (results : Results) (key : Collect.Key)

private theorem tallyOf_recordReading (about value : Bytes) :
    (results.recordReading about value).tallyOf key =
      results.tallyOf key + Collect.tallyUnder key ⟨about, value⟩ := by
  unfold recordReading Collect.tallyUnder
  cases Collect.Key.ofBytes? about with
  | none => exact (add_zero _).symm
  | some k =>
    cases Collect.Tally.ofBytes? value with
    | none => exact (add_zero _).symm
    | some tally =>
      simp only [tallyOf, Table.alter]
      by_cases same : k = key
      · subst same
        rw [Table.get?_insert_self, if_pos rfl]
        rfl
      · rw [Table.get?_insert_of_ne _ (Ne.symm same), if_neg same, add_zero]

/-- A sighting keeps the tallies. -/
@[simp] theorem tallyOf_recordDetection (about : Bytes) :
    (results.recordDetection about).tallyOf key = results.tallyOf key := by
  unfold recordDetection
  split <;> rfl

/-- What an output that reaches the sink holds for a key. -/
def consumedUnder (key : Collect.Key) : Output → Collect.Tally
  | .consume job about value =>
    if job = Collect.jobId then Collect.tallyUnder key ⟨about, value⟩ else 0
  | _ => 0

/-- The sink adds what it is given. -/
theorem tallyOf_record (job : UInt8) (about value : Bytes) :
    (results.record job about value).tallyOf key =
      results.tallyOf key + consumedUnder key (.consume job about value) := by
  simp only [record, consumedUnder]
  by_cases collected : job = Collect.jobId
  · rw [if_pos collected, if_pos collected]
    exact results.tallyOf_recordReading key about value
  · rw [if_neg collected, if_neg collected, add_zero]
    split
    · exact results.tallyOf_recordDetection key about
    · rfl

/-- A reading keeps the sightings. -/
@[simp] theorem detections_recordReading (about value : Bytes) :
    (results.recordReading about value).detections = results.detections := by
  unfold recordReading
  split <;> rfl

private theorem contains_recordDetection (about : Bytes) (d : Detect.Detection) :
    (results.recordDetection about).detections.contains d = true ↔
      results.detections.contains d = true ∨ about = d.toBytes := by
  unfold recordDetection
  split
  · next other decoded =>
    obtain rfl := Detect.Detection.eq_toBytes_of_ofBytes? decoded
    rw [Detect.Detection.toBytes_inj, OrderedSet.add, Table.contains, Table.contains]
    by_cases same : d = other
    · simp [same]
    · simp [Table.get?_insert_of_ne _ same, Ne.symm same]
  · next unknown =>
    refine ⟨.inl, fun h ↦ h.elim id ?_⟩
    rintro rfl
    simp at unknown

/-- The sink adds the sightings that it is given. -/
theorem contains_record (job : UInt8) (about value : Bytes) (d : Detect.Detection) :
    (results.record job about value).detections.contains d = true ↔
      results.detections.contains d = true ∨ job = Detect.jobId ∧ about = d.toBytes := by
  simp only [record]
  by_cases collected : job = Collect.jobId
  · have other : ¬job = Detect.jobId := by rw [collected]; decide
    simp [if_pos collected, other]
  · rw [if_neg collected]
    split
    · next detected =>
      rw [contains_recordDetection]
      simp [detected]
    · next other => simp [other]

end Results
end CollectionTree
