import CollectionTree.Proofs.Network.Fitting
import CollectionTree.Proofs.Node.Rows

/-!
# Where the readings of a row are

A `Trail` says of some of the readings that were sown where they are: stored at a node, sent by it,
or in the row at the sink. `Traced` is the account of one row: at every node that knows its
distance, and at the sink, exactly the readings that the trail has there make up what is held, and
no reading is there twice. Readings that a node refuses, or loses with a confirmation, leave the
trail. Every turn of the network moves what is on the trail (`Traces`), and only what is sown is
added to it.
-/

namespace CollectionTree

/-- A reading and the address of the node that sowed it. -/
structure Sowing where
  address : Address
  reading : Collect.Reading
  deriving DecidableEq, Repr

namespace Sowing

/-- The address and the record that was sown. -/
def entry (s : Sowing) : Address × Record := (s.address, s.reading.record)

/-- A reading of a node that knows its distance, is not the sink, and is about its own position. -/
structure Own (s : Sowing) : Prop where
  behind : 0 < s.address.toNat
  near : s.address.toNat < 255
  position : s.reading.key.x = s.address.position

/-- The position of such a reading is the whole address. -/
theorem Own.toNat_address {s : Sowing} (h : s.Own) : s.address.toNat = s.reading.key.x.toNat := by
  rw [h.position, Address.toNat_position (by have := h.near; omega)]

end Sowing

/-- Where a reading may be. -/
inductive Place where
  /-- In the store of a node. -/
  | stored (address : Address)
  /-- On its way from a node. -/
  | sent (address : Address)
  /-- At the sink. -/
  | row
  deriving DecidableEq

/-- Where some readings are. -/
abbrev Trail := List (Sowing × Place)

namespace Trail

/-- What the readings at a place make of the row of a key. -/
def weight (key : Collect.Key) (trail : Trail) (place : Place) : WithZero Collect.Tally :=
  (trail.map fun e ↦
    if e.2 = place then Collect.rowUnder key e.1.reading.record.entry else 0).sum

/-- All that was at one place is at another. -/
def move (source target : Place) (trail : Trail) : Trail :=
  trail.map fun e ↦ (e.1, if e.2 = source then target else e.2)

/-- All that was at a place is gone. -/
def forget (source : Place) (trail : Trail) : Trail := trail.filter (·.2 ≠ source)

/-- The readings at a place. -/
def among (place : Place) (trail : Trail) : List Sowing :=
  (trail.filter (·.2 = place)).map Prod.fst

variable {key : Collect.Key} {trail : Trail} {source target place : Place}

/-- Nothing weighs nothing. -/
@[simp] theorem weight_nil : weight key [] place = 0 := rfl

/-- A reading weighs at its own place only. -/
@[simp] theorem weight_cons (e : Sowing × Place) : weight key (e :: trail) place =
    (if e.2 = place then Collect.rowUnder key e.1.reading.record.entry else 0) +
      trail.weight key place :=
  List.sum_cons

/-- What readings weigh adds up along a trail. -/
@[simp] theorem weight_append (more : Trail) :
    weight key (trail ++ more) place = trail.weight key place + more.weight key place := by
  simp [weight]

/-- The readings at a place weigh what their records do. -/
theorem weight_eq (key : Collect.Key) (trail : Trail) (place : Place) :
    trail.weight key place =
      weigh (Collect.rowUnder key) ((trail.among place).map (·.reading.record)) := by
  induction trail with
  | nil => rfl
  | cons e rest ih => by_cases here : e.2 = place <;> simp [among, ih, here]

private theorem weight_map_mk (sowings : List Sowing) (home : Place) :
    weight key (sowings.map (·, home)) place =
      if home = place then weigh (Collect.rowUnder key) (sowings.map (·.reading.record))
      else 0 := by
  induction sowings with
  | nil => simp
  | cons s rest ih => by_cases here : home = place <;> simp_all

private theorem weight_move (apart : source ≠ target) :
    (trail.move source target).weight key place =
    if place = target then trail.weight key source + trail.weight key target
    else if place = source then 0 else trail.weight key place := by
  induction trail with
  | nil => simp [move]
  | cons e rest ih =>
    rw [move] at ih ⊢
    rw [List.map_cons, weight_cons, ih]
    by_cases there : e.2 = source
    · by_cases arrived : place = target
      · simp [there, arrived, apart, add_assoc]
      · by_cases left : place = source
        · simp [there, left, apart, Ne.symm apart]
        · simp [there, arrived, left, Ne.symm arrived, Ne.symm left]
    · by_cases arrived : place = target
      · simp [there, arrived, add_left_comm]
      · by_cases left : place = source
        · simp [there, left, apart]
        · simp [there, arrived, left]

private theorem weight_forget : (trail.forget source).weight key place =
    if place = source then 0 else trail.weight key place := by
  induction trail with
  | nil => simp [forget]
  | cons e rest ih =>
    rw [forget] at ih ⊢
    by_cases there : e.2 = source
    · rw [List.filter_cons_of_neg (by simpa using there), ih, weight_cons]
      by_cases left : place = source
      · simp [left]
      · simp [there, left, Ne.symm left]
    · rw [List.filter_cons_of_pos (by simpa using there), weight_cons, ih, weight_cons]
      by_cases left : place = source
      · simp [there, left]
      · simp [left]

/-- What sowed the readings on a trail. -/
def sown (trail : Trail) : List (Address × Record) := trail.map fun e ↦ e.1.entry

private theorem sown_move : (trail.move source target).sown = trail.sown := by
  simp [sown, move, Function.comp_def]

private theorem sown_forget : (trail.forget source).sown.Sublist trail.sown :=
  List.filter_sublist.map _

end Trail

/-! ## The account of one row -/

/-- The account of the row of a key: what every node holds, what the frames in `waiting` bring, what
is still owed to the receivers of those in `owed`, what is under way, and the row. -/
structure Traced (key : Collect.Key) (history : List (Address × Record))
    (held waiting owed flying : Address → WithZero Collect.Tally) (row : WithZero Collect.Tally)
    (trail : Trail) : Prop where
  history : trail.sown.Sublist history
  own : ∀ e ∈ trail, e.1.Own
  held : ∀ a, a.toNat < 255 → held a = trail.weight key (.stored a) + waiting a + flying a
  sent : ∀ a, trail.weight key (.sent a) = owed a + flying a
  row : trail.weight key .row = row

namespace Traced

variable {key : Collect.Key} {history : List (Address × Record)} {trail : Trail}
  {held waiting owed flying : Address → WithZero Collect.Tally} {row : WithZero Collect.Tally}
  {a s t : Address}

/-- Nothing is anywhere before anything is sown. -/
theorem start (key : Collect.Key) :
    Traced key [] (fun _ ↦ 0) (fun _ ↦ 0) (fun _ ↦ 0) (fun _ ↦ 0) 0 [] where
  history := List.Sublist.refl _
  own _ mem := nomatch mem
  held _ _ := rfl
  sent _ := rfl
  row := rfl

private theorem own_move (h : Traced key history held waiting owed flying row trail)
    (source target : Place) :
    ∀ e ∈ trail.move source target, e.1.Own := by
  intro e mem
  obtain ⟨before, found, rfl⟩ := List.mem_map.1 mem
  exact h.own before found

/-- A node that knows its distance sows readings, not all of which need to be taken in. -/
theorem sow (h : Traced key history held waiting owed flying row trail) (near : a.toNat < 255)
    {more : List (Address × Record)} {new : List Sowing}
    (made : (new.map Sowing.entry).Sublist more) (own : ∀ s ∈ new, s.Own) :
    Traced key (history ++ more)
      (Function.update held a
        (held a + weigh (Collect.rowUnder key) (new.map (·.reading.record))))
      waiting owed flying row (trail ++ new.map (·, .stored a)) where
  history := by
    have sown : (trail ++ new.map (·, Place.stored a)).sown =
        trail.sown ++ new.map Sowing.entry := by
      simp [Trail.sown, Function.comp_def]
    rw [sown]
    exact h.history.append made
  own e mem := by
    rcases List.mem_append.1 mem with mem | mem
    · exact h.own e mem
    · obtain ⟨s, hs, rfl⟩ := List.mem_map.1 mem
      exact own s hs
  held b near' := by
    rw [Trail.weight_append, Trail.weight_map_mk]
    by_cases same : b = a
    · subst same
      rw [Function.update_self, h.held b near, if_pos rfl]
      ac_rfl
    · rw [Function.update_of_ne same, h.held b near', if_neg (by simpa using Ne.symm same),
        add_zero]
  sent b := by
    rw [Trail.weight_append, Trail.weight_map_mk, if_neg (by simp), add_zero]
    exact h.sent b
  row := by
    rw [Trail.weight_append, Trail.weight_map_mk, if_neg (by simp), add_zero]
    exact h.row

/-- Facts that are about no reading of a tracked node. -/
theorem unrelated (h : Traced key history held waiting owed flying row trail)
    (more : List (Address × Record)) {held' : Address → WithZero Collect.Tally}
    (same : ∀ a, a.toNat < 255 → held' a = held a) :
    Traced key (history ++ more) held' waiting owed flying row trail :=
  ⟨h.history.trans (List.sublist_append_left ..), h.own,
    fun a near ↦ (same a near).trans (h.held a near), h.sent, h.row⟩

/-- What was owed arrives at its receiver. -/
theorem arrive (h : Traced key history held waiting owed flying row trail) (idle : flying s = 0) :
    Traced key history (Function.update held t (held t + owed s)) waiting
      (Function.update owed s 0) flying row (trail.move (.sent s) (.stored t)) where
  history := Trail.sown_move.symm ▸ h.history
  own := h.own_move _ _
  held b near := by
    rw [Trail.weight_move (by simp), h.sent s, idle, add_zero]
    by_cases same : b = t
    · subst same
      rw [Function.update_self, if_pos rfl, h.held b near]
      ac_rfl
    · rw [Function.update_of_ne same, if_neg (by simpa using same), if_neg (by simp)]
      exact h.held b near
  sent b := by
    rw [Trail.weight_move (by simp), if_neg (by simp)]
    by_cases same : b = s
    · subst same
      rw [Function.update_self, if_pos rfl, idle, add_zero]
    · rw [Function.update_of_ne same, if_neg (by simpa using same)]
      exact h.sent b
  row := by
    rw [Trail.weight_move (by simp), if_neg (by simp), if_neg (by simp)]
    exact h.row

/-- The receiver refuses what was owed to it. -/
theorem refuse (h : Traced key history held waiting owed flying row trail) (idle : flying s = 0) :
    Traced key history held waiting (Function.update owed s 0) flying row
      (trail.forget (.sent s)) where
  history := Trail.sown_forget.trans h.history
  own e mem := h.own e (List.mem_filter.1 mem).1
  held b near := by
    rw [Trail.weight_forget, if_neg (by simp)]
    exact h.held b near
  sent b := by
    rw [Trail.weight_forget]
    by_cases same : b = s
    · subst same
      rw [Function.update_self, if_pos rfl, idle, add_zero]
    · rw [Function.update_of_ne same, if_neg (by simpa using same)]
      exact h.sent b
  row := by
    rw [Trail.weight_forget, if_neg (by simp)]
    exact h.row

/-- A frame comes under way with all that a node holds. -/
theorem load (h : Traced key history held waiting owed flying row trail) (near : a.toNat < 255)
    (settled : waiting a = 0) (paid : owed a = 0) (idle : flying a = 0) :
    Traced key history held waiting owed (Function.update flying a (held a)) row
      (trail.move (.stored a) (.sent a)) where
  history := Trail.sown_move.symm ▸ h.history
  own := h.own_move _ _
  held b near' := by
    rw [Trail.weight_move (by simp), if_neg (by simp)]
    by_cases same : b = a
    · subst same
      rw [Function.update_self, if_pos rfl, settled, add_zero, zero_add]
    · rw [Function.update_of_ne same, if_neg (by simpa using same)]
      exact h.held b near'
  sent b := by
    rw [Trail.weight_move (by simp)]
    by_cases same : b = a
    · subst same
      rw [Function.update_self, if_pos rfl, h.sent b, h.held b near, settled, idle, paid, add_zero,
        add_zero, add_zero, zero_add]
    · rw [Function.update_of_ne same, if_neg (by simpa using same), if_neg (by simp)]
      exact h.sent b
  row := by
    rw [Trail.weight_move (by simp), if_neg (by simp), if_neg (by simp)]
    exact h.row

/-- A confirmation takes away all that the sender holds. -/
theorem confirm (h : Traced key history held waiting owed flying row trail) (idle : flying a = 0) :
    Traced key history (Function.update held a 0) (Function.update waiting a 0) owed flying row
      (trail.forget (.stored a)) where
  history := Trail.sown_forget.trans h.history
  own e mem := h.own e (List.mem_filter.1 mem).1
  held b near := by
    rw [Trail.weight_forget]
    by_cases same : b = a
    · subst same
      rw [Function.update_self, Function.update_self, if_pos rfl, idle, add_zero, add_zero]
    · rw [Function.update_of_ne same, Function.update_of_ne same, if_neg (by simpa using same)]
      exact h.held b near
  sent b := by
    rw [Trail.weight_forget, if_neg (by simp)]
    exact h.sent b
  row := by
    rw [Trail.weight_forget, if_neg (by simp)]
    exact h.row

/-- A confirmed frame brought nothing. -/
theorem confirm_of_zero (h : Traced key history held waiting owed flying row trail)
    (nothing : waiting a = 0) :
    Traced key history held (Function.update waiting a 0) owed flying row trail := by
  rwa [← nothing, Function.update_eq_self]

/-- The sender keeps what a frame that was given up brought. -/
theorem giveUp (h : Traced key history held waiting owed flying row trail) (idle : flying a = 0)
    (unpaid : owed a = waiting a) :
    Traced key history held (Function.update waiting a 0) (Function.update owed a 0) flying row
      (trail.move (.sent a) (.stored a)) where
  history := Trail.sown_move.symm ▸ h.history
  own := h.own_move _ _
  held b near := by
    rw [Trail.weight_move (by simp), h.sent a]
    by_cases same : b = a
    · subst same
      rw [Function.update_self, if_pos rfl, h.held b near, idle, unpaid, add_zero, add_zero,
        add_zero, add_zero, add_comm]
    · rw [Function.update_of_ne same, if_neg (by simpa using same), if_neg (by simp)]
      exact h.held b near
  sent b := by
    rw [Trail.weight_move (by simp), if_neg (by simp)]
    by_cases same : b = a
    · subst same
      rw [Function.update_self, if_pos rfl, idle, add_zero]
    · rw [Function.update_of_ne same, if_neg (by simpa using same)]
      exact h.sent b
  row := by
    rw [Trail.weight_move (by simp), if_neg (by simp), if_neg (by simp)]
    exact h.row

/-- All that the sink holds goes into the row. -/
theorem consume (h : Traced key history held waiting owed flying row trail) (near : a.toNat < 255)
    (settled : waiting a = 0) (idle : flying a = 0) :
    Traced key history (Function.update held a 0) waiting owed flying (row + held a)
      (trail.move (.stored a) .row) where
  history := Trail.sown_move.symm ▸ h.history
  own := h.own_move _ _
  held b near' := by
    rw [Trail.weight_move (by simp), if_neg (by simp)]
    by_cases same : b = a
    · subst same
      rw [Function.update_self, if_pos rfl, settled, idle, add_zero, add_zero]
    · rw [Function.update_of_ne same, if_neg (by simpa using same)]
      exact h.held b near'
  sent b := by
    rw [Trail.weight_move (by simp), if_neg (by simp), if_neg (by simp)]
    exact h.sent b
  row := by
    rw [Trail.weight_move (by simp), if_pos rfl, h.held a near, settled, idle, h.row, add_zero,
      add_zero, add_comm]

/-- Once the medium has settled them, all frames that were under way are waiting. -/
theorem settle (h : Traced key history held (fun _ ↦ 0) (fun _ ↦ 0) flying row trail) :
    Traced key history held flying flying (fun _ ↦ 0) row trail where
  history := h.history
  own := h.own
  held b near := by rw [h.held b near, add_zero, add_zero]
  sent b := by rw [h.sent b, zero_add, add_zero]
  row := h.row

end Traced
end CollectionTree
