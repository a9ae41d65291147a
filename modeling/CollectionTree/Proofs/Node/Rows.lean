import CollectionTree.Proofs.Node.Fitting
import CollectionTree.Proofs.Workload.Rows

/-!
# What one node holds for a row

A node stores at most one record about a key. So for the row of a key each step is all or nothing:
what arrives joins that record or is refused (`Fitted.held_takingIn`), a frame carries the whole of
it or none (`Hauls`), and a confirmation takes it away whole, with what was merged into it while it
was on its way (`Accounted.held_confirmed`).
-/

namespace CollectionTree

/-- What a frame brings to the row of a key. -/
def brought (key : Collect.Key) (frame : Option Outgoing) : WithZero Collect.Tally :=
  weighEntries (Collect.rowUnder key) (carried frame)

/-- No frame brings nothing to any row. -/
@[simp] theorem brought_none (key : Collect.Key) : brought key none = 0 := rfl

/-- What the sink is given for the row of a key among some outputs. -/
def delivered (key : Collect.Key) (outputs : List Output) : WithZero Collect.Tally :=
  weighEntries (Collect.rowUnder key) (Node.handedOver Collect.jobId outputs)

/-- Nothing is delivered without outputs. -/
@[simp] theorem delivered_nil (key : Collect.Key) : delivered key [] = 0 := rfl

/-- What is delivered in two lots of outputs adds up. -/
@[simp] theorem delivered_append (key : Collect.Key) (outputs more : List Output) :
    delivered key (outputs ++ more) = delivered key outputs + delivered key more := by
  simp [delivered]

namespace Node

/-- What a node holds for the row of a key. -/
def held (key : Collect.Key) (n : Node) : WithZero Collect.Tally :=
  weigh (Collect.rowUnder key) (n.recordsFor Collect.jobId)

variable {n n' : Node} {key : Collect.Key} {size : Nat} {x : UInt8}
  {waiting flying : Option Outgoing}

/-- What is held for a row depends on the entries of the collecting job only. -/
theorem held_congr (records : (n'.recordsFor Collect.jobId).map Record.entry =
    (n.recordsFor Collect.jobId).map Record.entry) : n'.held key = n.held key := by
  rw [held, held, weigh, weigh, records]

/-! ## Coming in -/

/-- A node holds as much more as those of the records bring that are not refused. -/
theorem Gets.held {candidates : List Record} (h : n.Gets Collect.jobId candidates n')
    (fitted : n.Fitted size x) (fits : ∀ c ∈ candidates, Collect.shape.Fits c.entry)
    (key : Collect.Key) : ∃ taken : List Record, taken.Sublist candidates ∧
      n'.held key = n.held key + weigh (Collect.rowUnder key) taken := by
  cases h with
  | unbound before after => exact ⟨[], List.nil_sublist _, by simp [Node.held, before, after]⟩
  | bound store found after =>
    have records : n.recordsFor Collect.jobId = store.records := by simp [recordsFor, found]
    have stored := fitted.fits Collect.jobId
    rw [records] at stored
    have additive : store.job.Additive Collect.shape.Fits (Collect.rowUnder key) := by
      have bound := mem_bindings_of_accumulator? found
      rcases fitted.jobs.cases_of_mem bound with ⟨-, x, y, windowSecs, job⟩ | ⟨other, -⟩
      · rw [job]
        exact Collect.additive_row x y windowSecs key
      · cases other
    refine ⟨store.accepted candidates, store.accepted_sublist candidates, ?_⟩
    rw [Node.held, Node.held, after, records]
    exact Store.weigh_emitAll additive stored fits

/-- A payload brings all that it has for a row, or none of it. -/
theorem Fitted.held_takingIn (fitted : n.Fitted size x) {frame : Outgoing}
    (fits : ∀ id, ∀ e ∈ Wire.entriesFor frame.payload id, (shapeOf id).Fits e)
    (nodup : (carriedKeys (some frame) Collect.jobId).Nodup) (key : Collect.Key) :
    (n.takingIn frame.payload).held key = n.held key ∨
      (n.takingIn frame.payload).held key = n.held key + brought key (some frame) := by
  obtain ⟨taken, among, after⟩ := (n.gets_takingIn frame.payload Collect.jobId).held fitted
    (Store.forall_mem_arrivals (fits Collect.jobId)) key
  have entries := among.map Record.entry
  rw [Store.map_entry_arrivals] at entries
  rw [after]
  rcases weighEntries_of_sublist (fun _ ↦ Collect.rowUnder_of_ne) entries nodup with none | all
  · exact .inl (by rw [weigh, none, add_zero])
  · exact .inr (by rw [weigh, all]; rfl)

/-- What the collecting job makes of a fact are readings of the node's own position. -/
theorem Fitted.collected_eq (fitted : n.Fitted size x) (elapsed : Nat) (fact value : Bytes) :
    ∃ readings : List Collect.Reading,
      n.collected elapsed fact value = readings.map Collect.Reading.record ∧
        ∀ r ∈ readings, r.key.x = x := by
  cases found : n.accumulator? Collect.jobId with
  | none => exact ⟨[], by simp [collected, found], fun _ mem ↦ nomatch mem⟩
  | some acc =>
    obtain ⟨y, windowSecs, bound⟩ := fitted.collects
    have job := job_unique fitted.distinct (mem_bindings_of_accumulator? found) bound
    obtain ⟨readings, made, placed⟩ := Collect.map_eq_records x y windowSecs elapsed fact value
    refine ⟨readings, ?_, placed⟩
    rw [collected, found, Option.map_some, Option.getD_some, ← job]
    exact made

/-! ## Settled frames -/

/-- A confirmation takes away all that is held for a row, or the frame brought nothing to it. -/
theorem Accounted.held_confirmed {frame : Outgoing} (h : n.Accounted (some frame) none)
    (key : Collect.Key) : n.confirmed.held key = 0 ∨
      n.confirmed.held key = n.held key ∧ brought key (some frame) = 0 := by
  have split := weigh_filter_add (Collect.rowUnder key) Record.isPending
    (n.recordsFor Collect.jobId)
  have marks := h.marks Collect.jobId key.toBytes
  rw [carriedKeys_none] at marks
  rw [held, held, recordsFor_confirmed, ← split]
  by_cases carries : key.toBytes ∈ carriedKeys (some frame) Collect.jobId
  · left
    obtain ⟨r, hr, marked, about⟩ := mem_pendingKeys.1 (marks.2 (.inl carries))
    refine weighEntries_eq_zero fun e he ↦ Collect.rowUnder_of_ne fun same ↦ ?_
    obtain ⟨other, mem, rfl⟩ := List.mem_map.1 he
    obtain ⟨mem, unmarked⟩ := List.mem_filter.1 mem
    obtain rfl := List.inj_on_of_nodup_map (h.nodup Collect.jobId) mem hr (same.trans about.symm)
    simp [marked] at unmarked
  · right
    have pending : weigh (Collect.rowUnder key)
        ((n.recordsFor Collect.jobId).filter Record.isPending) = 0 := by
      refine weighEntries_eq_zero fun e he ↦ Collect.rowUnder_of_ne fun same ↦ ?_
      obtain ⟨r, mem, rfl⟩ := List.mem_map.1 he
      obtain ⟨mem, marked⟩ := List.mem_filter.1 mem
      have carried := marks.1 (mem_pendingKeys.2 ⟨r, mem, marked, same⟩)
      exact carries (carried.resolve_right List.not_mem_nil)
    refine ⟨by rw [pending, zero_add], ?_⟩
    exact weighEntries_eq_zero fun e he ↦ Collect.rowUnder_of_ne fun same ↦
      carries (mem_carriedKeys.2 ⟨e, he, same⟩)

/-- Giving a frame up keeps what is held for a row. -/
theorem held_givenUp (n : Node) (key : Collect.Key) : n.givenUp.held key = n.held key :=
  held_congr (by simp [recordsFor_givenUp, Function.comp_def])

/-! ## Flushes -/

/-- What a flush does with what is held for a row. -/
inductive Hauls (key : Collect.Key) (n : Node) (flying : Option Outgoing)
    (r : Reaction Bool Node Output) : Prop
  /-- It stays where it is, and no frame comes under way. -/
  | stays (held : r.state.held key = n.held key) (silent : delivered key r.outputs = 0)
      (quiet : takenFrame? r.outputs = none)
  /-- A frame comes under way with all of it or with nothing of it. -/
  | loads (frame : Outgoing) (taken : takenFrame? r.outputs = some frame)
      (routed : n.gradient.parent ≠ none) (idle : flying = none)
      (held : r.state.held key = n.held key) (silent : delivered key r.outputs = 0)
      (load : brought key (some frame) = 0 ∨ brought key (some frame) = n.held key)
  /-- The sink uses it up. -/
  | consumes (sink : n.gradient.isSink = true) (idle : flying = none)
      (quiet : takenFrame? r.outputs = none) (empty : r.state.held key = 0)
      (all : delivered key r.outputs = n.held key)

/-- A flush moves what is held for a row to the frame or to the sink. -/
theorem Fitted.hauls (fitted : n.Fitted size x) (here : n.Accounted waiting flying) {radio : Radio}
    (free : radio.busy = flying.isSome) (urgent : Bool) (key : Collect.Key) :
    Hauls key n flying (n.flush radio urgent) := by
  have step := flushed_flush fitted.distinct radio urgent
  generalize n.flush radio urgent = reaction at step ⊢
  cases step with
  | idle gate source => exact .stays rfl rfl rfl
  | consumed sink =>
    refine .consumes sink (here.sink sink).2 (takenFrame?_consumption _) ?_ ?_
    · have gone : (n.cleanup .all).recordsFor Collect.jobId = [] := by
        rw [recordsFor_cleanup, List.filter_eq_nil_iff]
        intro r hr
        obtain ⟨acc, hacc, -, mem⟩ := exists_of_mem_recordsFor hr
        simp [Record.bears, Flags.intersects, Flags.all,
          (fitted.inOrder.proper acc hacc).stored r mem]
      rw [held, gone, weigh_nil]
    · rw [delivered, handedOver_consumption fitted.distinct]
      rfl
  | @taken gate source parent payload inner route idle accepted carries loaded =>
    have resting : flying = none := by
      rw [idle] at free
      exact Option.not_isSome_iff_eq_none.1 (by simp [← free])
    refine .loads _ rfl (by simp [route]) resting (held_congr ?_) rfl ?_
    · rw [recordsFor_markAll]
      exact Accumulator.map_entry_markReady ..
    · have among : (Wire.entriesFor payload Collect.jobId).Sublist
          ((n.recordsFor Collect.jobId).map Record.entry) :=
        (carries.ready_recordsFor Collect.jobId).sublist.trans
          (List.filter_sublist.map Record.entry)
      refine weighEntries_of_sublist (fun _ ↦ Collect.rowUnder_of_ne) among ?_
      rw [Record.map_key_map_entry]
      exact here.nodup Collect.jobId
  | refused gate source inner idle filled rejected =>
    refine .stays (held_congr ?_) rfl rfl
    have records := recordsFor_releasePending { n with gate, source } Collect.jobId
    exact (congrArg (List.map Record.entry) records).trans (by simp; rfl)

end Node
end CollectionTree
