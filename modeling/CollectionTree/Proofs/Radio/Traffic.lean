import CollectionTree.Proofs.Radio.Settling
import Mathlib.Data.List.Induction

/-!
# Every frame that a medium takes is reported once

`Traffic` is a medium together with the frames that it took and that were withdrawn, and with all
that it told. Whatever is asked of it, the frames taken are those under way, those withdrawn and
those reported, and the counts are those of the reports (`Traffic.Reported.step`). With what a pump
tells and what a refusal leaves alone, that is all in `Traffic.exact_run`. Which radios are open by
then is said by the requests alone: `Traffic.contains_opened_run_iff`.
-/

namespace CollectionTree

/-- What can be asked of a medium. -/
inductive Medium.Request where
  /-- Open a node's radio. -/
  | attach (node : Address)
  /-- Take a frame. -/
  | send (sender : Address) (frame : Outgoing)
  /-- Close a node's radio. -/
  | close (node : Address)
  /-- Settle every frame under way. -/
  | pump
  deriving DecidableEq, Repr

/-- A node's frame under way with its sender, if there is one. -/
def Medium.sendings (m : Medium) (node : Address) : List (Address × Outgoing) :=
  (m.inFlight.get? node).toList.map fun frame ↦ (node, frame)

/-- Nothing hinders the medium from taking a frame. -/
def Medium.Free (m : Medium) (sender : Address) (frame : Outgoing) : Prop :=
  m.opened.contains sender ∧ frame.payload ≠ [] ∧ m.isBusy sender = false

/-- A medium, the frames that it took, with their senders, those that were under way when their
sender's radio was closed, and all that it told, in order. -/
structure Traffic where
  medium : Medium
  taken : List (Address × Outgoing) := []
  withdrawn : List (Address × Outgoing) := []
  told : List (Address × Signal) := []

namespace Traffic

/-- What the medium does when it is asked. -/
def step (t : Traffic) : Medium.Request → Traffic
  | .attach node => { t with medium := t.medium.attach node }
  | .send sender frame =>
    match t.medium.submit sender frame with
    | .ok medium => { t with medium, taken := (sender, frame) :: t.taken }
    | .error _ => t
  | .close node =>
    { t with
      medium := t.medium.detach node
      withdrawn := t.medium.sendings node ++ t.withdrawn }
  | .pump => { t with medium := t.medium.pump.2, told := t.told ++ t.medium.pump.1 }

/-- The medium after it was asked for all of this. -/
def run (t : Traffic) (requests : List Medium.Request) : Traffic := requests.foldl step t

/-- A medium that nothing was asked of. -/
def start (source : Source) (loss : Chance) : Traffic := { medium := { source, loss } }

/-! ## The books of a medium -/

/-- Each frame taken is under way, withdrawn or reported, once; what was told and what was counted
is what the reports say. -/
structure Reported (t : Traffic) (reports : List Settlement) : Prop where
  /-- The signals are those of the reports. -/
  told : t.told = reports.flatMap Settlement.signals
  /-- The frames taken are those under way, those withdrawn and those reported. -/
  taken :
    t.taken.Perm (t.medium.inFlight.entries ++ (t.withdrawn ++ reports.map Settlement.sending))
  /-- The counts are those of the reports. -/
  stats : t.medium.stats = reports.foldl MediumStats.count {}

variable {t : Traffic} {reports : List Settlement}

private theorem reported_start (source : Source) (loss : Chance) :
    Reported (start source loss) [] :=
  ⟨rfl, .refl _, rfl⟩

/-- A frame is taken only if nothing of its sender is under way. -/
theorem Reported.send (h : t.Reported reports) (sender : Address) (frame : Outgoing) :
    (t.step (.send sender frame)).Reported reports := by
  rw [step]
  split
  · next medium sent =>
    have taken : (t.medium.submit sender frame).isOk = true := by rw [sent]; rfl
    have idle : t.medium.inFlight.get? sender = none := by
      simpa [Medium.isBusy, Table.contains] using
        ((t.medium.submit_isOk_iff sender frame).1 taken).2.2
    rw [Medium.submit_of_accepts taken] at sent
    obtain rfl := Except.ok.inj sent
    have more := Table.perm_entries_insert idle frame
    exact ⟨h.told, (h.taken.cons _).trans (more.symm.append_right _), h.stats⟩
  · exact h

private theorem Reported.close (h : t.Reported reports) (node : Address) :
    (t.step (.close node)).Reported reports := by
  have parts := t.medium.inFlight.perm_entries_erase node
  refine ⟨h.told, h.taken.trans ?_, h.stats⟩
  calc List.Perm (t.medium.inFlight.entries ++ (t.withdrawn ++ reports.map Settlement.sending))
        ((t.medium.sendings node ++ (t.medium.inFlight.erase node).entries) ++
          (t.withdrawn ++ reports.map Settlement.sending)) := parts.append_right _
    List.Perm _ (((t.medium.inFlight.erase node).entries ++ t.medium.sendings node) ++
          (t.withdrawn ++ reports.map Settlement.sending)) := List.perm_append_comm.append_right _
    List.Perm _ ((t.medium.inFlight.erase node).entries ++
          ((t.medium.sendings node ++ t.withdrawn) ++ reports.map Settlement.sending)) :=
      .of_eq (by simp only [List.append_assoc])

/-- A pump reports what was under way. -/
theorem Reported.pump (h : t.Reported reports) :
    (t.step .pump).Reported (reports ++ t.medium.reports) := by
  obtain ⟨signals, stats⟩ := t.medium.pump_eq
  refine ⟨?_, ?_, ?_⟩
  · rw [step, List.flatMap_append, ← h.told, ← signals]
  · have none_left : (t.step .pump).medium.inFlight.entries = [] := by
      simp [step, Table.empty]
    rw [none_left, List.map_append, t.medium.map_sending_reports, List.nil_append,
      ← List.append_assoc]
    exact h.taken.trans List.perm_append_comm
  · rw [step, List.foldl_append, ← h.stats, ← stats]

/-- Whatever is asked of the medium, each frame taken stays accounted for. -/
theorem Reported.step (h : t.Reported reports) (request : Medium.Request) :
    ∃ more, (t.step request).Reported (reports ++ more) := by
  cases request with
  | attach node => exact ⟨[], by rw [List.append_nil]; exact ⟨h.told, h.taken, h.stats⟩⟩
  | send sender frame => exact ⟨[], by rw [List.append_nil]; exact h.send sender frame⟩
  | close node => exact ⟨[], by rw [List.append_nil]; exact h.close node⟩
  | pump => exact ⟨_, h.pump⟩

private theorem Reported.run (h : t.Reported reports) (requests : List Medium.Request) :
    ∃ more, (t.run requests).Reported (reports ++ more) := by
  induction requests generalizing t reports with
  | nil => exact ⟨[], by rw [List.append_nil]; exact h⟩
  | cons request rest ih =>
    obtain ⟨first, stepped⟩ := h.step request
    obtain ⟨more, ran⟩ := ih stepped
    exact ⟨first ++ more, by rw [← List.append_assoc]; exact ran⟩

/-- As many frames were delivered or given up as were taken and are neither under way nor
withdrawn. -/
theorem Reported.completed (h : t.Reported reports) :
    t.medium.stats.delivered + t.medium.stats.timedOut + t.medium.pending + t.withdrawn.length =
      t.taken.length := by
  have counted : t.medium.stats.delivered + t.medium.stats.timedOut = 0 + 0 + reports.length := by
    rw [h.stats]
    exact (MediumStats.countAll_adds {} reports).2
  have lengths := h.taken.length_eq
  simp only [List.length_append, List.length_map] at lengths
  simp only [Medium.pending, Table.size]
  omega

/-- The traffic with a frame under way too. -/
def carrying (t : Traffic) (sender : Address) (frame : Outgoing) : Traffic :=
  { t with medium := t.medium.carrying sender (some frame), taken := (sender, frame) :: t.taken }

private theorem step_send_of_free (t : Traffic) {sender : Address} {frame : Outgoing}
    (free : t.medium.Free sender frame) :
    t.step (.send sender frame) = t.carrying sender frame := by
  have taken := Medium.submit_of_accepts ((t.medium.submit_isOk_iff sender frame).2 free)
  simp only [step, taken, carrying]

private theorem step_send_of_not_free (t : Traffic) {sender : Address} {frame : Outgoing}
    (hindered : ¬ t.medium.Free sender frame) : t.step (.send sender frame) = t := by
  rw [step]
  split
  · next sent =>
    have taken : (t.medium.submit sender frame).isOk = true := by rw [sent]; rfl
    exact absurd ((t.medium.submit_isOk_iff sender frame).1 taken) hindered
  · rfl

/-- A medium's promise to its senders. -/
structure Exact (t : Traffic) : Prop where
  /-- A frame that nothing hinders is under way then. -/
  takes : ∀ sender frame, t.medium.Free sender frame →
    t.step (.send sender frame) = t.carrying sender frame
  /-- A frame that is refused changes nothing. -/
  refuses : ∀ sender frame, ¬ t.medium.Free sender frame → t.step (.send sender frame) = t
  /-- The senders of the frames under way are listed in ascending order, each once. -/
  senders : t.medium.inFlight.keys.Pairwise fun a b ↦ a.toNat < b.toNat
  /-- A pump reports the frames under way. -/
  pumps : ∃ reports, t.medium.Pumps reports
  /-- Each frame that was ever taken is under way, withdrawn or reported, and all that was ever told
  is what those reports say. -/
  reported : ∃ reports, t.Reported reports
  /-- Every attempt was lost or delivered a frame. -/
  attempts : t.medium.stats.attempts = t.medium.stats.lost + t.medium.stats.delivered
  /-- As many frames were delivered or given up as were taken and are neither under way nor
  withdrawn. -/
  completed :
    t.medium.stats.delivered + t.medium.stats.timedOut + t.medium.pending + t.withdrawn.length =
      t.taken.length

private theorem Reported.exact (h : t.Reported reports) : t.Exact where
  takes _ _ := t.step_send_of_free
  refuses _ _ := t.step_send_of_not_free
  senders := t.medium.inFlight.pairwise_keys
  pumps := ⟨_, t.medium.pumps_reports⟩
  reported := ⟨reports, h⟩
  attempts := by
    have balanced := MediumStats.Balanced.countAll (s := {}) rfl reports
    rwa [← h.stats] at balanced
  completed := h.completed

/-- A medium reports every frame that it takes exactly once, whatever is asked of it and whatever is
lost. -/
theorem exact_run (source : Source) (loss : Chance) (requests : List Medium.Request) :
    ((start source loss).run requests).Exact := by
  obtain ⟨reports, ran⟩ := (reported_start source loss).run requests
  exact ran.exact

/-! ## Whose radio is open -/

/-- The last request that opens or closes a node's radio opens it: the radio was opened, and was not
closed since. -/
def Opened (requests : List Medium.Request) (node : Address) : Prop :=
  (requests.filter fun request ↦ request = .attach node ∨ request = .close node).getLast? =
    some (.attach node)

private theorem run_concat (t : Traffic) (requests : List Medium.Request)
    (request : Medium.Request) :
    t.run (requests ++ [request]) = (t.run requests).step request :=
  List.foldl_append

private theorem opened_concat (requests : List Medium.Request) (request : Medium.Request)
    (node : Address) :
    Opened (requests ++ [request]) node ↔
      request = .attach node ∨ request ≠ .close node ∧ Opened requests node := by
  unfold Opened
  rw [List.filter_append]
  by_cases opens : request = .attach node
  · simp [opens]
  · by_cases closes : request = .close node
    · simp [closes]
    · simp [opens, closes]

private theorem contains_opened_step (t : Traffic) (request : Medium.Request) (node : Address) :
    (t.step request).medium.opened.contains node = true ↔
      request = .attach node ∨ request ≠ .close node ∧ t.medium.opened.contains node = true := by
  cases request with
  | attach other =>
    by_cases same : node = other
    · subst same
      simp [step, Medium.attach, OrderedSet.add, Table.contains]
    · simp [step, Medium.attach, OrderedSet.add, Table.contains,
        Table.get?_insert_of_ne _ same, Ne.symm same]
  | send sender frame =>
    by_cases free : t.medium.Free sender frame
    · rw [t.step_send_of_free free]
      simp [carrying]
    · rw [t.step_send_of_not_free free]
      simp
  | close other =>
    by_cases same : node = other
    · subst same
      simp [step, Medium.detach, Table.contains, Table.get?_erase]
    · have apart : other.toNat ≠ node.toNat := fun h ↦ same (Table.rank_inj.1 h).symm
      simp [step, Medium.detach, Table.contains, Table.get?_erase, Ne.symm same, apart]
  | pump => simp [step]

/-- After a run exactly those radios are open that were opened and not closed since. -/
theorem contains_opened_run_iff (source : Source) (loss : Chance) (requests : List Medium.Request)
    (node : Address) :
    ((start source loss).run requests).medium.opened.contains node = true ↔
      Opened requests node := by
  -- From the right, since the last request about the radio decides.
  induction requests using List.reverseRecOn with
  | nil => simp [run, start, Opened, Table.contains]
  | append_singleton requests request ih =>
    rw [run_concat, contains_opened_step, opened_concat, ih]

/-- A frame arrives only at a node whose radio was opened and not closed since. -/
theorem opened_of_arrived {source : Source} {loss : Chance} {requests : List Medium.Request}
    {report : Settlement} {retries : Nat}
    (reported : report ∈ ((start source loss).run requests).medium.reports)
    (arrived : report.fate = .arrived retries) : Opened requests report.frame.target :=
  (contains_opened_run_iff source loss requests _).1
    (Medium.allowed_reports _ report reported retries arrived).1

/-- A second frame is refused, and the first is given up if its destination closes meanwhile. -/
example (source : Source) :
    ((start source .never).run
      [.attach (.ofNat 1), .attach (.ofNat 0), .send (.ofNat 1) ⟨.ofNat 0, [7], 2⟩,
        .send (.ofNat 1) ⟨.ofNat 0, [8], 2⟩, .close (.ofNat 0), .pump]).told =
      [(.ofNat 1, .timedOut (.ofNat 0) 2)] := by
  rfl

end Traffic
end CollectionTree
