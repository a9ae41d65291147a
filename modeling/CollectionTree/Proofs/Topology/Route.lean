import CollectionTree.Topology.Gradient

/-!
# Routes in closed form

A node that hears neighbours one after the other ends with the least hop count that it heard, and
with the neighbour that announced it first as parent: `toNat_hop_afterAll`, `parent_afterAll`. On
its way there it takes those neighbours as parents that announce less than all before them:
`adopted`.
-/

namespace CollectionTree
namespace Gradient

/-- Where a node stands after it heard some neighbours announce hop counts, in order. -/
def afterAll (g : Gradient) (heard : List (Address × UInt8)) : Gradient :=
  heard.foldl (fun g e ↦ (g.consider e.1 e.2).2) g

/-- Those of some neighbours that announce less than `most`, and less than all that are heard before
them. -/
def adopted (most : Nat) : List (Address × UInt8) → List (Address × UInt8)
  | [] => []
  | e :: rest => (if e.2.toNat < most then [e] else []) ++ adopted (min most e.2.toNat) rest

variable {g : Gradient} {heard : List (Address × UInt8)} {most : Nat}

/-- The first neighbour is heard first. -/
theorem afterAll_cons (g : Gradient) (e : Address × UInt8) (rest : List (Address × UInt8)) :
    g.afterAll (e :: rest) = (g.consider e.1 e.2).2.afterAll rest := rfl

/-! ## Where the node ends -/

/-- The hop count is the least of those heard and the one that the node had. -/
theorem toNat_hop_afterAll (g : Gradient) (heard : List (Address × UInt8)) :
    (g.afterAll heard).hop.toNat = (heard.map fun e ↦ e.2.toNat).foldl min g.hop.toNat := by
  induction heard generalizing g with
  | nil => rfl
  | cons e rest ih =>
    rw [afterAll_cons, ih, toNat_hop_consider, List.map_cons, List.foldl_cons, Nat.min_comm]

/-- Hearing neighbours never leads away from the sink. -/
theorem toNat_hop_afterAll_le (g : Gradient) (heard : List (Address × UInt8)) :
    (g.afterAll heard).hop.toNat ≤ g.hop.toNat := by
  induction heard generalizing g with
  | nil => exact Nat.le_refl _
  | cons e rest ih =>
    have further := ih (g.consider e.1 e.2).2
    rw [toNat_hop_consider] at further
    exact Nat.le_trans further (Nat.min_le_right ..)

/-- The parent is the neighbour that was the first to announce the least hop count; a node that
heard of nothing better keeps the one it had. -/
theorem parent_afterAll (g : Gradient) (heard : List (Address × UInt8)) :
    (g.afterAll heard).parent =
      if (g.afterAll heard).hop = g.hop then g.parent
      else (heard.find? fun e ↦ e.2 = (g.afterAll heard).hop).map Prod.fst := by
  induction heard generalizing g with
  | nil => exact (if_pos rfl).symm
  | cons e rest ih =>
    rw [afterAll_cons]
    by_cases better : e.2.toNat < g.hop.toNat
    · rw [consider_of_lt better]
      have least := toNat_hop_afterAll_le { g with parent := some e.1, hop := e.2 } rest
      have parent := ih { g with parent := some e.1, hop := e.2 }
      generalize afterAll { g with parent := some e.1, hop := e.2 } rest = last at least parent ⊢
      have lower : last.hop ≠ g.hop := by
        rw [Ne, ← UInt8.toNat_inj]
        exact Nat.ne_of_lt (Nat.lt_of_le_of_lt least better)
      rw [parent, if_neg lower]
      by_cases same : last.hop = e.2
      · rw [if_pos same, List.find?_cons_of_pos (by simpa using same.symm)]
        rfl
      · rw [if_neg same, List.find?_cons_of_neg (by simpa using Ne.symm same)]
    · rw [consider_of_le (Nat.not_lt.1 better)]
      have least := toNat_hop_afterAll_le g rest
      have parent := ih g
      generalize g.afterAll rest = last at least parent ⊢
      rw [parent]
      split
      · rfl
      · next lower =>
        -- The node ends with less than it had, which is no more than this neighbour announces.
        have other : e.2 ≠ last.hop := by
          rw [← UInt8.toNat_inj] at lower
          rw [Ne, ← UInt8.toNat_inj]
          omega
        rw [List.find?_cons_of_neg (by simpa using other)]

/-! ## Whom it takes as parent on the way -/

/-- A neighbour that is nearer is adopted, and sets the mark for the others. -/
theorem adopted_cons_of_lt {e : Address × UInt8} (better : e.2.toNat < most)
    (rest : List (Address × UInt8)) : adopted most (e :: rest) = e :: adopted e.2.toNat rest := by
  rw [adopted, if_pos better, Nat.min_eq_right (Nat.le_of_lt better), List.singleton_append]

/-- A neighbour that is no nearer is passed over. -/
theorem adopted_cons_of_le {e : Address × UInt8} (worse : most ≤ e.2.toNat)
    (rest : List (Address × UInt8)) : adopted most (e :: rest) = adopted most rest := by
  rw [adopted, if_neg (Nat.not_lt.2 worse), Nat.min_eq_left worse, List.nil_append]

/-- Nobody is nearer to the sink than the sink. -/
theorem adopted_zero (heard : List (Address × UInt8)) : adopted 0 heard = [] := by
  induction heard with
  | nil => rfl
  | cons e rest ih => rw [adopted_cons_of_le (Nat.zero_le _), ih]

/-- From one parent to the next the hop count falls. -/
theorem pairwise_adopted (most : Nat) (heard : List (Address × UInt8)) :
    (most :: (adopted most heard).map fun e ↦ e.2.toNat).Pairwise (· > ·) := by
  induction heard generalizing most with
  | nil => exact List.pairwise_singleton ..
  | cons e rest ih =>
    by_cases better : e.2.toNat < most
    · rw [adopted_cons_of_lt better, List.map_cons]
      have falls := ih e.2.toNat
      refine List.pairwise_cons.2 ⟨fun hop mem ↦ ?_, falls⟩
      rcases List.mem_cons.1 mem with rfl | later
      · exact better
      · exact Nat.lt_trans ((List.pairwise_cons.1 falls).1 hop later) better
    · rw [adopted_cons_of_le (Nat.not_lt.1 better)]
      exact ih most

/-- The last parent announced the hop count that the node ends with. -/
theorem getLast?_adopted (g : Gradient) (heard : List (Address × UInt8)) :
    (g.hop.toNat :: (adopted g.hop.toNat heard).map fun e ↦ e.2.toNat).getLast? =
      some (g.afterAll heard).hop.toNat := by
  induction heard generalizing g with
  | nil => rfl
  | cons e rest ih =>
    rw [afterAll_cons]
    by_cases better : e.2.toNat < g.hop.toNat
    · rw [adopted_cons_of_lt better, consider_of_lt better, List.map_cons, List.getLast?_cons_cons]
      exact ih { g with parent := some e.1, hop := e.2 }
    · rw [adopted_cons_of_le (Nat.not_lt.1 better), consider_of_le (Nat.not_lt.1 better)]
      exact ih g

end Gradient
end CollectionTree
