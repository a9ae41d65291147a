import CollectionTree.Topology.Address

/-!
# Position in the collection tree

Every node estimates its distance to the sink in hops and takes as parent the neighbour that
announced the least distance. Only a strictly smaller distance changes the parent, so two equally
good neighbours never make a node waver between them.
-/

namespace CollectionTree

/-- The hop count that means "no way to the sink". -/
def unroutedHop : UInt8 := 255

/-- Where a node stands in the collection tree: the neighbour that it sends to, if it knows one, and
the least hop count that it heard. -/
structure Gradient where
  parent : Option Address
  hop : UInt8
  isSink : Bool
  deriving DecidableEq, Repr

namespace Gradient

/-- The root: hop 0, and never a parent. -/
def sink : Gradient := ⟨none, 0, true⟩

/-- A node that heard from nobody yet. -/
def unrouted : Gradient := ⟨none, unroutedHop, false⟩

/-- The position of a node when it starts. -/
def initial (isSink : Bool) : Gradient := if isSink then sink else unrouted

/-- Whether data can move toward the sink from here. -/
def isRouted (g : Gradient) : Bool := g.isSink || g.parent.isSome

/-- The hop count to announce: one more than the node's own, but never above 255. -/
def advertised (g : Gradient) : UInt8 := if g.hop = 255 then 255 else g.hop + 1

/-- Whether a neighbour that announces `hop` would bring the node nearer to the sink. -/
def improvedBy (g : Gradient) (hop : UInt8) : Bool := hop < g.hop

/-- Take a neighbour as parent if what it announces is strictly better; the answer is whether it was
taken. -/
def consider (g : Gradient) (neighbor : Address) (hop : UInt8) : Bool × Gradient :=
  if g.improvedBy hop then (true, { g with parent := some neighbor, hop }) else (false, g)

/-- A node announces one hop more than its own, and at most 255. -/
theorem toNat_advertised (g : Gradient) : g.advertised.toNat = min 255 (g.hop.toNat + 1) := by
  have h := g.hop.toNat_lt
  unfold advertised
  split
  · next heq => simp [heq]
  · next hne =>
    have : g.hop.toNat ≠ 255 := fun h ↦ hne (UInt8.toNat_inj.mp h)
    simp
    omega

/-- Hearing a neighbour makes no node a sink. -/
@[simp] theorem isSink_consider (g : Gradient) (neighbor : Address) (hop : UInt8) :
    (g.consider neighbor hop).2.isSink = g.isSink := by
  unfold consider
  split <;> rfl

/-- Nearer to the sink is better. -/
theorem improvedBy_iff (g : Gradient) (hop : UInt8) :
    g.improvedBy hop = true ↔ hop.toNat < g.hop.toNat := by
  rw [improvedBy, decide_eq_true_eq, UInt8.lt_iff_toNat_lt]

/-- A node takes a neighbour as its parent that is nearer to the sink. -/
theorem consider_of_lt {g : Gradient} {hop : UInt8} (better : hop.toNat < g.hop.toNat)
    (neighbor : Address) :
    g.consider neighbor hop = (true, { g with parent := some neighbor, hop }) :=
  if_pos ((g.improvedBy_iff hop).2 better)

/-- A node that hears of no less distance stays where it is. -/
theorem consider_of_le {g : Gradient} {hop : UInt8} (worse : g.hop.toNat ≤ hop.toNat)
    (neighbor : Address) : g.consider neighbor hop = (false, g) := by
  apply if_neg
  rw [improvedBy_iff]
  exact Nat.not_lt.2 worse

/-- The hop count after hearing a neighbour is the smaller of the two. -/
theorem toNat_hop_consider (g : Gradient) (neighbor : Address) (hop : UInt8) :
    (g.consider neighbor hop).2.hop.toNat = min hop.toNat g.hop.toNat := by
  by_cases better : hop.toNat < g.hop.toNat
  · rw [consider_of_lt better]
    exact (Nat.min_eq_left (Nat.le_of_lt better)).symm
  · rw [consider_of_le (Nat.not_lt.1 better)]
    exact (Nat.min_eq_right (Nat.not_lt.1 better)).symm

end Gradient

end CollectionTree
