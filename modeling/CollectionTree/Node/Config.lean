import CollectionTree.Wire.Header

/-!
# Settings of a node
-/

namespace CollectionTree

/-- How a node uses its radio and its memory: the most bytes that a frame may have, how often the
radio may send one again, and the most bytes that stored records may hold. Without a seed the node's
draws are not fixed. -/
structure NodeConfig where
  maxPayload : Nat := Wire.defaultMaxPayload
  maxRetries : UInt8 := 4
  ramLimit : Option Nat := none
  seed : Option UInt64 := none
  deriving DecidableEq, Repr

end CollectionTree
