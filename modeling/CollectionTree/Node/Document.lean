import CollectionTree.Document.Basic
import CollectionTree.Node.Config

/-!
# A node's settings in a document
-/

namespace CollectionTree

/-- The largest number that a machine word holds. -/
def maxWord : Nat := UInt64.size - 1

namespace NodeConfig

open Document

variable {V : Type} [Document V]

/-- The fields of a node's settings. -/
def fields : List (Field V NodeConfig) :=
  [⟨"max_payload", fun v config ↦
      return { config with maxPayload := ← wholeUpTo? maxWord v }⟩,
    ⟨"max_retries", fun v config ↦
      return { config with maxRetries := (← wholeUpTo? 255 v).toUInt8 }⟩,
    ⟨"ram_limit", fun v config ↦
      return { config with ramLimit := ← optional? (wholeUpTo? maxWord) v }⟩,
    ⟨"seed", fun v config ↦
      return { config with seed := (← optional? (wholeUpTo? maxWord) v).map (·.toUInt64) }⟩]

/-- Read a node's settings; what is not there has its default. -/
def read? (v : V) : Option NodeConfig := readRecord? fields {} v

end NodeConfig

end CollectionTree
