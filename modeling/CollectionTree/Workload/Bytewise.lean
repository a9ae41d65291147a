import CollectionTree.Store.Job

/-!
# Jobs on plain bytes

Jobs that combine values byte by byte, or as one 32-bit word. Byte sums wrap around at 256. A fact
whose key and value are too long for a record makes none.
-/

namespace CollectionTree.Bytewise

/-- The record of a key and value, or none if they are too long. -/
def record (key value : Bytes) : List Record := (Record.make key value).toOption.toList

/-- Combine the first byte of a stored value with the first byte of another. -/
def combineFirst (combine : UInt8 → UInt8 → UInt8) (existing : Record) (incoming : Bytes) :
    Record :=
  { existing with value := existing.value.mergeWith combine (incoming.take 1) }

/-- Combine a stored value with another position by position. -/
def combineAll (combine : UInt8 → UInt8 → UInt8) (existing : Record) (incoming : Bytes) : Record :=
  { existing with value := existing.value.mergeWith combine incoming }

/-- Keep every fact, and add values byte by byte. -/
def sum : Job where
  map _ key value := record key value
  reduce := combineAll (· + ·)

/-- Keep the first byte of every value under its remainder by four, and add it up. -/
def sumByRemainder : Job where
  map _ _ value := value.head?.toList.flatMap fun v ↦ record [v % 4] [v]
  reduce := combineFirst (· + ·)

/-- Keep twice the first byte of a value under its remainder by four if it is odd, and add it up. -/
def sumOfOdd : Job where
  map _ _ value := value.head?.toList.flatMap fun v ↦
    if v % 2 = 0 then [] else record [v % 4] [2 * v]
  reduce := combineFirst (· + ·)

/-- Keep every fact, and add values of four bytes as words, low byte first. -/
def wordSum : Job where
  map _ key value := record key value
  reduce existing incoming :=
    match existing.value, incoming with
    | [a₀, a₁, a₂, a₃], [b₀, b₁, b₂, b₃] =>
      { existing with
        value := Bytes.ofUInt32 (Bytes.uint32 a₀ a₁ a₂ a₃ + Bytes.uint32 b₀ b₁ b₂ b₃) }
    | _, _ => existing

/-- Keep every byte of a value under the key followed by the byte's place, urgent if it is 128 or
more, and take the larger byte. -/
def spread : Job where
  map _ key value := value.zipIdx.flatMap fun (v, place) ↦
    (record (key ++ [place.toUInt8]) [v]).map fun r ↦ if v ≥ 128 then r.urgent else r
  reduce := combineAll max

/-- Keep every fact as urgent, and add values byte by byte. -/
def alarm : Job where
  map _ key value := (record key value).map Record.urgent
  reduce := combineAll (· + ·)

/-- Keep every fact, and let a later value overwrite an earlier one. -/
def latest : Job where
  map _ key value := record key value
  reduce existing incoming := existing.overwriteValue incoming

/-- Keep every fact, and let the first byte of a later value overwrite the first byte of the key. -/
def rekey : Job where
  map _ key value := record key value
  reduce existing incoming := existing.overwriteKey (incoming.take 1)

end CollectionTree.Bytewise
