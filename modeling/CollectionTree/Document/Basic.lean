import CollectionTree.Number.Binary64

/-!
# Documents

Settings are written down in documents of more than one format. Formats differ in how a value is
spelled and agree in what a value can be asked for: a number, a truth value, or the fields of a
record. A record is read field by field in the order of the document; a field that is not known
means nothing, and one that is known may be there once.
-/

namespace CollectionTree

/-- The values of a format, as far as they state a whole number from zero up, a number, a truth
value, anything at all, or a record of fields with some names. Whether a value states anything is
unknown where what it says of that is wrong. -/
class Document (V : Type) where
  whole? : V → Option Nat
  number? : V → Option Binary64
  truth? : V → Option Bool
  states? : V → Option Bool
  fields? : List String → V → Option (List (String × V))

/-- A field that is known, and what its value changes, unless the value states nothing that the
field can hold. -/
structure Field (V σ : Type) where
  name : String
  take? : V → σ → Option σ

namespace Document

variable {V σ α : Type}

/-- Take fields in, one after another. Of the known fields, those in `free` were not there yet. -/
def takeFields? (known : List String) :
    (free : List (Field V σ)) → List (String × V) → σ → Option σ
  | _, [], state => some state
  | free, (name, v) :: rest, state =>
    match free.find? (·.name == name) with
    | some field => do
      let state ← field.take? v state
      takeFields? known (free.filter (·.name != name)) rest state
    | none => if known.contains name then none else takeFields? known free rest state

variable [Document V]

/-- The whole number up to `most` that a value states. -/
def wholeUpTo? (most : Nat) (v : V) : Option Nat := (whole? v).filter (· ≤ most)

/-- What a value states, or none where it says that there is nothing. -/
def optional? (read? : V → Option α) (v : V) : Option (Option α) := do
  if ← states? v then (read? v).map some else return none

/-- Read a record, starting from what holds where a field is not there. -/
def readRecord? (known : List (Field V σ)) (start : σ) (v : V) : Option σ := do
  let names := known.map (·.name)
  let fields ← fields? names v
  takeFields? names known fields start

end Document

end CollectionTree
